import JavaOutline.Proofs.Command.Output
import JavaOutline.Proofs.Syntax.Flagged

/-! What the command prints when it checks a project. Whether a file fails is read off its flagged
tree, and the lines printed for it come from a walk through the tree. That the two agree is not
assumed: the nodes of the tree that lie in no mistake are flagged as they should be, whatever the
text is. Files that cannot be read as text take part in neither. -/
namespace JavaOutline.Command

open Syntax

def treeIn? (fs : FileSystem) (path : Path) : Option Node :=
  match readText fs path with
  | .error _ => none
  | .ok text => Java.parse text

/-- The files that can be read as text, each with its tree. -/
def treesIn (fs : FileSystem) (files : List Path) : List (Path × Node) :=
  files.filterMap fun path => (treeIn? fs path).map fun root => (path, root)

def mistakeLine (path : Path) (line : UInt32) : String :=
  s!"{path.display}:{line.toNat}: syntax error\n"

def mistakeLines (trees : List (Path × Node)) : List String :=
  trees.flatMap fun file => file.2.errorLines.map (mistakeLine file.1)

/-- The files for which a line is printed. -/
def reported (trees : List (Path × Node)) : List (Path × Node) :=
  trees.filter fun file => file.2.errorLines ≠ []

/-- The files whose trees are flagged. -/
def flagged (trees : List (Path × Node)) : List (Path × Node) :=
  trees.filter fun file => file.2.hasMistakes

/-- The outcome of a check that finds some files failing. -/
def outcomeOf (fs : FileSystem) (found : Nat) (failing : List (Path × Node)) : Outcome :=
  { exitCode := if failing = [] then 0 else 1
    stdout := String.join (mistakeLines failing)
    stderr :=
      if failing = [] then none
      else some s!"Error: {failing.length} of {found} files have syntax errors\n"
    files := fs }

section Trees

variable {fs : FileSystem} {path : Path} {files : List Path}

/-- A text always has a tree, so only a file that cannot be read as text has none. -/
theorem treeIn?_eq_none_iff :
    treeIn? fs path = none ↔ ∃ e, readText fs path = .error e := by
  rw [treeIn?]
  cases readText fs path with
  | error e => simp
  | ok text => simp [Java.parse]

/-- The tree of a file is that of its text. -/
theorem treeIn?_eq_some_iff {root : Node} :
    treeIn? fs path = some root ↔
      ∃ text, readText fs path = .ok text ∧ Java.parse text = some root := by
  rw [treeIn?]
  cases readText fs path with
  | error e => simp
  | ok text => simp

/-- A file has a tree exactly if it can be read and is text. -/
theorem exists_treeIn?_iff :
    (∃ root, treeIn? fs path = some root) ↔
      ∃ bytes text, fs.read path = .ok bytes ∧ Text.decode? bytes = some text := by
  cases hRead : fs.read path with
  | error fault => simp [treeIn?, readText, hRead]
  | ok bytes =>
      cases hText : Text.decode? bytes with
      | none => simp [treeIn?, readText, hRead, hText]
      | some text => simp [treeIn?, readText, hRead, hText, Java.parse]

theorem treesIn_cons_of_none (h : treeIn? fs path = none) :
    treesIn fs (path :: files) = treesIn fs files := by
  rw [treesIn, List.filterMap_cons, h]
  rfl

theorem treesIn_cons_of_some {root : Node} (h : treeIn? fs path = some root) :
    treesIn fs (path :: files) = (path, root) :: treesIn fs files := by
  rw [treesIn, List.filterMap_cons, h]
  rfl

/-- The tree of a file is flagged as it should be outside of mistakes. -/
theorem flagsOutside_of_mem_treesIn {file : Path × Node} (h : file ∈ treesIn fs files) :
    file.2.FlagsOutside := by
  obtain ⟨path, -, hFile⟩ := List.mem_filterMap.mp h
  obtain ⟨root, hTree, rfl⟩ := Option.map_eq_some_iff.mp hFile
  obtain ⟨text, -, hRoot⟩ := treeIn?_eq_some_iff.mp hTree
  exact Java.flagsOutside_of_parse hRoot

/-- The files with trees stand in the order of all files. -/
theorem map_fst_treesIn :
    (treesIn fs files).map Prod.fst = files.filter fun path => (treeIn? fs path).isSome := by
  induction files with
  | nil => rfl
  | cons path files ih =>
      rw [treesIn, List.filterMap_cons, List.filter_cons, ← ih]
      cases treeIn? fs path <;> rfl

end Trees

section Lines

variable {trees : List (Path × Node)}

theorem flagged_cons (file : Path × Node) :
    flagged (file :: trees) =
      if file.2.hasMistakes = true then file :: flagged trees else flagged trees :=
  List.filter_cons

theorem mistakeReport_eq (path : Path) (root : Node) :
    mistakeReport path root.errorLines = String.join (mistakeLines [(path, root)]) := by
  rw [mistakeLines, List.flatMap_singleton]
  rfl

theorem mistakeLines_cons (file : Path × Node) :
    mistakeLines (file :: trees) = mistakeLines [file] ++ mistakeLines trees := by
  rw [mistakeLines, List.flatMap_cons, mistakeLines, List.flatMap_singleton, mistakeLines]

/-- There is nothing to print if no file has a line with a mistake. -/
theorem mistakeLines_eq_nil_iff :
    mistakeLines trees = [] ↔ ∀ file ∈ trees, file.2.errorLines = [] := by
  simp only [mistakeLines, List.flatMap_eq_nil_iff, List.map_eq_nil_iff]

/-- Something is printed as soon as there is a line to print. -/
theorem join_mistakeLines_eq_empty_iff :
    String.join (mistakeLines trees) = "" ↔ mistakeLines trees = [] := by
  constructor
  · intro hEmpty
    apply List.eq_nil_iff_forall_not_mem.mpr
    intro printed hPrinted
    obtain ⟨file, -, hLine⟩ := List.mem_flatMap.mp hPrinted
    obtain ⟨line, -, rfl⟩ := List.mem_map.mp hLine
    have hChars : (mistakeLines trees).flatMap String.toList = [] := by
      rw [← String.toList_join, hEmpty, String.toList_empty]
    have hNone := List.flatMap_eq_nil_iff.mp hChars _ hPrinted
    simp [mistakeLine] at hNone
  · intro hNone
    rw [hNone]
    rfl

/-- Files without a line to report can be left out. -/
theorem mistakeLines_reported : mistakeLines (reported trees) = mistakeLines trees := by
  induction trees with
  | nil => rfl
  | cons file trees ih =>
      rw [reported, List.filter_cons, ← reported, mistakeLines_cons file, ← ih]
      by_cases hNone : file.2.errorLines = []
      · have hSilent : mistakeLines [file] = [] := by
          simpa [mistakeLines_eq_nil_iff] using hNone
        rw [if_neg (by simpa using hNone), hSilent, List.nil_append]
      · rw [if_pos (by simpa using hNone), mistakeLines_cons]

/-- No file is reported exactly if nothing is printed. -/
theorem reported_eq_nil_iff : reported trees = [] ↔ String.join (mistakeLines trees) = "" := by
  rw [join_mistakeLines_eq_empty_iff, mistakeLines_eq_nil_iff, reported, List.filter_eq_nil_iff]
  simp only [decide_eq_true_eq, not_not]

/-- The files that fail are those with a line to report. -/
theorem flagged_treesIn {fs : FileSystem} {files : List Path} :
    flagged (treesIn fs files) = reported (treesIn fs files) := by
  apply List.filter_congr
  intro file hFile
  rw [Bool.eq_iff_iff, decide_eq_true_eq]
  exact (flagsOutside_of_mem_treesIn hFile).hasMistakes_iff_errorLines

end Lines

section Check

variable {fs : FileSystem} {path : Path} {rest files : List Path} {args : List String} {o : Options}

/-- A file without a tree changes nothing in a check. -/
theorem checkFiles_cons_of_none (h : treeIn? fs path = none) :
    checkFiles fs (path :: rest) = checkFiles fs rest := by
  obtain ⟨e, hText⟩ := treeIn?_eq_none_iff.mp h
  rw [checkFiles, hText]

/-- One more file with a tree adds its report and is counted if its tree is flagged. -/
theorem checkFiles_cons_of_some {root : Node} {printed : String} {failing : Nat}
    (h : treeIn? fs path = some root) (hRest : checkFiles fs rest = .ok (printed, failing)) :
    checkFiles fs (path :: rest) =
      if root.hasMistakes then .ok (mistakeReport path root.errorLines ++ printed, failing + 1)
      else .ok (printed, failing) := by
  obtain ⟨text, hText, hRoot⟩ := treeIn?_eq_some_iff.mp h
  have hReport : checkSyntax text = .ok root.report := by
    rw [checkSyntax, parseSource, hRoot]
    rfl
  rw [checkFiles, hText]
  simp only [hReport, Except.bind, hRest, Report.isValid, Node.report]
  cases root.hasMistakes <;> rfl

/-- The files are checked to the end, whatever is in them. -/
theorem checkFiles_eq (fs : FileSystem) (files : List Path) :
    checkFiles fs files =
      .ok (String.join (mistakeLines (flagged (treesIn fs files))),
        (flagged (treesIn fs files)).length) := by
  induction files with
  | nil => rfl
  | cons path rest ih =>
      cases hTree : treeIn? fs path with
      | none => rw [checkFiles_cons_of_none hTree, treesIn_cons_of_none hTree, ih]
      | some root =>
          rw [checkFiles_cons_of_some hTree ih, treesIn_cons_of_some hTree, flagged_cons]
          cases hFlag : root.hasMistakes with
          | false => rfl
          | true =>
              rw [if_pos rfl, if_pos rfl, mistakeLines_cons, String.join_append, mistakeReport_eq,
                List.length_cons]

/-- How many files fail is reported in one line. -/
theorem report_failing (failing found : Nat) :
    Failure.report ⟨s!"{failing} of {found} files have syntax errors", []⟩ =
      s!"Error: {failing} of {found} files have syntax errors\n" := by
  apply String.toList_inj.mp
  simp [Failure.report, toString]

/-- A check always comes to an end, with the outcome for the files whose trees are flagged. -/
theorem run_eq_outcomeOf (hOptions : Options.ofArguments args = .ok o) (hCheck : o.check = true)
    (hFound : o.project.discoverFiles fs = .ok files) :
    run fs args = outcomeOf fs files.length (flagged (treesIn fs files)) := by
  simp only [run, hOptions, runWith, hCheck, if_pos, runCheck, hFound, checkFiles_eq, outcomeOf,
    List.length_eq_zero_iff]
  split_ifs
  · rfl
  · simp only [report_failing]

/-- Let a project be checked whose files could be found. The files that can be read as text are
looked at, each once and in the order of discovery, and what the others are changes nothing but the
number of all files in the message. What is printed is one line for each of the lines with a mistake
of each file, these in ascending order; the exit code is one if anything is printed and zero
otherwise, and the message counts the files for which something is printed. -/
theorem run_check_prints_error_lines (hfs : fs.Proper)
    (hOptions : Options.ofArguments args = .ok o) (hCheck : o.check = true)
    (hFound : o.project.discoverFiles fs = .ok files) :
    (((treesIn fs files).map Prod.fst).Sublist files ∧
      ((treesIn fs files).map Prod.fst).Nodup ∧
      (∀ path ∈ files, path ∈ (treesIn fs files).map Prod.fst ↔
        ∃ bytes text, fs.read path = .ok bytes ∧ Text.decode? bytes = some text) ∧
      ∀ file ∈ treesIn fs files, file.2.errorLines.Pairwise (· < ·)) ∧
    ((run fs args).stdout = String.join ((treesIn fs files).flatMap fun file =>
        file.2.errorLines.map fun line =>
          s!"{file.1.display}:{line.toNat}: syntax error\n") ∧
      ((run fs args).exitCode = 1 ↔ (run fs args).stdout ≠ "") ∧
      ((run fs args).exitCode = 0 ↔ (run fs args).stdout = "") ∧
      (run fs args).stderr =
        if (run fs args).stdout = "" then none
        else some s!"Error: {(reported (treesIn fs files)).length} of {files.length
          } files have syntax errors\n") ∧
    ∀ (other : FileSystem) (otherArgs : List String) (otherOptions : Options)
      (otherFiles : List Path), Options.ofArguments otherArgs = .ok otherOptions →
      otherOptions.check = true → otherOptions.project.discoverFiles other = .ok otherFiles →
      treesIn other otherFiles = treesIn fs files →
      (run other otherArgs).exitCode = (run fs args).exitCode ∧
        (run other otherArgs).stdout = (run fs args).stdout := by
  have hRun := run_eq_outcomeOf hOptions hCheck hFound
  obtain ⟨skipped, hDiscover⟩ := Project.exists_discover_of_discoverFiles hFound
  refine ⟨⟨?_, ?_, ?_, fun file _ => file.2.pairwise_errorLines⟩, ?_, ?_⟩
  · rw [map_fst_treesIn]
    exact List.filter_sublist
  · rw [map_fst_treesIn]
    exact (Project.nodup_of_discover hfs hDiscover).filter _
  · intro path hPath
    rw [map_fst_treesIn, List.mem_filter, Option.isSome_iff_exists, exists_treeIn?_iff]
    exact and_iff_right hPath
  · rw [flagged_treesIn] at hRun
    have hStdout : (run fs args).stdout = String.join (mistakeLines (treesIn fs files)) := by
      rw [hRun, outcomeOf, mistakeLines_reported]
    have hNone : reported (treesIn fs files) = [] ↔ (run fs args).stdout = "" := by
      rw [hStdout, reported_eq_nil_iff]
    refine ⟨hStdout, ?_, ?_, ?_⟩
    · rw [ne_eq, ← hNone, hRun, outcomeOf]
      split_ifs with h <;> simp [h]
    · rw [← hNone, hRun, outcomeOf]
      split_ifs with h <;> simp [h]
    · simp only [← hNone]
      rw [hRun]
      rfl
  · intro other otherArgs otherOptions otherFiles hOther hOtherCheck hOtherFound hSame
    rw [run_eq_outcomeOf hOther hOtherCheck hOtherFound, hSame, hRun]
    exact ⟨rfl, rfl⟩

end Check

/-- Options that name a directory whose files are to be checked. -/
def checkOptions (inputDir : String) : Options :=
  { plainOptions inputDir "n" .index with check := true }

theorem run_check_prints_error_lines_besideProject :
    Options.ofArguments ["--input-dir", "p", "--namespace", "n", "--format=index", "--check"] =
        .ok (checkOptions "p") ∧
      ∃ root, Java.parse "class A { }" = some root ∧
        treesIn (Project.besideBroken (Text.encode "class A { }")) Project.besideFiles =
          [(Path.ofString "p/A.java", root)] ∧
        (let outcome := run (Project.besideBroken (Text.encode "class A { }"))
          ["--input-dir", "p", "--namespace", "n", "--format=index", "--check"]
        outcome.stdout = String.join (root.errorLines.map fun line =>
          s!"p/A.java:{line.toNat}: syntax error\n") ∧
        (outcome.exitCode = 1 ↔ outcome.stdout ≠ "") ∧
        (outcome.exitCode = 0 ↔ outcome.stdout = "")) := by
  have hProper : (Project.besideBroken (Text.encode "class A { }")).Proper := by decide +kernel
  have hOptions :
      Options.ofArguments ["--input-dir", "p", "--namespace", "n", "--format=index", "--check"] =
        .ok (checkOptions "p") := by decide +kernel
  have hProject : (checkOptions "p").project = Project.besideProject := by decide +kernel
  have hFound : (checkOptions "p").project.discoverFiles
      (Project.besideBroken (Text.encode "class A { }")) = .ok Project.besideFiles := by
    rw [hProject, Project.discoverFiles, Project.discover_besideProject]
    rfl
  obtain ⟨root, hRoot⟩ : ∃ root, Java.parse "class A { }" = some root := ⟨_, rfl⟩
  have hFirst : treeIn? (Project.besideBroken (Text.encode "class A { }"))
      (Path.ofString "p/A.java") = some root :=
    treeIn?_eq_some_iff.mpr ⟨_, by decide +kernel, hRoot⟩
  have hSecond : treeIn? (Project.besideBroken (Text.encode "class A { }"))
      (Path.ofString "p/B.java") = none :=
    treeIn?_eq_none_iff.mpr ⟨.decode (Path.ofString "p/B.java"), by decide +kernel⟩
  have hTrees : treesIn (Project.besideBroken (Text.encode "class A { }")) Project.besideFiles =
      [(Path.ofString "p/A.java", root)] := by
    rw [Project.besideFiles, treesIn_cons_of_some hFirst, treesIn_cons_of_none hSecond]
    rfl
  have hDisplay : (Path.ofString "p/A.java").display = "p/A.java" := by decide +kernel
  obtain ⟨-, ⟨hStdout, hOne, hZero, -⟩, -⟩ :=
    run_check_prints_error_lines hProper hOptions rfl hFound
  simp only [hTrees, List.flatMap_singleton, hDisplay] at hStdout
  exact ⟨hOptions, root, hRoot, hTrees, hStdout, hOne, hZero⟩

end JavaOutline.Command
