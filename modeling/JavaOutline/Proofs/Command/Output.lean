import JavaOutline.Command.Run
import JavaOutline.Proofs.Project.Isolation
import JavaOutline.Proofs.Project.Refusal
import JavaOutline.Proofs.Symbol.View

/-! What the command prints for a project: the records, and an entry for each skipped file. If the
path of a skipped file is no text, there is no such entry, and nothing is printed at all. -/
namespace JavaOutline.Command

/-- An entry of the output says which file was skipped and why. -/
def Reports (s : Skipped) (entry : Json) : Prop :=
  ∃ path, s.path.text? = some path ∧
    entry = .obj [("path", .str path), ("reason", .str s.reason)]

def outputOf (name : String) (view : View) (entries : List Json) (symbols : Store) : Json :=
  .obj
    [("namespace", .str name), ("format", .str view.name), ("skipped", .arr entries),
      ("records", symbols.toValue view)]

/-- The entry for a skipped file says which one it was and why. -/
theorem skippedJson?_eq_some_iff {s : Skipped} {entry : Json} :
    skippedJson? s = some entry ↔ Reports s entry := by
  rw [skippedJson?, Option.map_eq_some_iff, Reports]
  simp only [eq_comm]

/-- There are entries for all skipped files, or for none of them. -/
theorem mapM_skippedJson?_iff {skipped : List Skipped} {entries : List Json} :
    skipped.mapM skippedJson? = some entries ↔ List.Forall₂ Reports skipped entries := by
  simp only [mapM_eq_some_iff, skippedJson?_eq_some_iff]

/-- All skipped files can be reported if all their paths are texts. -/
theorem exists_reports_iff {skipped : List Skipped} :
    (∃ entries, List.Forall₂ Reports skipped entries) ↔
      ∀ s ∈ skipped, s.path.text?.isSome = true := by
  constructor
  · rintro ⟨entries, h⟩
    induction h with
    | nil => simp
    | cons hFirst _ ih =>
        obtain ⟨path, hPath, -⟩ := hFirst
        exact List.forall_mem_cons.mpr ⟨by rw [hPath]; rfl, ih⟩
  · intro h
    induction skipped with
    | nil => exact ⟨[], .nil⟩
    | cons s skipped ih =>
        obtain ⟨hFirst, hRest⟩ := List.forall_mem_cons.mp h
        obtain ⟨path, hPath⟩ := Option.isSome_iff_exists.mp hFirst
        obtain ⟨entries, hEntries⟩ := ih hRest
        exact ⟨_ :: entries, .cons ⟨path, hPath, rfl⟩ hEntries⟩

/-- The output has a spelling, whatever the names and the symbols are. -/
theorem isPlain_outputOf (name : String) (view : View) (symbols : Store) {skipped : List Skipped}
    {entries : List Json} (h : List.Forall₂ Reports skipped entries) :
    (outputOf name view entries symbols).IsPlain := by
  have hEntries : (Json.arr entries).IsPlain := by
    induction h with
    | nil => simp
    | cons hFirst _ ih =>
        obtain ⟨path, -, rfl⟩ := hFirst
        rw [Json.isPlain_arr_iff] at ih ⊢
        exact List.forall_mem_cons.mpr ⟨by simp, ih⟩
  simpa [outputOf, Store.isPlain_toValue] using hEntries

theorem outputJson_eq_ok (name : String) (view : View) {result : Extraction} {entries : List Json}
    (h : List.Forall₂ Reports result.skipped entries) :
    outputJson name view result = .ok (outputOf name view entries result.symbols) := by
  rw [outputJson, mapM_skippedJson?_iff.mpr h]
  rfl

/-- A skipped file whose path is no text leaves nothing to be printed. -/
theorem outputJson_eq_error (name : String) (view : View) {result : Extraction} {s : Skipped}
    (hSkipped : s ∈ result.skipped) (hPath : s.path.text? = none) :
    outputJson name view result = .error ⟨"path contains invalid UTF-8 characters", []⟩ := by
  rw [outputJson]
  cases hEntries : result.skipped.mapM skippedJson? with
  | none => rfl
  | some entries =>
      have hText := exists_reports_iff.mp ⟨entries, mapM_skippedJson?_iff.mp hEntries⟩ s hSkipped
      simp [hPath] at hText

section Run

variable {fs : FileSystem} {args : List String} {o : Options} {name : String} {result : Extraction}

/-- Once the project is extracted, the outcome depends on the output alone. -/
theorem run_eq (hOptions : Options.ofArguments args = .ok o) (hName : o.namespaceName = some name)
    (hCheck : o.check = false) (hOutput : o.output = none)
    (hResult : o.project.extract fs = .ok result) :
    run fs args = match outputJson name o.format result with
      | .ok v => ⟨0, v.toPretty ++ "\n", none, fs⟩
      | .error failure => ⟨1, "", some failure.report, fs⟩ := by
  have hProject : o.projectNamespace fs = .ok name := by rw [Options.projectNamespace, hName]
  simp only [run, hOptions, runWith, hCheck, runExtract, outputText, hProject, hResult, hOutput]
  cases outputJson name o.format result <;> rfl

/-- Once the project is extracted, the command prints its records in the chosen view and an entry
for each skipped file, unless the path of one of these is no text: then it prints nothing and
fails. -/
theorem run_prints_unless_path_not_text (hOptions : Options.ofArguments args = .ok o)
    (hName : o.namespaceName = some name) (hCheck : o.check = false) (hOutput : o.output = none)
    (hResult : o.project.extract fs = .ok result) :
    ((∀ s ∈ result.skipped, s.path.text?.isSome = true) →
        (run fs args).exitCode = 0 ∧ (run fs args).stderr = none ∧ (run fs args).files = fs ∧
          ∃ entries, List.Forall₂ Reports result.skipped entries ∧
            Json.parse? (run fs args).stdout =
              some (outputOf name o.format entries result.symbols)) ∧
      ((∃ s ∈ result.skipped, s.path.text? = none) →
        run fs args = ⟨1, "", some "Error: path contains invalid UTF-8 characters\n", fs⟩) := by
  have hRun := run_eq hOptions hName hCheck hOutput hResult
  constructor
  · intro hTexts
    obtain ⟨entries, hEntries⟩ := exists_reports_iff.mpr hTexts
    rw [hRun, outputJson_eq_ok name o.format hEntries]
    refine ⟨rfl, rfl, rfl, entries, hEntries, ?_⟩
    exact (Json.parse?_toPretty (isPlain_outputOf name o.format result.symbols hEntries)).2
  · rintro ⟨s, hSkipped, hPath⟩
    rw [hRun, outputJson_eq_error name o.format hSkipped hPath]
    rfl

end Run

/-- Options that name a directory, a namespace and a view, and nothing else. -/
def plainOptions (inputDir name : String) (view : View) : Options :=
  { inputDir
    namespaceName := some name
    format := view
    output := none
    exclude := []
    noIgnoreFile := false
    sequential := false
    check := false
    verbose := false }

theorem run_prints_unless_path_not_text_besideProject :
    Options.ofArguments ["--input-dir", "p", "--namespace", "n", "--format=index"] =
        .ok (plainOptions "p" "n" .index) ∧
      ∃ result, (plainOptions "p" "n" .index).project.extract
          (Project.besideBroken (Text.encode "class A { }")) = .ok result ∧
        ⟨Path.ofString "p/B.java", .decode (Path.ofString "p/B.java")⟩ ∈ result.skipped ∧
        ∃ entries, List.Forall₂ Reports result.skipped entries ∧
          Json.parse? (run (Project.besideBroken (Text.encode "class A { }"))
              ["--input-dir", "p", "--namespace", "n", "--format=index"]).stdout =
            some (outputOf "n" .index entries result.symbols) := by
  have hOptions : Options.ofArguments ["--input-dir", "p", "--namespace", "n", "--format=index"] =
      .ok (plainOptions "p" "n" .index) := by decide +kernel
  have hProject : (plainOptions "p" "n" .index).project = Project.besideProject := by
    decide +kernel
  have hResult := Project.extract_eq_ok Project.discover_besideProject
  have hBroken : Project.extractFile (Project.besideBroken (Text.encode "class A { }"))
      (Path.ofString "p/B.java") = .error (.decode (Path.ofString "p/B.java")) := by
    have hName : (Path.ofString "p/B.java").text? = some "p/B.java" := by decide +kernel
    have hText : readText (Project.besideBroken (Text.encode "class A { }"))
        (Path.ofString "p/B.java") = .error (.decode (Path.ofString "p/B.java")) := by
      decide +kernel
    rw [Project.extractFile, hName]
    dsimp only
    rw [hText]
  have hSkipped := (Project.mem_skipped_iff Project.discover_besideProject hResult).mpr
    (.inr ⟨_, by simp [Project.besideFiles], _, hBroken, rfl⟩)
  rw [← hProject] at hResult
  refine ⟨hOptions, _, hResult, hSkipped, ?_⟩
  refine ((run_prints_unless_path_not_text hOptions rfl rfl rfl hResult).1 ?_).2.2.2
  intro s hs
  obtain ⟨path, hPath, hReason⟩ := List.mem_filterMap.mp hs
  obtain ⟨e, -, rfl⟩ := Project.skippedIn?_eq_some_iff.mp hReason
  have hTexts : ∀ path ∈ Project.besideFiles, path.text?.isSome = true := by decide +kernel
  exact hTexts path hPath

/-- A directory with a file whose name is no text. -/
def unprintable : FileSystem :=
  { root := .directory [(Text.encode "proj", .directory
      [(Text.encode "A.java", .file (Text.encode "class A {}")),
        (Text.encode "Bad" ++ 0xFF :: Text.encode ".java", .file (Text.encode "class Bad {}"))])]
    current := [] }

def unprintablePath : Path := ⟨Text.encode "proj/Bad" ++ 0xFF :: Text.encode ".java"⟩

theorem discover_unprintable :
    (plainOptions "proj" "n" .classes).project.discover unprintable =
      .ok ([Path.ofString "proj/A.java", unprintablePath], []) := by
  have hDirectory :
      unprintable.isDirectory (plainOptions "proj" "n" .classes).project.root = true := by
    decide +kernel
  have hSet : (plainOptions "proj" "n" .classes).project.exclusions unprintable =
      .ok ⟨[.anySequence :: "_commented.java".toList.map .literal]⟩ := by decide +kernel
  have hWalk : unprintable.walk (plainOptions "proj" "n" .classes).project.root =
      [.file (Path.ofString "proj/A.java"), .file unprintablePath] := by cbv
  rw [Project.discover_eq hDirectory hSet, hWalk]
  decide +kernel

/-- The project of that directory is extracted, and yet the command prints nothing and fails. -/
theorem run_unprintable :
    ∃ result, (plainOptions "proj" "n" .classes).project.extract unprintable = .ok result ∧
      run unprintable ["--input-dir", "proj", "--namespace", "n", "--format", "classes"] =
        ⟨1, "", some "Error: path contains invalid UTF-8 characters\n", unprintable⟩ := by
  have hResult := Project.extract_eq_ok discover_unprintable
  have hName : unprintablePath.text? = none := by decide +kernel
  have hError : Project.extractFile unprintable unprintablePath =
      .error (.pathNotText unprintablePath) := by rw [Project.extractFile, hName]
  have hSkipped := (Project.mem_skipped_iff discover_unprintable hResult).mpr
    (.inr ⟨_, by simp, _, hError, rfl⟩)
  refine ⟨_, hResult, ?_⟩
  rw [run_eq (by decide +kernel) rfl rfl rfl hResult, outputJson_eq_error _ _ hSkipped hName]
  rfl

end JavaOutline.Command
