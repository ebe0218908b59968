import Mathlib
import JavaOutline.Proofs.FileSystem.Shape
import JavaOutline.Proofs.Outline.Naming
import JavaOutline.Proofs.Project.Discover
import JavaOutline.Proofs.Project.Extract
import JavaOutline.Proofs.Symbol.Grouping

/-! Files are extracted each by itself. How the extraction of a file ends depends on its path and
its bytes only, a project is the list of these ends, and so a file that is broken changes its own
place in the list and no other. -/
namespace JavaOutline.Project

/-- How the extraction of a file ends: with its symbols, or with the entry that says why it is
skipped. -/
inductive Outcome (fs : FileSystem) (path : Path) : List Symbol → Option Skipped → Prop
  | extracted {name text : String} {bytes : List UInt8} {symbols : List Symbol}
      (hName : path.text? = some name) (hRead : fs.read path = .ok bytes)
      (hText : Text.decode? bytes = some text) (hSymbols : outline name text = .ok symbols) :
      Outcome fs path symbols none
  | pathNotText (hName : path.text? = none) :
      Outcome fs path [] (some ⟨path, .pathNotText path⟩)
  | unreadable {name : String} {fault : FileFault} (hName : path.text? = some name)
      (hRead : fs.read path = .error fault) :
      Outcome fs path [] (some ⟨path, .read path fault⟩)
  | undecodable {name : String} {bytes : List UInt8} (hName : path.text? = some name)
      (hRead : fs.read path = .ok bytes) (hText : Text.decode? bytes = none) :
      Outcome fs path [] (some ⟨path, .decode path⟩)

/-- What a file adds to its project. -/
def resultOf (fs : FileSystem) (path : Path) : List Symbol × Option Skipped :=
  (symbolsIn fs path, skippedIn? fs path)

theorem resultOf_ok {fs : FileSystem} {path : Path} {symbols : List Symbol}
    (h : extractFile fs path = .ok symbols) : resultOf fs path = (symbols, none) := by
  rw [resultOf, symbolsIn, skippedIn?, h]

theorem resultOf_error {fs : FileSystem} {path : Path} {e : Error}
    (h : extractFile fs path = .error e) : resultOf fs path = ([], some ⟨path, e⟩) := by
  rw [resultOf, symbolsIn, skippedIn?, h]

/-- What a file adds is what its outcome says. -/
theorem outcome_resultOf (fs : FileSystem) (path : Path) :
    Outcome fs path (resultOf fs path).1 (resultOf fs path).2 := by
  cases hName : path.text? with
  | none =>
      rw [resultOf_error (show extractFile fs path = .error (.pathNotText path) by
        rw [extractFile, hName])]
      exact .pathNotText hName
  | some name =>
      cases hRead : fs.read path with
      | error fault =>
          rw [resultOf_error (show extractFile fs path = .error (.read path fault) by
            simp only [extractFile, hName, readText, hRead])]
          exact .unreadable hName hRead
      | ok bytes =>
          cases hText : Text.decode? bytes with
          | none =>
              rw [resultOf_error (show extractFile fs path = .error (.decode path) by
                simp only [extractFile, hName, readText, hRead, hText])]
              exact .undecodable hName hRead hText
          | some text =>
              obtain ⟨root, hSymbols⟩ := exists_outline name text
              rw [resultOf_ok (show extractFile fs path = .ok (symbolsOf name text root) by
                simp only [extractFile, hName, readText, hRead, hText, hSymbols])]
              exact .extracted hName hRead hText hSymbols

/-- Only the bytes of a file matter for what it adds. -/
theorem resultOf_congr {fs other : FileSystem} {path : Path} (h : other.read path = fs.read path) :
    resultOf other path = resultOf fs path := by
  have hFile : extractFile other path = extractFile fs path := by
    rw [extractFile, extractFile, readText, readText, h]
  rw [resultOf, resultOf, symbolsIn, symbolsIn, skippedIn?, skippedIn?, hFile]

/-- A project is extracted file by file. -/
theorem extract_eq_results {fs : FileSystem} {p : Project} {files : List Path}
    {faults : List Skipped} (h : p.discover fs = .ok (files, faults)) :
    p.extract fs = .ok ⟨⟨(files.map (resultOf fs)).flatMap Prod.fst⟩,
      faults ++ (files.map (resultOf fs)).filterMap Prod.snd⟩ := by
  rw [extract_eq_ok h, List.flatMap_map, List.filterMap_map]
  rfl

/-- The symbols of a file name it. -/
theorem filePath_of_mem_symbolsIn {fs : FileSystem} {path : Path} {s : Symbol}
    (h : s ∈ symbolsIn fs path) : path.text? = some s.filePath := by
  cases hFile : extractFile fs path with
  | error e => simp [symbolsIn, hFile] at h
  | ok symbols =>
      obtain ⟨name, text, root, hName, -, rfl⟩ := extractFile_eq_ok hFile
      rw [symbolsIn, hFile] at h
      rw [hName, filePath_of_mem_symbolsOf h]

/-- A file keeps all its symbols under its own path, and no others are there. -/
theorem filter_symbolsIn (fs : FileSystem) {path q : Path} {name : String}
    (hName : path.text? = some name) :
    ((symbolsIn fs q).filter fun s => s.filePath == name) =
      if q = path then symbolsIn fs q else [] := by
  split_ifs with hEq
  · subst hEq
    refine List.filter_eq_self.mpr fun s hs => ?_
    have hOwn := filePath_of_mem_symbolsIn hs
    rw [hName, Option.some.injEq] at hOwn
    exact beq_iff_eq.mpr hOwn.symm
  · refine List.filter_eq_nil_iff.mpr fun s hs hSame => hEq ?_
    rw [beq_iff_eq] at hSame
    exact eq_of_text? (filePath_of_mem_symbolsIn hs) (hSame ▸ hName)

/-- The symbols under the path of a file are those that the file adds. -/
theorem inFile_results {fs : FileSystem} {files : List Path} {path : Path} {name : String}
    (hNodup : files.Nodup) (hMem : path ∈ files) (hName : path.text? = some name) :
    Store.inFile ⟨(files.map (resultOf fs)).flatMap Prod.fst⟩ name = symbolsIn fs path := by
  have hEach : (fun q => (symbolsIn fs q).filter fun s => s.filePath == name) =
      fun q => if q = path then symbolsIn fs q else [] :=
    funext fun q => filter_symbolsIn fs hName
  calc Store.inFile ⟨(files.map (resultOf fs)).flatMap Prod.fst⟩ name
      = (files.flatMap (symbolsIn fs)).filter fun s => s.filePath == name := by
        rw [Store.inFile, List.flatMap_map]
        rfl
    _ = files.flatMap fun q => if q = path then symbolsIn fs q else [] := by
        rw [List.filter_flatMap, hEach]
    _ = symbolsIn fs path := by rw [flatMap_single hNodup, if_pos hMem]

/-- File systems of one shape have the same files in a project that ignores the same. -/
theorem discover_of_sameShape {fs other : FileSystem} {p : Project} (h : fs.SameShape other)
    (hIgnore : p.config.useIgnoreFile = true →
      other.read (p.root.join (Text.encode ignoreFileName)) =
        fs.read (p.root.join (Text.encode ignoreFileName))) :
    p.discover other = p.discover fs := by
  have hExclusions : p.exclusions other = p.exclusions fs := by
    unfold exclusions
    split_ifs with hUse
    · simp only [loadIgnoreFile, h.congr (f := fun x => x.isFile _) fun x => x.isFile_emptied _,
        hIgnore hUse]
    · rfl
  simp only [discover, h.congr (f := fun x => x.fileExists _) fun x => x.fileExists_emptied _,
    h.isDirectory, hExclusions, h.walk]

/-- If only one file reads differently, only its own place in the results changes. -/
theorem map_resultOf_set {fs other : FileSystem} {files : List Path} {i : Nat} {path : Path}
    (hNodup : files.Nodup) (hPath : files[i]? = some path)
    (hOthers : ∀ q ∈ files, q ≠ path → other.read q = fs.read q) :
    files.map (resultOf other) = (files.map (resultOf fs)).set i (resultOf other path) := by
  refine List.ext_getElem? fun j => ?_
  obtain ⟨hi, -⟩ := List.getElem?_eq_some_iff.mp hPath
  by_cases hj : j = i
  · subst hj
    rw [List.getElem?_set_self (by simpa using hi), List.getElem?_map, hPath]
    rfl
  · rw [List.getElem?_set_ne (Ne.symm hj), List.getElem?_map, List.getElem?_map]
    cases hq : files[j]? with
    | none => rfl
    | some q =>
        have hne : q ≠ path := by
          rintro rfl
          obtain ⟨hLess, -⟩ := List.getElem?_eq_some_iff.mp hq
          exact hj ((List.getElem?_inj hLess hNodup).mp (hq.trans hPath.symm))
        have hResult := resultOf_congr (hOthers q (List.mem_of_getElem? hq) hne)
        rw [Option.map_some, Option.map_some, hResult]

/-- Once its files are found, the extraction of a project is the list of the outcomes of its files:
their symbols one after another, and after what the walk could not visit one entry for each file
that had to be skipped. Under the path of a file stand its own symbols. Where another file system
differs only in what is read from one of the files, the result differs only in the outcome of that
file. -/
theorem extract_eq_outcomes {fs : FileSystem} (hfs : fs.Proper) {p : Project} {files : List Path}
    {faults : List Skipped} (hFound : p.discover fs = .ok (files, faults)) :
    ∃ results : List (List Symbol × Option Skipped),
      List.Forall₂ (fun path r => Outcome fs path r.1 r.2) files results ∧
      p.extract fs =
        .ok ⟨⟨results.flatMap Prod.fst⟩, faults ++ results.filterMap Prod.snd⟩ ∧
      (∀ (i : Nat) (path : Path) (name : String) (r : List Symbol × Option Skipped),
        files[i]? = some path → path.text? = some name → results[i]? = some r →
        Store.inFile ⟨results.flatMap Prod.fst⟩ name = r.1) ∧
      ∀ (i : Nat) (path : Path) (other : FileSystem), files[i]? = some path →
        fs.SameShape other →
        (p.config.useIgnoreFile = true →
          other.read (p.root.join (Text.encode ignoreFileName)) =
            fs.read (p.root.join (Text.encode ignoreFileName))) →
        (∀ q ∈ files, q ≠ path → other.read q = fs.read q) →
        p.discover other = .ok (files, faults) ∧
        ∃ r : List Symbol × Option Skipped, Outcome other path r.1 r.2 ∧
          p.extract other = .ok ⟨⟨(results.set i r).flatMap Prod.fst⟩,
            faults ++ (results.set i r).filterMap Prod.snd⟩ := by
  have hNodup := nodup_of_discover hfs hFound
  refine ⟨files.map (resultOf fs), ?_, extract_eq_results hFound, ?_, ?_⟩
  · rw [List.forall₂_map_right_iff, List.forall₂_same]
    exact fun path _ => outcome_resultOf fs path
  · intro i path name r hPath hName hr
    rw [List.getElem?_map, hPath, Option.map_some, Option.some.injEq] at hr
    subst hr
    exact inFile_results hNodup (List.mem_of_getElem? hPath) hName
  · intro i path other hPath hShape hIgnore hOthers
    have hOther : p.discover other = .ok (files, faults) :=
      (discover_of_sameShape hShape hIgnore).trans hFound
    refine ⟨hOther, resultOf other path, outcome_resultOf other path, ?_⟩
    rw [← map_resultOf_set hNodup hPath hOthers]
    exact extract_eq_results hOther

/-- A directory with a file of the given bytes beside one that is no text. -/
def besideBroken (bytes : List UInt8) : FileSystem :=
  { root := .directory [(Text.encode "p", .directory
      [(Text.encode "B.java", .file [0xFF, 0xFE]), (Text.encode "A.java", .file bytes)])]
    current := [] }

def besideProject : Project := ⟨Path.ofString "p", ProjectConfig.standard⟩

def besideFiles : List Path := [Path.ofString "p/A.java", Path.ofString "p/B.java"]

theorem discover_besideProject :
    besideProject.discover (besideBroken (Text.encode "class A { }")) = .ok (besideFiles, []) := by
  have hDirectory :
      (besideBroken (Text.encode "class A { }")).isDirectory besideProject.root = true := by
    decide +kernel
  have hSet : besideProject.exclusions (besideBroken (Text.encode "class A { }")) =
      .ok ⟨[.anySequence :: "_commented.java".toList.map .literal]⟩ := by decide +kernel
  have hWalk : (besideBroken (Text.encode "class A { }")).walk besideProject.root =
      besideFiles.map .file := by cbv
  rw [discover_eq hDirectory hSet, hWalk]
  decide +kernel

theorem extract_eq_outcomes_besideProject :
    (besideBroken (Text.encode "class A { }")).Proper ∧
      besideProject.discover (besideBroken (Text.encode "class A { }")) = .ok (besideFiles, []) ∧
      ∃ results : List (List Symbol × Option Skipped),
        besideProject.extract (besideBroken (Text.encode "class A { }")) =
          .ok ⟨⟨results.flatMap Prod.fst⟩, results.filterMap Prod.snd⟩ ∧
        ∃ r : List Symbol × Option Skipped,
          Outcome (besideBroken [0x80]) (Path.ofString "p/A.java") r.1 r.2 ∧
          besideProject.extract (besideBroken [0x80]) =
            .ok ⟨⟨(results.set 0 r).flatMap Prod.fst⟩, (results.set 0 r).filterMap Prod.snd⟩ := by
  have hProper : (besideBroken (Text.encode "class A { }")).Proper := by decide +kernel
  obtain ⟨results, -, hExtract, -, hIsolated⟩ :=
    extract_eq_outcomes hProper discover_besideProject
  have hOthers : ∀ q ∈ besideFiles, q ≠ Path.ofString "p/A.java" →
      (besideBroken [0x80]).read q = (besideBroken (Text.encode "class A { }")).read q := by
    decide +kernel
  obtain ⟨-, r, hOutcome, hBroken⟩ := hIsolated 0 (Path.ofString "p/A.java") (besideBroken [0x80])
    rfl rfl (fun _ => by decide +kernel) hOthers
  exact ⟨hProper, discover_besideProject, results, hExtract, r, hOutcome, hBroken⟩

end JavaOutline.Project
