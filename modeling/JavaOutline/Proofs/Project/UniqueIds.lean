import Mathlib
import JavaOutline.Proofs.Outline.Naming
import JavaOutline.Proofs.Project.Discover
import JavaOutline.Proofs.Project.Extract
import JavaOutline.Proofs.Symbol.Store

/-! Ids tell the symbols of a project apart. Within a file the label differs, and between files the
path does: the last two colons of an id are those after the path, whatever the path contains. -/
namespace JavaOutline.Project

/-- What a file adds to its project, unless it is skipped, are the symbols of a tree of its text. -/
theorem symbolsIn_cases (fs : FileSystem) (path : Path) :
    symbolsIn fs path = [] ∨
      ∃ name text root, path.text? = some name ∧ fs.read path = .ok (Text.encode text) ∧
        symbolsIn fs path = symbolsOf name text root := by
  cases hFile : extractFile fs path with
  | error e => exact .inl (by rw [symbolsIn, hFile])
  | ok symbols =>
      obtain ⟨name, text, root, hName, hText, rfl⟩ := extractFile_eq_ok hFile
      refine .inr ⟨name, text, root, hName, ?_, by rw [symbolsIn, hFile]⟩
      unfold readText at hText
      cases hRead : fs.read path with
      | error fault => simp [hRead] at hText
      | ok bytes =>
          cases hBytes : Text.decode? bytes with
          | none => simp [hRead, hBytes] at hText
          | some content =>
              simp only [hRead, hBytes, Except.ok.injEq] at hText
              rw [← hText, Text.encode_of_decode? hBytes]

theorem summary_of_mem_symbolsIn {fs : FileSystem} {path : Path} {s : Symbol}
    (h : s ∈ symbolsIn fs path) : s.summary = none := by
  rcases symbolsIn_cases fs path with hNone | ⟨name, text, root, -, -, hSome⟩
  · simp [hNone] at h
  · rw [hSome] at h
    exact summary_of_mem_symbolsOf h

/-- The ids that a file with plain names adds are those of plain names under its path. -/
theorem map_id_symbolsIn {fs : FileSystem} {path : Path}
    (hPlain : ∀ s ∈ symbolsIn fs path, Id.IsPlain s.name) :
    symbolsIn fs path = [] ∨
      ∃ name names, path.text? = some name ∧ (∀ q ∈ names, Id.IsPlain q) ∧
        (symbolsIn fs path).map Symbol.id = Id.assign name names := by
  rcases symbolsIn_cases fs path with hNone | ⟨name, text, root, hName, -, hSome⟩
  · exact .inl hNone
  · rw [hSome] at hPlain
    refine .inr ⟨name, _, hName, ?_, by rw [hSome]; exact map_id_symbolsOf name text root⟩
    intro q hq
    obtain ⟨s, hs, rfl⟩ := List.mem_map.mp hq
    exact isPlain_qualifiedName hPlain hs

/-- Different files with plain names never share an id. -/
theorem disjoint_ids {fs : FileSystem} {p q : Path} (hpq : p ≠ q)
    (hp : ∀ s ∈ symbolsIn fs p, Id.IsPlain s.name) (hq : ∀ s ∈ symbolsIn fs q, Id.IsPlain s.name) :
    ((symbolsIn fs p).map Symbol.id).Disjoint ((symbolsIn fs q).map Symbol.id) := by
  rcases map_id_symbolsIn hp with hNone | ⟨name, names, hName, hPlain, hIds⟩
  · simp [hNone]
  rcases map_id_symbolsIn hq with hNone | ⟨other, others, hOther, hPlainOther, hIdsOther⟩
  · simp [hNone]
  rw [hIds, hIdsOther]
  refine Id.disjoint_assign ?_ hPlain hPlainOther
  rintro rfl
  exact hpq (eq_of_text? hName hOther)

/-- If no file occurs twice and all names are plain, no id occurs twice. -/
theorem nodup_ids {fs : FileSystem} {files : List Path} (hFiles : files.Nodup)
    (hPlain : ∀ s ∈ files.flatMap (symbolsIn fs), Id.IsPlain s.name) :
    ((files.flatMap (symbolsIn fs)).map Symbol.id).Nodup := by
  have hFile (path : Path) (hPath : path ∈ files) :
      ∀ s ∈ symbolsIn fs path, Id.IsPlain s.name :=
    fun s hs => hPlain s (List.mem_flatMap.mpr ⟨path, hPath, hs⟩)
  rw [List.map_flatMap, List.nodup_flatMap]
  refine ⟨fun path hPath => ?_, hFiles.imp_of_mem fun {p q} hp hq hne => ?_⟩
  · rcases map_id_symbolsIn (hFile path hPath) with hNone | ⟨name, names, -, hNames, hIds⟩
    · simp [hNone]
    · rw [hIds]
      exact Id.nodup_assign name hNames
  · exact disjoint_ids hne (hFile p hp) (hFile q hq)

/-- A project of files without the separators of ids has plain names only. -/
theorem isPlain_of_extract {fs : FileSystem} {p : Project} {files : List Path}
    {skipped : List Skipped} {e : Extraction} (hFound : p.discover fs = .ok (files, skipped))
    (hExtract : p.extract fs = .ok e)
    (hBytes : ∀ path ∈ files, ∀ bytes, fs.read path = .ok bytes → 0x23 ∉ bytes ∧ 0x3A ∉ bytes) :
    ∀ s ∈ e.symbols.symbols, Id.IsPlain s.name := by
  rw [extract_eq_ok hFound, Except.ok.injEq] at hExtract
  subst hExtract
  intro s hs
  obtain ⟨path, hPath, hMem⟩ := List.mem_flatMap.mp hs
  rcases symbolsIn_cases fs path with hNone | ⟨name, text, root, -, hRead, hSome⟩
  · simp [hNone] at hMem
  · rw [hSome] at hMem
    obtain ⟨hHash, hColon⟩ := hBytes path hPath _ hRead
    exact isPlain_name_of_bytes hMem hHash hColon

/-- Once its files are found, a project is extracted, and if no name of a class or a method contains
a separator of ids, then all ids of the project are different, whatever the paths of its files
contain. So every symbol is found under its id, and a summary for that id reaches its position and
no other. -/
theorem extract_ids_unique {fs : FileSystem} (hfs : fs.Proper) {p : Project} {files : List Path}
    {skipped : List Skipped} (hFound : p.discover fs = .ok (files, skipped)) :
    ∃ e, p.extract fs = .ok e ∧
      ((∀ s ∈ e.symbols.symbols, '#' ∉ s.name.toList ∧ ':' ∉ s.name.toList) →
        (e.symbols.symbols.map Symbol.id).Nodup ∧
        ∀ (i : Nat) (s : Symbol), e.symbols.symbols[i]? = some s →
          e.symbols.get? s.id = some s ∧
          ∀ text, (e.symbols.attach s.id text).2 = true ∧
            (e.symbols.attach s.id text).1.symbols[i]? = some { s with summary := some text } ∧
            ∀ j, (e.symbols.attach s.id text).1.symbols[j]? ≠ e.symbols.symbols[j]? ↔ j = i) := by
  refine ⟨_, extract_eq_ok hFound, fun hPlain => ?_⟩
  have hNodup := nodup_ids (nodup_of_discover hfs hFound) hPlain
  refine ⟨hNodup, fun i s hs => ⟨Store.get?_id hNodup hs, fun text => ?_⟩⟩
  have hSummary : s.summary = none := by
    obtain ⟨path, -, hMem⟩ := List.mem_flatMap.mp (List.mem_of_getElem? hs)
    exact summary_of_mem_symbolsIn hMem
  obtain ⟨hi, -⟩ := List.getElem?_eq_some_iff.mp hs
  have hAttach := Store.attach_id hNodup hs text
  refine ⟨congrArg Prod.snd hAttach, ?_, Store.attach_id_ne_iff hNodup hs hSummary text⟩
  exact (congrArg (·.1.symbols[i]?) hAttach).trans (List.getElem?_set_self hi)

/-- The bytes of a class with two methods of one name. -/
def overloadedClass : List UInt8 := Text.encode "class A { void f() { } void f(int n) { } }"

/-- A directory with that class twice, where the directory of one copy has a name that looks like
the end of an id and is reached through a link too. -/
def linkedCopies : FileSystem :=
  { root := .directory [(Text.encode "p", .directory
      [(Text.encode "x::A#2", .directory [(Text.encode "B.java", .file overloadedClass)]),
        (Text.encode "A.java", .file overloadedClass),
        (Text.encode "l", .link (Text.encode "x::A#2"))])]
    current := [] }

def linkedProject : Project := ⟨Path.ofString "p", ProjectConfig.standard⟩

/-- Its files: the second copy has two paths. -/
def linkedFiles : List Path :=
  [Path.ofString "p/A.java", Path.ofString "p/l/B.java", Path.ofString "p/x::A#2/B.java"]

theorem discover_linkedProject : linkedProject.discover linkedCopies = .ok (linkedFiles, []) := by
  have hExists : linkedCopies.fileExists linkedProject.root = true := by decide +kernel
  have hDirectory : linkedCopies.isDirectory linkedProject.root = true := by decide +kernel
  have hSet : linkedProject.exclusions linkedCopies =
      .ok ⟨[.anySequence :: "_commented.java".toList.map .literal]⟩ := by decide +kernel
  have hWalk : linkedCopies.walk linkedProject.root = linkedFiles.map .file := by cbv
  rw [discover, hExists, hDirectory, hSet, hWalk]
  decide +kernel

theorem extract_ids_unique_linkedProject :
    linkedCopies.Proper ∧ linkedProject.discover linkedCopies = .ok (linkedFiles, []) ∧
      ∃ e, linkedProject.extract linkedCopies = .ok e ∧
        (∀ s ∈ e.symbols.symbols, '#' ∉ s.name.toList ∧ ':' ∉ s.name.toList) ∧
        (e.symbols.symbols.map Symbol.id).Nodup ∧
        ∀ (i : Nat) (s : Symbol), e.symbols.symbols[i]? = some s →
          e.symbols.get? s.id = some s := by
  have hProper : linkedCopies.Proper := by decide +kernel
  have hRead : ∀ path ∈ linkedFiles, linkedCopies.read path = .ok overloadedClass := by
    decide +kernel
  obtain ⟨e, hExtract, hUnique⟩ := extract_ids_unique hProper discover_linkedProject
  have hPlain := isPlain_of_extract discover_linkedProject hExtract (by
    intro path hPath bytes hBytes
    rw [hRead path hPath, Except.ok.injEq] at hBytes
    subst hBytes
    decide +kernel)
  obtain ⟨hNodup, hEach⟩ := hUnique hPlain
  exact ⟨hProper, discover_linkedProject, e, hExtract, hPlain, hNodup,
    fun i s hs => (hEach i s hs).1⟩

end JavaOutline.Project
