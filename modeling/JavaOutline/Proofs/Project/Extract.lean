import JavaOutline.Project.Extract
import JavaOutline.Proofs.Text.Utf8

/-! What the extraction of a project collects. No file ends it, so once the files are known it is
the symbols of one file after another, and beside them one entry for each file that had to be
skipped. -/
namespace JavaOutline

/-- Reading a text always gives the symbols of a tree. -/
theorem exists_outline (path text : String) :
    ∃ root, outline path text = .ok (symbolsOf path text root) := ⟨_, rfl⟩

namespace Project

/-- Paths with the same text are the same. -/
theorem eq_of_text? {p q : Path} {name : String} (hp : p.text? = some name)
    (hq : q.text? = some name) : p = q := by
  cases p
  cases q
  exact congrArg Path.mk (Text.decode?_injective hp hq)

/-- The symbols that a file adds to its project; none if it is skipped. -/
def symbolsIn (fs : FileSystem) (path : Path) : List Symbol :=
  match extractFile fs path with
  | .ok symbols => symbols
  | .error _ => []

def skippedIn? (fs : FileSystem) (path : Path) : Option Skipped :=
  match extractFile fs path with
  | .ok _ => none
  | .error e => some ⟨path, e⟩

/-- The symbols of a file come from a tree of its text, under the text of its path. -/
theorem extractFile_eq_ok {fs : FileSystem} {path : Path} {symbols : List Symbol}
    (h : extractFile fs path = .ok symbols) :
    ∃ name text root, path.text? = some name ∧ readText fs path = .ok text ∧
      symbols = symbolsOf name text root := by
  unfold extractFile at h
  cases hName : path.text? with
  | none => simp [hName] at h
  | some name =>
      cases hText : readText fs path with
      | error e => simp [hName, hText] at h
      | ok text =>
          simp only [hName, hText] at h
          obtain ⟨root, hTree⟩ := exists_outline name text
          rw [hTree, Except.ok.injEq] at h
          exact ⟨name, text, root, rfl, rfl, h.symm⟩

theorem isFatal_of_readText {fs : FileSystem} {path : Path} {e : Error}
    (h : readText fs path = .error e) : e.isFatal = false := by
  unfold readText at h
  cases hRead : fs.read path with
  | error fault =>
      simp only [hRead, Except.error.injEq] at h
      exact h ▸ rfl
  | ok bytes =>
      cases hBytes : Text.decode? bytes with
      | none =>
          simp only [hRead, hBytes, Except.error.injEq] at h
          exact h ▸ rfl
      | some text => simp [hRead, hBytes] at h

/-- A file that cannot be used is only skipped. -/
theorem isFatal_of_extractFile {fs : FileSystem} {path : Path} {e : Error}
    (h : extractFile fs path = .error e) : e.isFatal = false := by
  unfold extractFile at h
  cases hName : path.text? with
  | none =>
      simp only [hName, Except.error.injEq] at h
      exact h ▸ rfl
  | some name =>
      cases hText : readText fs path with
      | error fault =>
          simp only [hName, hText, Except.error.injEq] at h
          exact h ▸ isFatal_of_readText hText
      | ok text =>
          simp only [hName, hText] at h
          obtain ⟨root, hTree⟩ := exists_outline name text
          simp [hTree] at h

/-- Collecting goes through all files and keeps what each adds. -/
theorem collect_extractFile (fs : FileSystem) (files : List Path) (acc : Extraction) :
    collect (files.map fun path => (path, extractFile fs path)) acc =
      .ok ⟨⟨acc.symbols.symbols ++ files.flatMap (symbolsIn fs)⟩,
        acc.skipped ++ files.filterMap (skippedIn? fs)⟩ := by
  induction files generalizing acc with
  | nil => simp [collect]
  | cons path files ih =>
      rw [List.map_cons, List.flatMap_cons]
      cases hFile : extractFile fs path with
      | ok symbols =>
          have hSkipped : skippedIn? fs path = none := by rw [skippedIn?, hFile]
          rw [collect, ih, List.filterMap_cons_none hSkipped, symbolsIn, hFile]
          simp [Store.extend]
      | error e =>
          have hSkipped : skippedIn? fs path = some ⟨path, e⟩ := by rw [skippedIn?, hFile]
          have hFatal := isFatal_of_extractFile hFile
          rw [collect, if_neg (by simp [hFatal]), ih, List.filterMap_cons_some hSkipped, symbolsIn,
            hFile]
          simp

/-- Once its files are known, the extraction of a project succeeds. -/
theorem extract_eq_ok {fs : FileSystem} {p : Project} {files : List Path} {skipped : List Skipped}
    (h : p.discover fs = .ok (files, skipped)) :
    p.extract fs = .ok ⟨⟨files.flatMap (symbolsIn fs)⟩,
      skipped ++ files.filterMap (skippedIn? fs)⟩ := by
  rw [extract, h]
  exact collect_extractFile fs files ⟨Store.empty, skipped⟩

end Project

end JavaOutline
