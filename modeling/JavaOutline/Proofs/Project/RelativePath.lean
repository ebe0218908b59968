import JavaOutline.Proofs.FileSystem.Reach
import JavaOutline.Proofs.Project.Discover
import JavaOutline.Proofs.Text.Utf8

/-! Paths below the root of a project. What is joined to a root is cut off again without the root,
in whatever way this is written, so a path that a walk meets is never outside. Its text is that of
its names with slashes in between, and there is none only if a name is no text. -/
namespace JavaOutline

namespace Path

/-- Joining texts and joining their bytes come to the same. -/
theorem encode_intercalate_slash (texts : List String) :
    Text.encode ("/".intercalate texts) = [slash].intercalate (texts.map Text.encode) := by
  induction texts with
  | nil => rfl
  | cons text texts ih =>
      cases texts with
      | nil => simp
      | cons next texts =>
          rw [List.map_cons] at ih
          rw [String.intercalate_cons_cons, Text.encode_append, Text.encode_append, ih,
            encode_slash, List.map_cons, List.map_cons, List.intercalate_cons_cons]

/-- If names with slashes in between are a text, each of them is one, since no character but a slash
has the byte of a slash in it. -/
theorem exists_texts_of_encode {names : List Name} {s : String}
    (h : [slash].intercalate names = Text.encode s) :
    ∃ texts : List String, names = texts.map Text.encode ∧ s = "/".intercalate texts := by
  induction names generalizing s with
  | nil =>
      have hRead := Text.decode?_encode s
      rw [← h] at hRead
      exact ⟨[], rfl, (Option.some.inj hRead).symm⟩
  | cons name names ih =>
      cases names with
      | nil => exact ⟨[s], by simpa using h, by simp⟩
      | cons next names =>
          rw [List.intercalate_cons_cons, List.append_assoc, List.singleton_append] at h
          obtain ⟨first, rest, hChars, hFirst, hRest⟩ :=
            Text.exists_split_of_ascii (b := slash) (by decide) h.symm
          have hBelow : [slash].intercalate (next :: names) = Text.encode (String.ofList rest) := by
            rw [Text.encode, String.toList_ofList, hRest]
          obtain ⟨texts, hNames, hText⟩ := ih hBelow
          have hNonempty : texts ≠ [] := by
            rintro rfl
            cases hNames
          refine ⟨String.ofList first :: texts, ?_, ?_⟩
          · rw [List.map_cons, ← hNames, Text.encode, String.toList_ofList, hFirst]
          · have hSlash : Char.ofNat slash.toNat = '/' := rfl
            rw [String.intercalate_cons_of_ne_nil hNonempty, ← hText, ← String.toList_inj, hChars,
              hSlash]
            simp

/-- Below a root, the text of a path that names were joined to is that of the names. -/
theorem relativeTo_descend_eq_ok_iff (root : Path) {names : List Name} (hNonempty : names ≠ [])
    (h : ∀ name ∈ names, IsFileName name) {relative : String} :
    (root.descend names).relativeTo root = .ok relative ↔
      ∃ texts : List String, names = texts.map Text.encode ∧
        relative = "/".intercalate texts := by
  rw [relativeTo_descend root hNonempty h]
  constructor
  · intro hOk
    cases hText : Text.decode? ([slash].intercalate names) with
    | none => simp [hText] at hOk
    | some s =>
        simp only [hText, Except.ok.injEq] at hOk
        subst hOk
        exact exists_texts_of_encode (Text.decode?_eq_some_iff.mp hText)
  · intro hTexts
    obtain ⟨texts, rfl, rfl⟩ := hTexts
    rw [← encode_intercalate_slash, Text.decode?_encode]

/-- Names that are texts are given by these. -/
theorem exists_texts_of_forall {names : List Name}
    (h : ∀ name ∈ names, (Text.decode? name).isSome = true) :
    ∃ texts : List String, names = texts.map Text.encode := by
  induction names with
  | nil => exact ⟨[], rfl⟩
  | cons name names ih =>
      obtain ⟨hName, hRest⟩ := List.forall_mem_cons.mp h
      obtain ⟨text, hText⟩ := Option.isSome_iff_exists.mp hName
      obtain ⟨texts, rfl⟩ := ih hRest
      exact ⟨text :: texts, by rw [List.map_cons, Text.decode?_eq_some_iff.mp hText]⟩

/-- Below a root, a path that names were joined to has no text only if a name is none. -/
theorem exists_of_relativeTo_descend_eq_error {root : Path} {names : List Name}
    (hNonempty : names ≠ []) (h : ∀ name ∈ names, IsFileName name) {e : RelativeError}
    (hError : (root.descend names).relativeTo root = .error e) :
    e = .notText ∧ ∃ name ∈ names, Text.decode? name = none := by
  constructor
  · rw [relativeTo_descend root hNonempty h] at hError
    cases hText : Text.decode? ([slash].intercalate names) with
    | none => simpa [hText, eq_comm] using hError
    | some s => simp [hText] at hError
  · by_contra hAll
    push Not at hAll
    obtain ⟨texts, hTexts⟩ := exists_texts_of_forall fun name hName =>
      Option.isSome_iff_ne_none.mpr (hAll name hName)
    have hOk := (relativeTo_descend_eq_ok_iff root hNonempty h).mpr ⟨texts, hTexts, rfl⟩
    rw [hError] at hOk
    cases hOk

end Path

namespace Project

open JavaOutline.Path

/-- A file is left out if the text of its path below the root is. -/
theorem isExcluded_iff (p : Project) (set : ExclusionSet) (path : Path) :
    p.isExcluded set path = true ↔
      ∃ relative, path.relativeTo p.root = .ok relative ∧ set.excludes relative = true := by
  rw [isExcluded]
  cases path.relativeTo p.root with
  | error e => simp
  | ok relative => simp

/-- What to leave out is decided by the names below the root, if these are texts. -/
theorem isExcluded_descend (p : Project) (set : ExclusionSet) {names : List Name}
    (hNonempty : names ≠ []) (h : ∀ name ∈ names, IsFileName name) :
    p.isExcluded set (p.root.descend names) = true ↔
      ∃ texts : List String, names = texts.map Text.encode ∧
        set.excludes ("/".intercalate texts) = true := by
  rw [isExcluded_iff]
  constructor
  · intro hExcluded
    obtain ⟨relative, hRelative, hSet⟩ := hExcluded
    obtain ⟨texts, hNames, rfl⟩ :=
      (relativeTo_descend_eq_ok_iff p.root hNonempty h).mp hRelative
    exact ⟨texts, hNames, hSet⟩
  · intro hTexts
    obtain ⟨texts, hNames, hSet⟩ := hTexts
    exact ⟨_, (relativeTo_descend_eq_ok_iff p.root hNonempty h).mpr ⟨texts, hNames, rfl⟩, hSet⟩

/-- However a root is written, the path that file names are joined to has below the root the text of
these names with slashes in between, if each of them is a text, and an error only if one is none.
Every path that a walk meets comes from its root in this way. So it is never outside, and what to
leave out is matched against exactly its names with slashes in between. -/
theorem relativeTo_root_of_joined :
    (∀ (root : Path) (names : List (List UInt8)), names ≠ [] →
      (∀ name ∈ names, IsFileName name) →
        (∀ texts : List String, names = texts.map Text.encode →
          (root.descend names).relativeTo root = .ok ("/".intercalate texts)) ∧
        ∀ e, (root.descend names).relativeTo root = .error e →
          e = .notText ∧ ∃ name ∈ names, Text.decode? name = none) ∧
      ∀ (fs : FileSystem) (p : Project) (path : Path), fs.Proper → .file path ∈ fs.walk p.root →
        ∃ names : List (List UInt8), names ≠ [] ∧ (∀ name ∈ names, IsFileName name) ∧
          path = p.root.descend names ∧
          (∀ outer inner, path.relativeTo p.root ≠ .error (.outside outer inner)) ∧
          ∀ set : ExclusionSet, p.isExcluded set path = true ↔
            ∃ texts : List String, names = texts.map Text.encode ∧
              set.excludes ("/".intercalate texts) = true := by
  constructor
  · intro root names hNonempty hNames
    constructor
    · intro texts hTexts
      exact (relativeTo_descend_eq_ok_iff root hNonempty hNames).mpr ⟨texts, hTexts, rfl⟩
    · intro e hError
      exact exists_of_relativeTo_descend_eq_error hNonempty hNames hError
  · intro fs p path hfs hMet
    obtain ⟨names, rfl, hReaches⟩ := (FileSystem.file_mem_walk_iff hfs).mp hMet
    obtain ⟨hNonempty, hEntries⟩ := hReaches.names hfs
    have hNames : ∀ name ∈ names, IsFileName name := fun name hName =>
      isFileName_of_isEntryName (hEntries name hName)
    refine ⟨names, hNonempty, hNames, rfl, ?_, ?_⟩
    · intro outer inner hOutside
      obtain ⟨hOther, -⟩ := exists_of_relativeTo_descend_eq_error hNonempty hNames hOutside
      cases hOther
    · intro set
      exact isExcluded_descend p set hNonempty hNames

example : ((Path.ofString "./a/..//b/.").descend [Text.encode "c", Text.encode "D.java"]).relativeTo
    (Path.ofString "./a/..//b/.") = .ok "c/D.java" := by decide +kernel

end Project

end JavaOutline
