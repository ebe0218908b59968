import JavaOutline.Proofs.Exclusion.Glob
import JavaOutline.Proofs.Path.Copy
import JavaOutline.Proofs.Project.Files

/-! The documented copies of the files of a project, as trails from its root. A copy stands beside
its file, different files have different copies, and the pattern for copies leaves out each of them
at any depth. -/
namespace JavaOutline.Project

open JavaOutline.Path

def copyEnding : String := commentedSuffix ++ "." ++ Language.java.extension

def copyName (name : Name) : Name := (splitName name).1 ++ Text.encode copyEnding

/-- The trail to the documented copy of the file that a trail leads to. -/
def copyTrail (trail : List Name) : List Name :=
  trail.dropLast ++ (trail.getLast?.map copyName).toList

/-- A trail of texts to a program. -/
inductive IsSource : List Name → Prop
  | intro {before : List Name} {name : Name} {stem : String}
      (hNames : ∀ n ∈ before ++ [name], isEntryName n = true)
      (hTexts : ∀ n ∈ before, (Text.decode? n).isSome = true)
      (hSplit : splitName name = (Text.encode stem, some (Text.encode Language.java.extension))) :
      IsSource (before ++ [name])

/-- Only the last name of a trail becomes that of a copy. -/
theorem copyTrail_concat (before : List Name) (name : Name) :
    copyTrail (before ++ [name]) = before ++ [copyName name] := by
  simp [copyTrail]

/-- The name of a copy is the stem of the file with a new ending. -/
theorem copyName_eq {name : Name} {stem : String} {extension : Option (List UInt8)}
    (h : splitName name = (Text.encode stem, extension)) :
    copyName name = Text.encode (stem ++ copyEnding) := by
  rw [copyName, h, Text.encode_append]

/-- A file with an extension has a copy whose name can be one. -/
theorem isEntryName_copyName {name : Name} {extension : List UInt8}
    (hName : isEntryName name = true) (h : (splitName name).2 = some extension) :
    isEntryName (copyName name) = true := by
  obtain ⟨-, hSlash, hNul, -⟩ := isEntryName_iff.mp hName
  have hStem : ∀ b ∈ (splitName name).1, b ∈ name := by
    intro b hb
    rw [eq_of_splitName (Prod.ext rfl h)]
    exact List.mem_append_left _ hb
  have hLength : 15 ≤ (copyName name).length := by
    rw [copyName, List.length_append]
    exact Nat.le_add_left _ _
  refine isEntryName_iff.mpr ⟨?_, ?_, ?_, ?_, ?_⟩
  · rintro hEq
    simp [hEq] at hLength
  · intro hMem
    rcases List.mem_append.mp hMem with hMem | hMem
    · exact hSlash (hStem _ hMem)
    · revert hMem
      decide
  · intro hMem
    rcases List.mem_append.mp hMem with hMem | hMem
    · exact hNul (hStem _ hMem)
    · revert hMem
      decide
  · rintro hEq
    simp [hEq] at hLength
  · rintro hEq
    simp [hEq] at hLength

/-- Different files of one extension have copies of different names. -/
theorem copyName_injective {name other : Name} {extension : List UInt8}
    (h : (splitName name).2 = some extension) (hOther : (splitName other).2 = some extension)
    (hEq : copyName name = copyName other) : name = other := by
  have hStem : (splitName name).1 = (splitName other).1 := List.append_cancel_right hEq
  calc name = (splitName name).1 ++ dot :: extension := eq_of_splitName (Prod.ext rfl h)
    _ = (splitName other).1 ++ dot :: extension := by rw [hStem]
    _ = other := (eq_of_splitName (Prod.ext rfl hOther)).symm

/-- Different files have different copies. -/
theorem copyTrail_injective {s t : List Name} (hs : IsSource s) (ht : IsSource t)
    (h : copyTrail s = copyTrail t) : s = t := by
  obtain ⟨-, -, hFirst⟩ := hs
  obtain ⟨-, -, hSecond⟩ := ht
  rw [copyTrail_concat, copyTrail_concat] at h
  obtain ⟨rfl, hName⟩ := List.append_inj' h rfl
  rw [copyName_injective (congrArg Prod.snd hFirst) (congrArg Prod.snd hSecond)
    (List.singleton_inj.mp hName)]

/-- The names of the trail to a copy can be names of entries. -/
theorem isEntryName_copyTrail {trail : List Name} (h : IsSource trail) :
    ∀ name ∈ copyTrail trail, isEntryName name = true := by
  obtain ⟨hNames, -, hSplit⟩ := h
  obtain ⟨hBefore, hName⟩ := List.forall_mem_append.mp hNames
  rw [copyTrail_concat]
  refine List.forall_mem_append.mpr ⟨hBefore, ?_⟩
  rw [List.forall_mem_singleton] at hName ⊢
  exact isEntryName_copyName hName (congrArg Prod.snd hSplit)

/-- The copy of a file stands beside it. -/
theorem commentedCopy_descend {root : Path} (hRoot : root.bytes ≠ []) {before : List Name}
    {name : Name} {stem : String} (hNames : ∀ n ∈ before ++ [name], isEntryName n = true)
    (hSplit : splitName name = (Text.encode stem, some (Text.encode Language.java.extension))) :
    (root.descend (before ++ [name])).commentedCopy =
      (root.descend before).trimmed.join (copyName name) := by
  obtain ⟨hBefore, hName⟩ := List.forall_mem_append.mp hNames
  rw [descend_concat, commentedCopy_join (bytes_descend_ne_nil hRoot hBefore) (hName name (by simp))
    hSplit, copyName_eq hSplit, copyEnding, String.append_assoc, String.append_assoc,
    String.append_assoc]

/-- The path of a copy is that of the trail to it. -/
theorem components_commentedCopy {root : Path} (hRoot : root.bytes ≠ []) {trail : List Name}
    (h : IsSource trail) :
    (root.descend trail).commentedCopy.components =
      root.components ++ (copyTrail trail).map .name := by
  have hCopy := isEntryName_copyTrail h
  obtain ⟨hNames, -, hSplit⟩ := h
  rw [copyTrail_concat] at hCopy ⊢
  obtain ⟨hBefore, -⟩ := List.forall_mem_append.mp hNames
  have hDirectory := bytes_descend_ne_nil hRoot hBefore
  obtain ⟨hTrimmed, hLocated⟩ := (settles_trimmed hDirectory).located hDirectory
  rw [commentedCopy_descend hRoot hNames hSplit, components,
    located_join hTrimmed (isFileName_of_isEntryName (hCopy _ (by simp))), hLocated,
    List.map_append, ← components, components_descend hRoot hBefore]
  simp

/-- Names that are texts are joined to a text. -/
theorem exists_front {names : List Name} (h : ∀ n ∈ names, (Text.decode? n).isSome = true)
    (ending : String) :
    ∃ front : String, [slash].intercalate (names ++ [Text.encode ending]) =
      Text.encode (front ++ ending) := by
  induction names with
  | nil => exact ⟨"", by simp⟩
  | cons name names ih =>
      obtain ⟨hName, hRest⟩ := List.forall_mem_cons.mp h
      obtain ⟨text, hText⟩ := Option.isSome_iff_exists.mp hName
      rw [Text.decode?_eq_some_iff] at hText
      obtain ⟨front, hFront⟩ := ih hRest
      refine ⟨text ++ "/" ++ front, ?_⟩
      obtain ⟨next, others, hNext⟩ :=
        List.exists_cons_of_ne_nil (List.append_ne_nil_of_right_ne_nil names
          (List.cons_ne_nil (Text.encode ending) []))
      rw [List.cons_append, hNext, List.intercalate_cons_cons, ← hNext, hFront, hText,
        ← encode_slash]
      simp only [Text.encode_append, List.append_assoc]

/-- A file that is wanted is a program, and if its names are texts it has a copy. -/
theorem isSource_of_wanted {p : Project} {entries : List String} {trail : List Name}
    (hRoot : p.root.bytes ≠ []) (hExtension : p.config.extension = Language.java.extension)
    (hTrail : trail ≠ [] ∧ ∀ name ∈ trail, isEntryName name = true)
    (hTexts : ∀ name ∈ trail, (Text.decode? name).isSome = true)
    (hWanted : p.Wanted entries trail) : IsSource trail := by
  obtain ⟨hNonempty, hNames⟩ := hTrail
  have hWanted := hWanted.extension
  obtain ⟨before, name, rfl⟩ : ∃ before name, trail = before ++ [name] :=
    ⟨_, _, (List.dropLast_append_getLast hNonempty).symm⟩
  obtain ⟨hBefore, hName⟩ := List.forall_mem_append.mp hNames
  have hFile := fileName?_join (bytes_descend_ne_nil hRoot hBefore) (hName name (by simp))
  rw [descend_concat, extension?, hFile, hExtension] at hWanted
  obtain ⟨stem, hSplit⟩ := exists_stem (hTexts name (by simp)) hWanted
  exact .intro hNames (fun n hn => hTexts n (List.mem_append_left _ hn)) hSplit

/-- The ignore file is no copy. -/
theorem ignoreFile_ne_copyTrail {trail : List Name} (h : IsSource trail) :
    [Text.encode ignoreFileName] ≠ copyTrail trail := by
  obtain @⟨before, name, stem, -, -, -⟩ := h
  rw [copyTrail_concat]
  intro hEq
  have hName : Text.encode ignoreFileName = copyName name := by
    simpa using congrArg List.getLast? hEq
  -- Already the last bytes differ.
  have hLast := congrArg List.getLast? hName
  rw [copyName, List.getLast?_append_of_ne_nil _ (by decide)] at hLast
  revert hLast
  decide

/-- The pattern for copies leaves out every copy, at any depth. -/
theorem not_wanted_copyTrail {p : Project} {entries : List String}
    (hEntries : "*" ++ copyEnding ∈ entries) {trail : List Name} (h : IsSource trail) :
    ¬ p.Wanted entries (copyTrail trail) := by
  rintro ⟨-, hUnmatched⟩
  obtain ⟨-, hTexts, hSplit⟩ := h
  obtain ⟨front, hFront⟩ := exists_front hTexts (_ ++ copyEnding)
  rw [copyTrail_concat, copyName_eq hSplit, hFront] at hUnmatched
  refine hUnmatched _ (Text.decode?_encode _) _ hEntries ?_
  have hParse : Glob.parse ("*" ++ copyEnding) =
      .ok (.anySequence :: copyEnding.toList.map .literal) := by decide +kernel
  refine ⟨"*" ++ copyEnding, by decide +kernel, _, hParse, ?_⟩
  rw [Glob.isMatch_anySequence_literals, ← String.append_assoc, String.toList_append]
  exact List.suffix_append _ _

end JavaOutline.Project
