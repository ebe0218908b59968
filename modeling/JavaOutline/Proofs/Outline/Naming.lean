import JavaOutline.Proofs.Outline.Membership
import JavaOutline.Proofs.Text.Trim

/-! The names and ids of the symbols of a file. The class that a method names is one of the symbols,
so if the names of the symbols are plain, so are the names that ids are made of. -/
namespace JavaOutline

open Syntax

/-- Trimming adds no character. -/
theorem Text.mem_of_mem_trim {c : Char} {s : String} (h : c ∈ (Text.trim s).toList) :
    c ∈ s.toList := by
  rw [Text.trim, String.toList_ofList] at h
  exact Text.mem_of_mem_trimChars h

/-- The ids of drafts are assigned to their qualified names. -/
theorem Draft.map_id_tie (path : String) (drafts : List Draft) :
    (Draft.tie path drafts).map Symbol.id = Id.assign path (drafts.map Draft.qualifiedName) := by
  have hLength : (Id.assign path (drafts.map Draft.qualifiedName)).length ≤ drafts.length := by
    simp [Id.length_assign]
  rw [Draft.tie, List.map_zipWith]
  have hFirst := List.map_fst_zip hLength
  rwa [List.zip, List.map_zipWith] at hFirst

/-- The ids of the symbols are those of their qualified names. -/
theorem map_id_symbolsOf (path content : String) (root : Node) :
    (symbolsOf path content root).map Symbol.id =
      Id.assign path ((symbolsOf path content root).map fun s => s.draft.qualifiedName) := by
  have hNames := Draft.map_draft_tie path (Findings.ofNode (Text.encode content) none root).drafts
  rw [symbolsOf, Draft.map_id_tie]
  conv_lhs => rw [← hNames, List.map_map]
  rfl

section Names

variable {path content : String} {root : Node} {s : Symbol}

/-- A symbol has its declaration at the same position. -/
theorem exists_declaration_of_mem_symbolsOf (h : s ∈ symbolsOf path content root) :
    ∃ (i : Nat) (a : Address), root.declarations[i]? = some a ∧
      (symbolsOf path content root)[i]? = some s := by
  obtain ⟨i, hs⟩ := List.mem_iff_getElem?.mp h
  obtain ⟨hi, -⟩ := List.getElem?_eq_some_iff.mp hs
  rw [length_symbolsOf] at hi
  exact ⟨i, _, List.getElem?_eq_getElem hi, hs⟩

theorem summary_of_mem_symbolsOf (h : s ∈ symbolsOf path content root) : s.summary = none := by
  rw [symbolsOf, Draft.tie, ← List.map_uncurry_zip_eq_zipWith] at h
  obtain ⟨⟨id, d⟩, -, rfl⟩ := List.mem_map.mp h
  rfl

theorem filePath_of_mem_symbolsOf (h : s ∈ symbolsOf path content root) : s.filePath = path := by
  rw [symbolsOf, Draft.tie, ← List.map_uncurry_zip_eq_zipWith] at h
  obtain ⟨⟨id, d⟩, -, rfl⟩ := List.mem_map.mp h
  rfl

/-- The class that a symbol names is a symbol of the same file. -/
theorem exists_of_parentClass {parent : String} (h : s ∈ symbolsOf path content root)
    (hMethod : s.kind = .methodDecl) (hParent : s.parentClass = some parent) :
    ∃ t ∈ symbolsOf path content root, t.name = parent := by
  obtain ⟨i, a, ha, hs⟩ := exists_declaration_of_mem_symbolsOf h
  cases hNear : root.nearestClass a with
  | none =>
      have hNone := parentClass_of_getElem? ha hs hMethod
      simp [hNear, hParent] at hNone
  | some b =>
      obtain ⟨j, t, -, -, ht, -, hName⟩ :=
        exists_class_of_nearestClass ha hs (by simp [Symbol.isMethod, hMethod]) hNear
      refine ⟨t, List.mem_of_getElem? ht, ?_⟩
      rw [hParent, Option.some.injEq] at hName
      exact hName.symm

/-- The qualified name of a symbol is plain if all names are. -/
theorem isPlain_qualifiedName (hPlain : ∀ t ∈ symbolsOf path content root, Id.IsPlain t.name)
    (h : s ∈ symbolsOf path content root) : Id.IsPlain s.draft.qualifiedName := by
  have hName : Id.IsPlain s.name := hPlain s h
  unfold Draft.qualifiedName
  split
  · next parent hKind hParent =>
      obtain ⟨t, ht, rfl⟩ := exists_of_parentClass h hKind hParent
      have hClass : Id.IsPlain t.name := hPlain t ht
      unfold Id.IsPlain at *
      simp [Symbol.draft, hName, hClass]
  · exact hName

/-- A name shows no characters but those of the content, apart from U+FFFD. -/
theorem subset_of_mem_name {c : Char} (h : s ∈ symbolsOf path content root)
    (hMem : c ∈ s.name.toList) (hc : c ≠ Text.replacement) :
    String.utf8EncodeChar c ⊆ Text.encode content := by
  obtain ⟨i, a, ha, hs⟩ := exists_declaration_of_mem_symbolsOf h
  obtain ⟨n, -, hBy⟩ := Symbol.declaredBy_of_ofAddress? (List.mem_of_getElem? ha)
    (ofAddress?_of_getElem? ha hs)
  rw [hBy.name, Draft.nameOf] at hMem
  cases hNode : n.name? with
  | none => simp [hNode] at hMem
  | some m =>
      rw [hNode] at hMem
      exact Text.subset_of_mem_slice (Text.mem_of_mem_trim hMem) hc

/-- Without the separators of ids in the content every name is plain. -/
theorem isPlain_name_of_bytes (h : s ∈ symbolsOf path content root)
    (hHash : 0x23 ∉ Text.encode content) (hColon : 0x3A ∉ Text.encode content) :
    Id.IsPlain s.name := by
  refine ⟨fun hMem => hHash ?_, fun hMem => hColon ?_⟩
  · exact subset_of_mem_name h hMem (by decide) (by decide)
  · exact subset_of_mem_name h hMem (by decide) (by decide)

end Names

end JavaOutline
