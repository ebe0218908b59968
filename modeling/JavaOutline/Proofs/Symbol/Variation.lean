import JavaOutline.Proofs.Symbol.View
import Mathlib.Data.List.Perm.Basic

/-! Other arrays that describe a store. The order of keys does not matter, nor what stands under
keys that mean nothing, nor whether a field is there whose absence stands for its value. What does
matter is that no key of a symbol comes twice and that none is missing whose absence stands for
nothing. -/
namespace JavaOutline

/-- The keys that a symbol cannot do without. -/
def Symbol.requiredKeys : List String :=
  ["chunk_id", "name", "type", "file_path", "code", "start_line", "end_line", "indent"]

/-- Whether fields differ from others in harmless ways only: some are left out whose absence stands
for their value, some are put in whose keys mean nothing, and all are in any order. -/
def Symbol.FieldsVary (fields varied : List (String × Json)) : Prop :=
  ∃ kept omitted added, fields.Perm (kept ++ omitted) ∧ varied.Perm (kept ++ added) ∧
    omitted ⊆ Symbol.absent ∧ ∀ f ∈ added, f.1 ∉ Symbol.keys

/-- Whether an array differs from the view of a store's symbols in harmless ways only. -/
def Store.IsVariation (s : Store) (items : List Json) : Prop :=
  ∃ objects varied, s.toValue .symbols = .arr (objects.map .obj) ∧ items = varied.map .obj ∧
    List.Forall₂ Symbol.FieldsVary objects varied

/-- Whether fields have a key of a symbol more than once, or lack one that a symbol cannot do
without. -/
def Symbol.FieldsConflict (fields : List (String × Json)) : Prop :=
  (∃ key ∈ Symbol.keys, 2 ≤ (fields.map Prod.fst).count key) ∨
    ∃ key ∈ Symbol.requiredKeys, key ∉ fields.map Prod.fst

namespace Decode

section Unique

variable {fields others : List (String × Json)} {key : String}

theorem length_filter_key :
    (fields.filter fun f => f.1 == key).length = (fields.map Prod.fst).count key := by
  rw [List.count, List.countP_map, List.countP_eq_length_filter]
  rfl

theorem unique?_eq_none_iff :
    unique? fields key = none ↔ 2 ≤ (fields.map Prod.fst).count key := by
  rw [← length_filter_key, unique?]
  generalize (fields.filter fun f => f.1 == key) = found
  rcases found with _ | ⟨⟨k, v⟩, _ | ⟨g, rest⟩⟩ <;> simp

theorem unique?_eq_some_none_iff :
    unique? fields key = some none ↔ key ∉ fields.map Prod.fst := by
  rw [← List.count_eq_zero, ← length_filter_key, unique?]
  generalize (fields.filter fun f => f.1 == key) = found
  rcases found with _ | ⟨⟨k, v⟩, _ | ⟨g, rest⟩⟩ <;> simp

/-- The order of fields does not matter. -/
theorem unique?_perm (h : fields.Perm others) : unique? fields key = unique? others key := by
  have hFound := h.filter fun f => f.1 == key
  unfold unique?
  generalize (fields.filter fun f => f.1 == key) = found at hFound
  generalize (others.filter fun f => f.1 == key) = again at hFound
  have hLength := hFound.length_eq
  rcases found with _ | ⟨f, _ | ⟨g, rest⟩⟩
  · rw [hFound.nil_eq]
  · rw [List.singleton_perm.mp hFound]
  · rcases again with _ | ⟨f', _ | ⟨g', rest'⟩⟩
    · cases hLength
    · cases hLength
    · rfl

/-- Fields under other keys do not matter. -/
theorem unique?_append (h : ∀ f ∈ others, f.1 ≠ key) :
    unique? (fields ++ others) key = unique? fields key := by
  have hNone : (others.filter fun f => f.1 == key) = [] := by
    simpa [List.filter_eq_nil_iff] using h
  rw [unique?, unique?, List.filter_append, hNone, List.append_nil]

end Unique

/-- Harmless differences leave every field of a symbol given. -/
theorem gives_of_fieldsVary {s : Symbol} {fields varied : List (String × Json)}
    (hFields : fields.Perm s.fields) (h : Symbol.FieldsVary fields varied) :
    ∀ f ∈ s.fields, Gives varied f := by
  obtain ⟨kept, omitted, added, hParts, hVaried, hOmitted, hAdded⟩ := h
  have hAll : s.fields.Perm (kept ++ omitted) := hFields.symm.trans hParts
  have hNodup : (kept.map Prod.fst ++ omitted.map Prod.fst).Nodup := by
    rw [← List.map_append]
    exact (hAll.map Prod.fst).nodup_iff.mp s.nodup_keys
  obtain ⟨hKept, -, hDisjoint⟩ := List.nodup_append.mp hNodup
  intro f hf
  have hKey : f.1 ∈ Symbol.keys := List.mem_map_of_mem hf
  have hSame : unique? varied f.1 = unique? kept f.1 := by
    rw [unique?_perm hVaried]
    apply unique?_append
    rintro g hg hSame
    exact hAdded g hg (hSame ▸ hKey)
  rw [Gives, hSame]
  rcases List.mem_append.mp (hAll.subset hf) with hMem | hMem
  · exact .inl (unique?_of_mem hKept hMem)
  · refine .inr ⟨unique?_eq_some_none_iff.mpr fun hTwice => ?_, hOmitted hMem⟩
    exact hDisjoint f.1 hTwice f.1 (List.mem_map_of_mem hMem) rfl

/-- Fields that differ in harmless ways make up the same symbol. -/
theorem symbol?_of_fieldsVary {s : Symbol} {varied : List (String × Json)}
    (h : Symbol.FieldsVary s.sortedFields varied) : symbol? (.obj varied) = some s :=
  symbolOfFields?_of_gives (gives_of_fieldsVary s.sortedFields_perm h)

section Conflict

variable {fields : List (String × Json)}

/-- A key that must be there, and is read, occurs once. -/
theorem unique?_of_required? {α : Type} {key : String} {read : Json → Option α} {a : α}
    (h : required? fields key read = some a) :
    unique? fields key ≠ none ∧ unique? fields key ≠ some none := by
  constructor <;> intro hUnique <;> rw [required?, hUnique] at h <;> cases h

/-- A key that may be absent, and is read, occurs once at most. -/
theorem unique?_of_optional? {α : Type} {key : String} {read : Json → Option α} {a absent : α}
    (h : optional? fields key absent read = some a) : unique? fields key ≠ none := by
  intro hUnique
  rw [optional?, hUnique] at h
  cases h

/-- Where a symbol is read, none of its keys occurs twice. -/
theorem Reads.unique?_ne_none {s : Symbol} (h : Reads fields s) :
    ∀ key ∈ Symbol.keys, unique? fields key ≠ none := by
  simp only [Symbol.keys, List.forall_mem_cons]
  exact ⟨(unique?_of_required? h.id).1, (unique?_of_required? h.name).1,
    (unique?_of_required? h.kind).1, (unique?_of_required? h.filePath).1,
    (unique?_of_required? h.code).1, (unique?_of_required? h.startLine).1,
    (unique?_of_required? h.endLine).1, (unique?_of_required? h.indent).1,
    unique?_of_optional? h.parentClass, unique?_of_optional? h.superclasses,
    unique?_of_optional? h.interfaces, unique?_of_optional? h.methods,
    unique?_of_optional? h.calls, unique?_of_optional? h.summary, List.forall_mem_nil _⟩

/-- Where a symbol is read, the keys it needs are there. -/
theorem Reads.unique?_ne_some_none {s : Symbol} (h : Reads fields s) :
    ∀ key ∈ Symbol.requiredKeys, unique? fields key ≠ some none := by
  simp only [Symbol.requiredKeys, List.forall_mem_cons]
  exact ⟨(unique?_of_required? h.id).2, (unique?_of_required? h.name).2,
    (unique?_of_required? h.kind).2, (unique?_of_required? h.filePath).2,
    (unique?_of_required? h.code).2, (unique?_of_required? h.startLine).2,
    (unique?_of_required? h.endLine).2, (unique?_of_required? h.indent).2, List.forall_mem_nil _⟩

/-- Fields with a duplicate or without a needed key are no symbol. -/
theorem symbol?_of_fieldsConflict (h : Symbol.FieldsConflict fields) :
    symbol? (.obj fields) = none := by
  rw [symbol?, Option.eq_none_iff_forall_ne_some]
  intro s hs
  have hReads := symbolOfFields?_eq_some_iff.mp hs
  rcases h with ⟨key, hKey, hTwice⟩ | ⟨key, hKey, hMissing⟩
  · exact hReads.unique?_ne_none key hKey (unique?_eq_none_iff.mpr hTwice)
  · exact hReads.unique?_ne_some_none key hKey (unique?_eq_some_none_iff.mpr hMissing)

end Conflict

end Decode

namespace Store

variable {s : Store} {items : List Json}

/-- An array that differs in harmless ways describes the same store. -/
theorem ofJson?_of_isVariation (h : s.IsVariation items) : ofJson? (.arr items) = some s := by
  obtain ⟨objects, varied, hView, rfl, hVaried⟩ := h
  rw [toValue_symbols, Json.arr.injEq] at hView
  have hObjects : objects = s.symbols.map Symbol.sortedFields :=
    (List.map_injective_iff.mpr fun a b h => Json.obj.inj h) hView.symm
  have hSymbols : (varied.map Json.obj).mapM Decode.symbol? = some s.symbols := by
    rw [hObjects, List.forall₂_map_left_iff] at hVaried
    rw [mapM_eq_some_iff, List.forall₂_map_left_iff]
    exact (hVaried.imp fun x fields h => Decode.symbol?_of_fieldsVary h).flip
  rw [ofJson?, hSymbols]
  rfl

/-- One item that is refused is enough for the array to be. -/
theorem ofJson?_of_fieldsConflict {fields : List (String × Json)} (hMem : .obj fields ∈ items)
    (h : Symbol.FieldsConflict fields) : ofJson? (.arr items) = none := by
  rw [ofJson?, mapM_eq_none_of_mem hMem (Decode.symbol?_of_fieldsConflict h)]
  rfl

theorem load?_of_parse? {text : String} {v : Json} (hText : Json.parse? text = some v) :
    load? text = ofJson? v := by
  rw [load?, hText]
  rfl

/-- An array that differs from the view of a store's symbols in harmless ways only describes that
store, and so does every text that spells it, which it has in every layout if its values have
spellings at all. An array with a symbol that has a key twice, or lacks one that it cannot do
without, describes no store, whatever else is in it, and nor does any text that spells it. -/
theorem load?_of_variation_or_conflict (s : Store) (items : List Json) :
    (s.IsVariation items → ofJson? (.arr items) = some s ∧
        (∀ text, Json.parse? text = some (.arr items) → load? text = some s) ∧
        ((∀ v ∈ items, v.IsPlain) → ∀ (l : Json.Layout) (level : Nat),
          load? (String.ofList (Json.write l level (.arr items))) = some s)) ∧
      ∀ fields, .obj fields ∈ items → Symbol.FieldsConflict fields →
        ofJson? (.arr items) = none ∧
          ∀ text, Json.parse? text = some (.arr items) → load? text = none := by
  constructor
  · intro hVariation
    have hStore := ofJson?_of_isVariation hVariation
    refine ⟨hStore, fun text hText => (load?_of_parse? hText).trans hStore, ?_⟩
    intro hPlain l level
    have hText := Json.parse?_write l level (Json.IsPlain.arr hPlain) [] rfl
    rw [List.append_nil] at hText
    exact (load?_of_parse? hText).trans hStore
  · intro fields hMem hConflict
    have hNone := ofJson?_of_fieldsConflict hMem hConflict
    exact ⟨hNone, fun text hText => (load?_of_parse? hText).trans hNone⟩

/-- A class without anything that has to be written for some symbols only. -/
def plainClass : Symbol :=
  { (default : Symbol) with id := "a", name := "A", filePath := "f", code := "c" }

/-- All that has to be written for that class, last things first. -/
def leastFields : List (String × Json) :=
  [("indent", .nat 0), ("end_line", .nat 0), ("start_line", .nat 0), ("code", .str "c"),
    ("file_path", .str "f"), ("type", .str "class"), ("name", .str "A"), ("chunk_id", .str "a")]

/-- A key that means nothing, twice, the second time with one in its value that means something
elsewhere. -/
def notes : List (String × Json) := [("note", .number "-1.5e3"), ("note", .obj [("name", .null)])]

theorem fieldsVary_plainClass :
    Symbol.FieldsVary plainClass.sortedFields (leastFields ++ notes) := by
  have hFields : plainClass.fields = leastFields.reverse ++ Symbol.absent := rfl
  have hParts : plainClass.sortedFields.Perm (leastFields ++ Symbol.absent) := by
    refine plainClass.sortedFields_perm.trans ?_
    rw [hFields]
    exact (List.reverse_perm leastFields).append_right Symbol.absent
  exact ⟨leastFields, Symbol.absent, notes, hParts, .refl _, List.Subset.refl _, by decide⟩

theorem isNumber_note : Json.IsNumber "-1.5e3".toList := by
  have hDigits (d : Char) (h : d.isDigit = true) : Json.IsDigits [d] := ⟨by simp, by simpa using h⟩
  have hWhole : Json.IsWhole ['1'] := ⟨hDigits '1' rfl, fun _ => Nat.le_refl 1⟩
  have hFraction : Json.IsFraction ['.', '5'] := .inr ⟨['5'], hDigits '5' rfl, rfl⟩
  have hExponent : Json.IsExponent ['e', '3'] :=
    .inr ⟨'e', [], ['3'], .inl rfl, .inl rfl, hDigits '3' rfl, rfl⟩
  exact ⟨['-'], ['1'], ['.', '5'], ['e', '3'], rfl, .inr rfl, hWhole, hFraction, hExponent,
    by simp⟩

theorem load?_of_variation_or_conflict_plainClass :
    IsVariation ⟨[plainClass]⟩ [.obj (leastFields ++ notes)] ∧
      load? (Json.arr [.obj (leastFields ++ notes)]).toCompact = some ⟨[plainClass]⟩ ∧
      Symbol.FieldsConflict (leastFields ++ [("name", .str "B")]) ∧
      ofJson? (.arr [.obj (leastFields ++ [("name", .str "B")])]) = none := by
  have hVariation : IsVariation ⟨[plainClass]⟩ [.obj (leastFields ++ notes)] :=
    ⟨[plainClass.sortedFields], [leastFields ++ notes], toValue_symbols _, rfl,
      .cons fieldsVary_plainClass .nil⟩
  have hPlain : ∀ v ∈ [Json.obj (leastFields ++ notes)], v.IsPlain := by
    simp [leastFields, notes, Json.IsPlain.number isNumber_note]
  have hConflict : Symbol.FieldsConflict (leastFields ++ [("name", .str "B")]) :=
    .inl ⟨"name", by decide, by decide⟩
  obtain ⟨hAccepted, -⟩ := load?_of_variation_or_conflict ⟨[plainClass]⟩
    [.obj (leastFields ++ notes)]
  obtain ⟨-, hRefused⟩ := load?_of_variation_or_conflict ⟨[plainClass]⟩
    [.obj (leastFields ++ [("name", .str "B")])]
  exact ⟨hVariation, (hAccepted hVariation).2.2 hPlain .compact 0, hConflict,
    (hRefused _ List.mem_cons_self hConflict).1⟩

end Store

end JavaOutline
