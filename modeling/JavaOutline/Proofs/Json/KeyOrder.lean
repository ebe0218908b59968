import JavaOutline.Proofs.Json.RoundTrip
import Mathlib.Data.List.Sort
import Mathlib.Data.String.Basic

/-! Keys in order. Putting keys in order takes nothing out of a value and adds nothing to it, and
where no object has a key twice, the order is strict at every depth. -/
namespace JavaOutline.Json

theorem sortKeysIn_eq (items : List Json) : sortKeysIn items = items.map sortKeys := by
  induction items with
  | nil => rfl
  | cons v items ih => rw [sortKeysIn, ih, List.map_cons]

theorem sortKeysOf_eq (fields : List (String × Json)) :
    sortKeysOf fields = fields.map fun f => (f.1, f.2.sortKeys) := by
  induction fields with
  | nil => rfl
  | cons f fields ih => rw [sortKeysOf, ih, List.map_cons]

@[simp] theorem sortKeys_ofOption (text : Option String) :
    (ofOption .str text).sortKeys = ofOption .str text := by
  cases text <;> rfl

@[simp] theorem sortKeys_ofTexts (texts : List String) :
    (ofTexts texts).sortKeys = ofTexts texts := by
  rw [ofTexts, sortKeys, sortKeysIn_eq, List.map_map]
  rfl

/-- Sorting the keys leaves numbers and strings as they are. -/
theorem isPlain_sortKeys {v : Json} (h : v.IsPlain) : v.sortKeys.IsPlain := by
  induction h with
  | null => exact .null
  | bool b => exact .bool b
  | nat n => exact .nat n
  | number h => exact .number h
  | str s => exact .str s
  | arr h ih =>
      rw [sortKeys, sortKeysIn_eq]
      apply IsPlain.arr
      intro w hw
      obtain ⟨v, hv, rfl⟩ := List.mem_map.mp hw
      exact ih v hv
  | obj h ih =>
      rw [sortKeys, sortKeysOf_eq]
      apply IsPlain.obj
      intro g hg
      obtain ⟨f, hf, rfl⟩ := List.mem_map.mp (List.mem_mergeSort.mp hg)
      exact ih f hf

/-- A value in which, at every depth, each key of an object is related to all keys after it. -/
inductive KeysPairwise (related : String → String → Prop) : Json → Prop
  | null : KeysPairwise related .null
  | bool (b : Bool) : KeysPairwise related (.bool b)
  | nat (n : Nat) : KeysPairwise related (.nat n)
  | number (spelling : String) : KeysPairwise related (.number spelling)
  | str (s : String) : KeysPairwise related (.str s)
  | arr {items : List Json} (h : ∀ v ∈ items, KeysPairwise related v) :
      KeysPairwise related (.arr items)
  | obj {fields : List (String × Json)} (hKeys : (fields.map Prod.fst).Pairwise related)
      (h : ∀ f ∈ fields, KeysPairwise related f.2) : KeysPairwise related (.obj fields)
  | unpaired : KeysPairwise related .unpaired

attribute [simp] KeysPairwise.null KeysPairwise.bool KeysPairwise.nat KeysPairwise.str

section KeysPairwise

variable {related : String → String → Prop}

@[simp] theorem keysPairwise_arr_iff {items : List Json} :
    (arr items).KeysPairwise related ↔ ∀ v ∈ items, v.KeysPairwise related :=
  ⟨fun h => by cases h; assumption, .arr⟩

@[simp] theorem keysPairwise_obj_iff {fields : List (String × Json)} :
    (obj fields).KeysPairwise related ↔
      (fields.map Prod.fst).Pairwise related ∧ ∀ f ∈ fields, f.2.KeysPairwise related :=
  ⟨fun h => by cases h; constructor <;> assumption, fun h => .obj h.1 h.2⟩

@[simp] theorem keysPairwise_ofOption (text : Option String) :
    (ofOption .str text).KeysPairwise related := by
  cases text with
  | none => exact .null
  | some text => exact .str text

@[simp] theorem keysPairwise_ofTexts (texts : List String) :
    (ofTexts texts).KeysPairwise related := by
  simp [ofTexts]

end KeysPairwise

theorem keyLe_iff {a b : String} : keyLe a b = true ↔ a ≤ b := by
  rw [keyLe, Bool.not_eq_true', decide_eq_false_iff_not, String.not_lt]

/-- Different keys come in strict order. -/
theorem pairwise_mergeSort_keyLe {fields : List (String × Json)}
    (h : (fields.map Prod.fst).Nodup) :
    ((fields.mergeSort fun a b => keyLe a.1 b.1).map Prod.fst).Pairwise (· < ·) := by
  have hSorted : (fields.mergeSort fun a b => keyLe a.1 b.1).Pairwise fun a b =>
      keyLe a.1 b.1 = true := by
    apply List.pairwise_mergeSort
    · intro a b c hab hbc
      exact keyLe_iff.mpr ((keyLe_iff.mp hab).trans (keyLe_iff.mp hbc))
    · intro a b
      rw [Bool.or_eq_true, keyLe_iff, keyLe_iff]
      exact le_total a.1 b.1
  have hKeys : ((fields.mergeSort fun a b => keyLe a.1 b.1).map Prod.fst).Pairwise (· ≤ ·) :=
    List.pairwise_map.mpr (hSorted.imp keyLe_iff.mp)
  have hPerm := (List.mergeSort_perm fields fun a b => keyLe a.1 b.1).map Prod.fst
  exact (hKeys.sortedLE.sortedLT_of_nodup (hPerm.nodup_iff.mpr h)).pairwise

/-- Where keys are different, putting them in order makes the order strict. -/
theorem keysPairwise_sortKeys {v : Json} (h : v.KeysPairwise (· ≠ ·)) :
    v.sortKeys.KeysPairwise (· < ·) := by
  induction h with
  | null => exact .null
  | bool b => exact .bool b
  | nat n => exact .nat n
  | number spelling => exact .number spelling
  | str s => exact .str s
  | arr h ih =>
      rw [sortKeys, sortKeysIn_eq]
      apply KeysPairwise.arr
      intro w hw
      obtain ⟨v, hv, rfl⟩ := List.mem_map.mp hw
      exact ih v hv
  | @obj fields hKeys h ih =>
      have hSame : (sortKeysOf fields).map Prod.fst = fields.map Prod.fst := by
        rw [sortKeysOf_eq, List.map_map]
        rfl
      rw [sortKeys]
      apply KeysPairwise.obj
      · apply pairwise_mergeSort_keyLe
        rw [hSame]
        exact hKeys
      · intro g hg
        rw [List.mem_mergeSort, sortKeysOf_eq] at hg
        obtain ⟨f, hf, rfl⟩ := List.mem_map.mp hg
        exact ih f hf
  | unpaired => exact .unpaired

end JavaOutline.Json
