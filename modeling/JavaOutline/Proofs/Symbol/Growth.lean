import JavaOutline.Proofs.Symbol.Store
import JavaOutline.Proofs.Symbol.View
import Mathlib.Data.List.Infix

/-! What changes leave of a store. Symbols are added at the end and summaries are given to symbols
that are there, and nothing else is ever done. Whatever of a symbol does not depend on its summary
therefore stays at its place over any run of changes. -/
namespace JavaOutline

def Symbol.withoutSummary (x : Symbol) : Symbol := { x with summary := none }

namespace Store

/-- A change of a store. The answers of a summarizer that need not answer alike for the same symbol
are given one by one. -/
inductive Change where
  | extend (symbols : List Symbol)
  | attach (id summary : String)
  | attachAt (index : Nat) (summary : String)
  | summarizeAll (summarize : Symbol → Option String)
  | attachResults (results : List (Option String))

/-- The store after a change, whether or not there was anything to change. -/
def apply (s : Store) : Change → Store
  | .extend symbols => s.extend symbols
  | .attach id summary => (s.attach id summary).1
  | .attachAt index summary => (s.attachAt index summary).1
  | .summarizeAll summarize => (s.summarizeAll summarize).1
  | .attachResults results => (attachResults results 0 (s, 0)).1

def applyAll (s : Store) (changes : List Change) : Store := changes.foldl apply s

/-- Whether each symbol of a store is at the same place of another one, where only its summary may
differ, and is set if it was set before. -/
def Grows (s t : Store) : Prop :=
  ∀ (i : Nat) (x : Symbol), s.symbols[i]? = some x →
    ∃ y, t.symbols[i]? = some y ∧ y.withoutSummary = x.withoutSummary ∧
      (x.summary.isSome = true → y.summary.isSome = true)

theorem Grows.refl (s : Store) : s.Grows s := fun _ x hx => ⟨x, hx, rfl, id⟩

theorem Grows.trans {s t u : Store} (first : s.Grows t) (second : t.Grows u) : s.Grows u := by
  intro i x hx
  obtain ⟨y, hy, hSame, hSet⟩ := first i x hx
  obtain ⟨z, hz, hSame', hSet'⟩ := second i y hy
  exact ⟨z, hz, hSame'.trans hSame, fun h => hSet' (hSet h)⟩

/-- Symbols that are added come at the end. -/
theorem grows_extend (s : Store) (symbols : List Symbol) : s.Grows (s.extend symbols) := by
  intro i x hx
  obtain ⟨hi, -⟩ := List.getElem?_eq_some_iff.mp hx
  refine ⟨x, ?_, rfl, id⟩
  rw [extend, List.getElem?_append_left hi, hx]

/-- A summary at any place, whether there is a symbol or not. -/
theorem grows_modify (s : Store) (index : Nat) (summary : String) :
    s.Grows ⟨s.symbols.modify index (withSummary summary)⟩ := by
  intro i x hx
  by_cases hi : index = i
  · refine ⟨withSummary summary x, ?_, rfl, fun _ => rfl⟩
    simp [hi, hx]
  · refine ⟨x, ?_, rfl, id⟩
    simp [hi, hx]

/-- A summary changes no symbol otherwise. -/
theorem grows_attach (s : Store) (id summary : String) : s.Grows (s.attach id summary).1 := by
  rw [attach_fst]
  exact grows_modify s _ summary

/-- Results that are attached are summaries, by induction on them. -/
theorem grows_attachResults (results : List (Option String)) (index : Nat) (s : Store)
    (count : Nat) : s.Grows (attachResults results index (s, count)).1 := by
  induction results generalizing index s count with
  | nil => exact .refl s
  | cons result results ih =>
      cases result with
      | none => exact ih (index + 1) s count
      | some summary => exact (grows_modify s index summary).trans (ih (index + 1) _ _)

/-- One change. -/
theorem grows_apply (s : Store) (change : Change) : s.Grows (s.apply change) := by
  cases change with
  | extend symbols => exact grows_extend s symbols
  | attach id summary => exact grows_attach s id summary
  | attachAt index summary => exact grows_modify s index summary
  | summarizeAll summarize => exact grows_attachResults _ 0 s 0
  | attachResults results => exact grows_attachResults results 0 s 0

/-- A whole run of changes. -/
theorem grows_applyAll (s : Store) (changes : List Change) : s.Grows (s.applyAll changes) := by
  induction changes generalizing s with
  | nil => exact .refl s
  | cons change changes ih => exact (grows_apply s change).trans (ih (s.apply change))

section Views

variable {s t : Store}

/-- Without the summaries, the symbols of a store that has grown begin with those it had. -/
theorem Grows.withoutSummary_prefix (h : s.Grows t) :
    s.symbols.map Symbol.withoutSummary <+: t.symbols.map Symbol.withoutSummary := by
  rw [List.prefix_iff_getElem?]
  intro i hi
  rw [List.length_map] at hi
  obtain ⟨y, hy, hSame, -⟩ := h i _ (List.getElem?_eq_getElem hi)
  rw [List.getElem?_map, hy, List.getElem_map, Option.map_some, hSame]

/-- What is read off the symbols without looking at their summaries can only get longer. -/
theorem Grows.map_prefix (h : s.Grows t) {α : Type} (read : Symbol → α)
    (hRead : ∀ x : Symbol, read x.withoutSummary = read x) :
    s.symbols.map read <+: t.symbols.map read := by
  have hMap (symbols : List Symbol) :
      (symbols.map Symbol.withoutSummary).map read = symbols.map read := by
    rw [List.map_map]
    exact List.map_congr_left fun x _ => hRead x
  rw [← hMap s.symbols, ← hMap t.symbols]
  exact h.withoutSummary_prefix.map read

/-- Targets say nothing of summaries. -/
theorem Grows.docTargets_prefix (h : s.Grows t) : s.docTargets <+: t.docTargets :=
  h.map_prefix Doc.Target.ofSymbol fun _ => rfl

theorem toValue_docs (s : Store) :
    s.toValue .docs = .arr (s.docTargets.map fun target => target.toJson.sortKeys) := by
  rw [toValue, Json.sortKeys, Json.sortKeysIn_eq, List.map_map]
  rfl

/-- The view of the targets has items added at its end. -/
theorem Grows.toValue_docs_append (h : s.Grows t) :
    ∃ items added, s.toValue .docs = .arr items ∧ t.toValue .docs = .arr (items ++ added) := by
  obtain ⟨added, hAdded⟩ := h.docTargets_prefix.map fun target => target.toJson.sortKeys
  exact ⟨_, added, toValue_docs s, by rw [toValue_docs, hAdded]⟩

/-- The ids and the metadata of an index say nothing of summaries. -/
theorem Grows.indexRecords_prefix (h : s.Grows t) :
    (s.indexRecords.map fun r => (r.id, r.metadata)) <+:
      t.indexRecords.map fun r => (r.id, r.metadata) := by
  rw [indexRecords, indexRecords, List.map_map, List.map_map]
  exact h.map_prefix _ fun _ => rfl

end Views

/-- Over any run of changes a store is only added to. Apart from summaries, its symbols stay as they
are and in front, and a summary that is set stays set. So the targets for documentation, and the ids
and metadata in the index, stay as they are and in front too. -/
theorem applyAll_append_only (s : Store) (changes : List Change) :
    s.symbols.map Symbol.withoutSummary <+:
        (s.applyAll changes).symbols.map Symbol.withoutSummary ∧
      (∀ (i : Nat) (x : Symbol), s.symbols[i]? = some x → x.summary.isSome = true →
        ∃ y, (s.applyAll changes).symbols[i]? = some y ∧ y.summary.isSome = true) ∧
      s.docTargets <+: (s.applyAll changes).docTargets ∧
      (∃ items added, s.toValue .docs = .arr items ∧
        (s.applyAll changes).toValue .docs = .arr (items ++ added)) ∧
      (s.indexRecords.map fun r => (r.id, r.metadata)) <+:
        (s.applyAll changes).indexRecords.map fun r => (r.id, r.metadata) := by
  have hGrows := grows_applyAll s changes
  refine ⟨hGrows.withoutSummary_prefix, ?_, hGrows.docTargets_prefix, hGrows.toValue_docs_append,
    hGrows.indexRecords_prefix⟩
  intro i x hx hSet
  obtain ⟨y, hy, -, hStays⟩ := hGrows i x hx
  exact ⟨y, hy, hStays hSet⟩

end Store

end JavaOutline
