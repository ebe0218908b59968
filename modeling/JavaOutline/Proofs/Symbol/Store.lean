import JavaOutline.Symbol.Store
import Mathlib.Data.List.Nodup

/-! Looking symbols up by their ids. An id leads to the first symbol that has it; where no two
symbols share an id, every symbol is found and given its summary under its own id. -/
namespace JavaOutline.Store

def position (s : Store) (id : String) : Nat := s.symbols.findIdx fun x => x.id == id

/-- The search for a symbol with the id ends at the first one, or finds nothing and changes
nothing. -/
theorem attachIn_eq (id summary : String) (symbols : List Symbol) :
    attachIn id summary symbols =
      (symbols.modify (position ⟨symbols⟩ id) (withSummary summary),
        (get? ⟨symbols⟩ id).isSome) := by
  unfold position get?
  induction symbols with
  | nil => rfl
  | cons x symbols ih =>
      rw [attachIn, List.findIdx_cons, List.find?_cons]
      cases hx : x.id == id with
      | true => rw [if_pos (beq_iff_eq.mp hx)]; rfl
      | false => rw [if_neg (beq_eq_false_iff_ne.mp hx), ih]; rfl

/-- A summary goes to the first symbol with the id, and to no other. -/
theorem attach_fst (s : Store) (id summary : String) :
    (s.attach id summary).1 = ⟨s.symbols.modify (s.position id) (withSummary summary)⟩ := by
  rw [attach, attachIn_eq]

/-- A summary is attached exactly if the id is found. -/
theorem attach_snd (s : Store) (id summary : String) :
    (s.attach id summary).2 = (s.get? id).isSome := by
  rw [attach, attachIn_eq]

/-- What is found under an id stands at its position. -/
theorem get?_eq_getElem?_position (s : Store) (id : String) :
    s.get? id = s.symbols[s.position id]? :=
  List.find?_eq_getElem?_findIdx

/-- Where ids are all different, each leads to its own symbol. -/
theorem position_id {s : Store} {i : Nat} {x : Symbol} (h : (s.symbols.map Symbol.id).Nodup)
    (hx : s.symbols[i]? = some x) : s.position x.id = i := by
  obtain ⟨hi, rfl⟩ := List.getElem?_eq_some_iff.mp hx
  refine (List.findIdx_eq hi).mpr ⟨by simp, fun j hj => ?_⟩
  have hne := List.pairwise_iff_getElem.mp h j i (by simp; omega) (by simpa using hi) hj
  simpa using hne

/-- If all ids differ, a symbol is found under its own. -/
theorem get?_id {s : Store} {i : Nat} {x : Symbol} (h : (s.symbols.map Symbol.id).Nodup)
    (hx : s.symbols[i]? = some x) : s.get? x.id = some x := by
  rw [get?_eq_getElem?_position, position_id h hx, hx]

/-- The first symbol with the id gets the summary. -/
theorem attach_of_get?_eq_some {s : Store} {id : String} {x : Symbol} (h : s.get? id = some x)
    (summary : String) :
    s.attach id summary = (⟨s.symbols.set (s.position id) (withSummary summary x)⟩, true) := by
  have hx : s.symbols[s.position id]? = some x := s.get?_eq_getElem?_position id ▸ h
  apply Prod.ext
  · rw [attach_fst, List.modify_eq_set_getElem?, hx]
    rfl
  · rw [attach_snd, h]
    rfl

/-- If all ids differ, the summary goes to the symbol with the id. -/
theorem attach_id {s : Store} {i : Nat} {x : Symbol} (h : (s.symbols.map Symbol.id).Nodup)
    (hx : s.symbols[i]? = some x) (summary : String) :
    s.attach x.id summary = (⟨s.symbols.set i (withSummary summary x)⟩, true) := by
  rw [attach_of_get?_eq_some (get?_id h hx), position_id h hx]

/-- Where ids are all different, a first summary for an id changes the position of its symbol and no
other. -/
theorem attach_id_ne_iff {s : Store} {i : Nat} {x : Symbol} (h : (s.symbols.map Symbol.id).Nodup)
    (hx : s.symbols[i]? = some x) (hSummary : x.summary = none) (summary : String) (j : Nat) :
    (s.attach x.id summary).1.symbols[j]? ≠ s.symbols[j]? ↔ j = i := by
  obtain ⟨hi, -⟩ := List.getElem?_eq_some_iff.mp hx
  rw [attach_id h hx]
  by_cases hj : j = i
  · subst hj
    have hChanged : withSummary summary x ≠ x := by
      intro hEq
      have hSame := congrArg Symbol.summary hEq
      simp [withSummary, hSummary] at hSame
    simp [List.getElem?_set_self hi, hx, hChanged]
  · simp [List.getElem?_set_ne (Ne.symm hj), hj]

end JavaOutline.Store
