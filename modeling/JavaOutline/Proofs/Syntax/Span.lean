import JavaOutline.Proofs.Syntax.Nesting

/-! The stretches that nodes cover, in postorder. What comes before a node in postorder lies below
it or to its left. In a tree over a text it then lies inside the node's stretch, or it ends before
that begins. -/
namespace JavaOutline.Syntax

/-- Whether the way to one node turns off to the left of the way to another. -/
def LeftOf : Address → Address → Prop
  | j :: a, k :: b => j < k ∨ j = k ∧ LeftOf a b
  | _, _ => False

namespace Node

/-- What comes first in postorder lies inside what comes later, or to the left of it. -/
theorem postorder_below_or_leftOf (n : Node) :
    (postorder n).Pairwise fun a b => b ∈ ancestors a ∨ LeftOf a b := by
  induction n using Node.induct with
  | step i cs ih =>
      rw [postorder_mk, List.pairwise_append]
      refine ⟨pairwise_inChildren ?_ ?_ ih, List.pairwise_singleton _ _, ?_⟩
      · intro k a b h
        rcases h with hBelow | hLeft
        · exact .inl (cons_mem_ancestors_cons.mpr ⟨rfl, hBelow⟩)
        · exact .inr (.inr ⟨rfl, hLeft⟩)
      · intro j k a b hLess
        exact .inr (.inl hLess)
      · intro a ha b hb
        obtain ⟨k, c, below, -, -, rfl⟩ := mem_inChildren.mp ha
        rw [List.mem_singleton.mp hb]
        exact .inl List.mem_cons_self

theorem at?_append (root : Node) (a b : Address) :
    root.at? (a ++ b) = (root.at? a).bind fun n => n.at? b := by
  induction a generalizing root with
  | nil => simp
  | cons k a ih =>
      cases root with
      | mk i cs =>
          rw [List.cons_append, at?_cons, at?_cons, Option.bind_assoc]
          congr 1
          funext c
          exact ih c

def EndsBefore (m n : Node) : Prop := m.info.stop.byte ≤ n.info.start.byte

/-- Whether a node lies inside the stretch of another one. -/
def LiesIn (m n : Node) : Prop :=
  n.info.start.byte ≤ m.info.start.byte ∧ m.info.stop.byte ≤ n.info.stop.byte

section Spans

variable {root m n : Node} {a b : Address}

theorem IsNested.at? (h : root.IsNested) (hn : root.at? a = some n) : n.IsNested := by
  intro b m hm
  apply h (a ++ b) m
  rw [at?_append, hn]
  exact hm

/-- What is below a node lies inside it. -/
theorem IsNested.liesIn (h : root.IsNested) (hm : root.at? a = some m) (hn : root.at? b = some n)
    (hBelow : b ∈ ancestors a) : m.LiesIn n := by
  obtain ⟨⟨below, rfl⟩, -⟩ := mem_ancestors_iff.mp hBelow
  rw [at?_append, hn] at hm
  exact (h.at? hn).inside_of_at? hm

/-- What is to the left of a node ends before it begins. -/
theorem IsNested.endsBefore (h : root.IsNested) (hm : root.at? a = some m)
    (hn : root.at? b = some n) (hLeft : LeftOf a b) : m.EndsBefore n := by
  induction a generalizing root b with
  | nil => exact hLeft.elim
  | cons j a ih =>
      cases b with
      | nil => exact hLeft.elim
      | cons k b =>
          cases root with
          | mk i cs =>
              obtain ⟨c, hc, hInC⟩ := Option.bind_eq_some_iff.mp hm
              obtain ⟨d, hd, hInD⟩ := Option.bind_eq_some_iff.mp hn
              rcases hLeft with hLess | ⟨rfl, hLeft⟩
              · -- The ways part here, so the nodes are in different children.
                calc m.info.stop.byte
                    ≤ c.info.stop.byte := ((h.child hc).inside_of_at? hInC).2
                  _ ≤ d.info.start.byte := h.isOrdered.stop_le_start hc hd hLess
                  _ ≤ n.info.start.byte := ((h.child hd).inside_of_at? hInD).1
              · obtain rfl : c = d := Option.some.inj (hc.symm.trans hd)
                exact ih (h.child hc) hInC hInD hLeft

/-- What ends before a node begins, or lies inside it, does not end after it. -/
theorem IsNested.stop_le_stop (h : root.IsNested) (hn : root.at? b = some n)
    (hSpans : m.EndsBefore n ∨ m.LiesIn n) : m.info.stop.byte ≤ n.info.stop.byte := by
  rcases hSpans with hBefore | hInside
  · exact hBefore.trans (h b n hn).le
  · exact hInside.2

end Spans

def places (root : Node) : List Place :=
  (root.postorder.filterMap root.at?).flatMap fun n => [n.info.start, n.info.stop]

/-- Whether no place in a tree is on an earlier line than a place before it. -/
def RowsAscend (root : Node) : Prop :=
  ∀ p ∈ root.places, ∀ q ∈ root.places, p.byte ≤ q.byte → p.row ≤ q.row

instance (root : Node) : Decidable root.RowsAscend :=
  inferInstanceAs
    (Decidable (∀ p ∈ root.places, ∀ q ∈ root.places, p.byte ≤ q.byte → p.row ≤ q.row))

/-- Where a node stops is among the places of the tree. -/
theorem stop_mem_places {root n : Node} {a : Address} (h : root.at? a = some n) :
    n.info.stop ∈ root.places := by
  apply List.mem_flatMap.mpr
  refine ⟨n, List.mem_filterMap.mpr ⟨a, ?_, h⟩, by simp⟩
  rw [mem_postorder_iff, h]
  rfl

end Node

end JavaOutline.Syntax
