import JavaOutline.Proofs.Syntax.Address

/-! Trees over a text. A node covers a stretch of the text, its children lie in this stretch, and
they come one after another. Of two nodes, then, one lies inside the other or one comes before the
other. -/
namespace JavaOutline.Syntax.Node

/-- Whether a node is well placed over its children. -/
structure IsOrdered (n : Node) : Prop where
  le : n.info.start.byte ≤ n.info.stop.byte
  inside : ∀ c ∈ n.children,
    n.info.start.byte ≤ c.info.start.byte ∧ c.info.stop.byte ≤ n.info.stop.byte
  apart : n.children.Pairwise fun c d => c.info.stop.byte ≤ d.info.start.byte

instance (n : Node) : Decidable n.IsOrdered :=
  decidable_of_iff (n.info.start.byte ≤ n.info.stop.byte ∧
      (∀ c ∈ n.children,
        n.info.start.byte ≤ c.info.start.byte ∧ c.info.stop.byte ≤ n.info.stop.byte) ∧
      n.children.Pairwise fun c d => c.info.stop.byte ≤ d.info.start.byte)
    ⟨fun ⟨h₁, h₂, h₃⟩ => ⟨h₁, h₂, h₃⟩, fun h => ⟨h.le, h.inside, h.apart⟩⟩

/-- Whether all nodes of a tree are well placed. -/
def IsNested (root : Node) : Prop := ∀ a n, root.at? a = some n → n.IsOrdered

instance (root : Node) : Decidable root.IsNested :=
  decidable_of_iff _ (forall_at?_iff (p := IsOrdered)).symm

section Nesting

variable {root c d n : Node} {a b : Address}

theorem IsNested.isOrdered (h : root.IsNested) : root.IsOrdered := h [] root (at?_nil root)

/-- A tree that is nested has nested children. -/
theorem IsNested.child {k : Nat} (h : root.IsNested) (hc : root.children[k]? = some c) :
    c.IsNested := by
  cases root with
  | mk i cs =>
      intro a n hn
      have hAt : (mk i cs).at? (k :: a) = c.at? a := at?_child hc a
      exact h (k :: a) n (hAt.trans hn)

/-- A node lies inside every node above it. -/
theorem IsNested.inside_of_at? (h : root.IsNested) (hn : root.at? a = some n) :
    root.info.start.byte ≤ n.info.start.byte ∧ n.info.stop.byte ≤ root.info.stop.byte := by
  induction a generalizing root with
  | nil =>
      rw [at?_nil, Option.some.injEq] at hn
      subst hn
      exact ⟨le_rfl, le_rfl⟩
  | cons k a ih =>
      cases root with
      | mk i cs =>
          obtain ⟨c, hc, hBelow⟩ := Option.bind_eq_some_iff.mp hn
          have hChild := h.isOrdered.inside c (List.mem_of_getElem? hc)
          have hInside := ih (h.child hc) hBelow
          exact ⟨hChild.1.trans hInside.1, hInside.2.trans hChild.2⟩

/-- Of two children the earlier one ends before the later one begins. -/
theorem IsOrdered.stop_le_start {j k : Nat} (h : n.IsOrdered) (hc : n.children[j]? = some c)
    (hd : n.children[k]? = some d) (hLess : j < k) : c.info.stop.byte ≤ d.info.start.byte := by
  obtain ⟨hj, rfl⟩ := List.getElem?_eq_some_iff.mp hc
  obtain ⟨hk, rfl⟩ := List.getElem?_eq_some_iff.mp hd
  exact List.pairwise_iff_getElem.mp h.apart j k hj hk hLess

/-- A leaf that starts before a node ends before it, too. -/
theorem IsNested.leaf_stop_le {leaf : Node} (h : root.IsNested) (hn : root.at? a = some n)
    (hLeaf : root.at? b = some leaf) (hNone : leaf.children = [])
    (hBefore : leaf.info.start.byte < n.info.start.byte) :
    leaf.info.stop.byte ≤ n.info.start.byte := by
  induction a generalizing root b with
  | nil =>
      -- The leaf lies in the node.
      rw [at?_nil, Option.some.injEq] at hn
      subst hn
      have := (h.inside_of_at? hLeaf).1
      omega
  | cons j a ih =>
      cases root with
      | mk i cs =>
          obtain ⟨c, hc, hNode⟩ := Option.bind_eq_some_iff.mp hn
          cases b with
          | nil =>
              -- Nothing lies in a leaf.
              rw [at?_nil, Option.some.injEq] at hLeaf
              subst hLeaf
              rw [hNone] at hc
              cases hc
          | cons k b =>
              obtain ⟨d, hd, hToken⟩ := Option.bind_eq_some_iff.mp hLeaf
              have hInC := (h.child hc).inside_of_at? hNode
              have hInD := (h.child hd).inside_of_at? hToken
              rcases Nat.lt_trichotomy k j with hLess | hSame | hGreater
              · have := h.isOrdered.stop_le_start hd hc hLess
                omega
              · have hChild : c = d := Option.some.inj (hc.symm.trans (hSame ▸ hd))
                exact ih (h.child hc) hNode (hChild ▸ hToken)
              · have hApart := h.isOrdered.stop_le_start hc hd hGreater
                have hOrdered := (h.child hc a n hNode).le
                omega

end Nesting

end JavaOutline.Syntax.Node
