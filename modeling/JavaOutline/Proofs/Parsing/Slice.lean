import JavaOutline.Proofs.Parsing.Stack

/-! Taking trees off the stack. All paths down from the top of a reading pass sound trees if the
reading is not after an error, and the readings that are made of their ends come after all that
there were before. -/
namespace JavaOutline.Parsing.Stack

open Automaton Subtree

variable {table : Table} {s s' : Stack} {n v : Nat}

section Search

variable {σ : Type} {decide : σ → Path → σ × Decision} {P : Path → Prop}

/-- What holds of paths and is kept when they are followed down a link holds of the paths after one
round. -/
theorem searchRound_forall (decide : σ → Path → σ × Decision)
    (hAlong : ∀ p, P p → ∀ l ∈ (s.nodeOf p.node).links, P (p.along l))
    {paths advanced branches taken : List Path} (width : Nat) (memory : σ)
    (hPaths : ∀ p ∈ paths, P p) (hAdvanced : ∀ p ∈ advanced, P p) (hBranches : ∀ p ∈ branches, P p)
    (hTaken : ∀ p ∈ taken, P p) :
    (∀ p ∈ (searchRound s decide paths width advanced branches taken memory).pending, P p) ∧
      ∀ p ∈ (searchRound s decide paths width advanced branches taken memory).taken, P p := by
  induction paths generalizing width advanced branches taken memory with
  | nil =>
      apply And.intro _ hTaken
      intro p hp
      rcases List.mem_append.mp hp with hOne | hOne
      · exact hAdvanced p (List.mem_reverse.mp hOne)
      · exact hBranches p (List.mem_reverse.mp hOne)
  | cons p paths ih =>
      have hp : P p := hPaths p List.mem_cons_self
      have hRest : ∀ q ∈ paths, P q := fun q hq => hPaths q (List.mem_cons_of_mem p hq)
      have hTaken' : ∀ q ∈ if (decide memory p).2.take = true then p :: taken else taken, P q := by
        split_ifs
        · exact List.forall_mem_cons.mpr ⟨hp, hTaken⟩
        · exact hTaken
      rw [searchRound]
      cases hLinks : (s.nodeOf p.node).links with
      | nil =>
          simp only
          exact ih _ _ hRest hAdvanced hBranches hTaken'
      | cons first others =>
          have hLink : ∀ l ∈ first :: others, P (p.along l) := hLinks ▸ hAlong p hp
          simp only
          by_cases hStop : (decide memory p).2.stop = true
          · rw [if_pos hStop]
            exact ih _ _ hRest hAdvanced hBranches hTaken'
          · rw [if_neg hStop]
            apply ih _ _ hRest _ _ hTaken'
            · exact List.forall_mem_cons.mpr ⟨hLink first List.mem_cons_self, hAdvanced⟩
            · intro q hq
              rcases List.mem_append.mp hq with hNew | hOld
              · obtain ⟨l, hl, rfl⟩ := List.mem_map.mp (List.mem_reverse.mp hNew)
                exact hLink l (List.mem_cons_of_mem first (List.mem_of_mem_take hl))
              · exact hBranches q hOld

theorem search_forall (hAlong : ∀ p, P p → ∀ l ∈ (s.nodeOf p.node).links, P (p.along l))
    (budget : Nat) {paths taken : List Path} (memory : σ) (hPaths : ∀ p ∈ paths, P p)
    (hTaken : ∀ p ∈ taken, P p) : ∀ p ∈ (search s decide budget paths taken memory).1, P p := by
  induction budget generalizing paths taken memory with
  | zero =>
      intro p hp
      exact hTaken p (List.mem_reverse.mp hp)
  | succ budget ih =>
      cases paths with
      | nil =>
          intro p hp
          exact hTaken p (List.mem_reverse.mp hp)
      | cons p paths =>
          obtain ⟨hPending, hMore⟩ := searchRound_forall decide hAlong (paths.length + 1) memory
            hPaths (List.forall_mem_nil _) (List.forall_mem_nil _) hTaken
          exact ih _ hPending hMore

/-- What a path from the top of a reading passes: parts of mistakes at least, and only sound trees
and states other than the one after an error if the reading is in such a state itself. -/
structure PathSound (table : Table) (s : Stack) (state node : Nat) (trees : List Subtree) :
    Prop where
  parts : ∀ t ∈ trees, Part table t
  below : state ≠ Table.errorState →
    (s.nodeOf node).state ≠ Table.errorState ∧ ∀ t ∈ trees, Subtree.Sound table t

theorem PathSound.along (h : Sound table s) {state : Nat} {p : Path}
    (hp : PathSound table s state p.node p.trees) {l : Link} (hl : l ∈ (s.nodeOf p.node).links) :
    PathSound table s state (p.along l).node (p.along l).trees := by
  have hLink := h p.node l hl
  rw [Path.along]
  cases hTree : l.tree with
  | none =>
      apply PathSound.mk hp.parts
      intro hState
      obtain ⟨-, t, ht, -⟩ := hLink.below (hp.below hState).1
      rw [hTree] at ht
      cases ht
  | some t =>
      apply PathSound.mk (List.forall_mem_cons.mpr ⟨hLink.part t hTree, hp.parts⟩)
      intro hState
      obtain ⟨hNode, hTrees⟩ := hp.below hState
      obtain ⟨hNext, u, hu, hSound⟩ := hLink.below hNode
      rw [hTree, Option.some.injEq] at hu
      exact ⟨hNext, List.forall_mem_cons.mpr ⟨hu ▸ hSound, hTrees⟩⟩

theorem pathSound_of_mem_searchFrom (h : Sound table s) (memory : σ) {p : Path}
    (hp : p ∈ (s.searchFrom v decide memory).1) :
    PathSound table s (s.state v) p.node p.trees := by
  have hStart : PathSound table s (s.state v) (s.head v).node [] :=
    ⟨List.forall_mem_nil _, fun hState => ⟨hState, List.forall_mem_nil _⟩⟩
  exact search_forall (P := fun p => PathSound table s (s.state v) p.node p.trees)
    (fun p hp l hl => hp.along h hl) _ memory (List.forall_mem_singleton.mpr hStart)
    (List.forall_mem_nil _) p hp

end Search

section Slices

theorem mem_insertSlice {x y : Slice} {slices : List Slice} :
    y ∈ insertSlice x slices ↔ y = x ∨ y ∈ slices := by
  induction slices with
  | nil => simp [insertSlice]
  | cons z slices ih =>
      rw [insertSlice]
      split_ifs
      · simp only [List.mem_cons]
        tauto
      · simp only [List.mem_cons, ih]
        tauto

/-- A slice of a version that occurs goes to where that version ends. -/
theorem pairwise_insertSlice {x : Slice} {slices : List Slice}
    (hSorted : slices.Pairwise fun y z => y.version ≤ z.version)
    (hOccurs : ∃ y ∈ slices, y.version = x.version) :
    (insertSlice x slices).Pairwise fun y z => y.version ≤ z.version := by
  induction slices with
  | nil => simp at hOccurs
  | cons y slices ih =>
      obtain ⟨hFirst, hRest⟩ := List.pairwise_cons.mp hSorted
      rw [insertSlice]
      split_ifs with hLast
      · simp only [Bool.and_eq_true, beq_iff_eq] at hLast
        apply List.pairwise_cons.mpr ⟨?_, List.pairwise_cons.mpr ⟨?_, hRest⟩⟩
        · exact List.forall_mem_cons.mpr ⟨Nat.le_of_eq hLast.1, hFirst⟩
        · exact hLast.1 ▸ hFirst
      · have hLater : ∃ z ∈ slices, z.version = x.version := by
          obtain ⟨z, hz, hVersion⟩ := hOccurs
          rcases List.mem_cons.mp hz with rfl | hz
          · simp only [hVersion, beq_self_eq_true, Bool.true_and, List.all_eq_true, bne_iff_ne,
              not_forall, not_not] at hLast
            obtain ⟨w, hw, hSame⟩ := hLast
            exact ⟨w, hw, hSame⟩
          · exact ⟨z, hz, hVersion⟩
        apply List.pairwise_cons.mpr ⟨_, ih hRest hLater⟩
        intro z hz
        rcases mem_insertSlice.mp hz with rfl | hz
        · obtain ⟨w, hw, hSame⟩ := hLater
          exact hSame ▸ hFirst w hw
        · exact hFirst z hz

/-- What is made of paths: a reading for each place at which one ends, after those that there were
already, and the slices reading by reading. -/
structure Sliced (base : Stack) (P : Nat → List Subtree → Prop) (s : Stack) (slices : List Slice) :
    Prop where
  nodes : s.nodes = base.nodes
  size : base.heads.size ≤ s.heads.size
  heads : ∀ k < base.heads.size, s.head k = base.head k
  bounds : ∀ x ∈ slices, base.heads.size ≤ x.version ∧ x.version < s.heads.size
  sorted : slices.Pairwise fun x y => x.version ≤ y.version
  paths : ∀ x ∈ slices, P (s.head x.version).node x.trees

theorem head_pushHead_of_lt (s : Stack) (h : Head) {k : Nat} (hk : k < s.heads.size) :
    Stack.head ⟨s.nodes, s.heads.push h⟩ k = s.head k := by
  simp only [head, Array.getD_eq_getD_getElem?, Array.getElem?_push_lt hk,
    Array.getElem?_eq_getElem hk]

section Made

variable {base : Stack} {P : Nat → List Subtree → Prop} {slices : List Slice} {trees : List Subtree}

/-- A path that ends where another one does adds a slice of the same reading. -/
theorem Sliced.insertSlice (h : Sliced base P s slices) {x : Slice} (hx : x ∈ slices)
    (hTrees : P (s.head x.version).node trees) :
    Sliced base P s (insertSlice ⟨x.version, trees⟩ slices) := by
  have hSorted := pairwise_insertSlice h.sorted (x := ⟨x.version, trees⟩) ⟨x, hx, rfl⟩
  apply Sliced.mk h.nodes h.size h.heads _ hSorted
  · intro y hy
    rcases mem_insertSlice.mp hy with rfl | hOld
    · exact hTrees
    · exact h.paths y hOld
  · intro y hy
    rcases mem_insertSlice.mp hy with rfl | hOld
    · exact h.bounds x hx
    · exact h.bounds y hOld

/-- A path that ends somewhere else adds a reading. -/
theorem Sliced.pushHead (h : Sliced base P s slices) (head : Head) (hTrees : P head.node trees) :
    Sliced base P ⟨s.nodes, s.heads.push head⟩ (slices ++ [⟨s.heads.size, trees⟩]) := by
  constructor
  · exact h.nodes
  · rw [Array.size_push]
    exact Nat.le_succ_of_le h.size
  · intro k hk
    rw [head_pushHead_of_lt s _ (Nat.lt_of_lt_of_le hk h.size), h.heads k hk]
  · intro y hy
    rw [Array.size_push]
    rcases List.mem_append.mp hy with hOld | hNew
    · exact ⟨(h.bounds y hOld).1, Nat.lt_succ_of_lt (h.bounds y hOld).2⟩
    · rw [List.mem_singleton.mp hNew]
      exact ⟨h.size, Nat.lt_succ_self _⟩
  · apply List.pairwise_append.mpr ⟨h.sorted, List.pairwise_singleton _ _, _⟩
    intro y hy z hz
    rw [List.mem_singleton.mp hz]
    exact Nat.le_of_lt (h.bounds y hy).2
  · intro y hy
    rcases List.mem_append.mp hy with hOld | hNew
    · rw [head_pushHead_of_lt s _ (h.bounds y hOld).2]
      exact h.paths y hOld
    · rw [List.mem_singleton.mp hNew]
      simpa [Stack.head, Array.getD_eq_getD_getElem?] using hTrees

/-- By induction on the paths. -/
theorem sliced_slicesOf (parent : Nat) {paths : List Path} (hPaths : ∀ p ∈ paths, P p.node p.trees)
    (h : Sliced base P s slices) :
    Sliced base P (slicesOf parent paths s slices).1 (slicesOf parent paths s slices).2 := by
  induction paths generalizing s slices with
  | nil => exact h
  | cons p paths ih =>
      obtain ⟨hp, hRest⟩ := List.forall_mem_cons.mp hPaths
      rw [slicesOf]
      cases hFound : slices.reverse.find? (fun x => (s.head x.version).node == p.node) with
      | some x =>
          have hx : x ∈ slices := List.mem_reverse.mp (List.mem_of_find?_eq_some hFound)
          have hNode : (s.head x.version).node = p.node := by
            simpa using List.find?_some hFound
          exact ih hRest (h.insertSlice hx (hNode ▸ hp))
      | none => exact ih hRest (h.pushHead _ hp)

end Made

theorem sliced_nil (s : Stack) (P : Nat → List Subtree → Prop) : Sliced s P s [] :=
  ⟨rfl, Nat.le_refl _, fun _ _ => rfl, List.forall_mem_nil _, .nil, List.forall_mem_nil _⟩

theorem sliced_popCount (h : Sound table s) (v count : Nat) :
    Sliced s (PathSound table s (s.state v)) (s.popCount v count).1 (s.popCount v count).2 :=
  sliced_slicesOf v (fun _ hp => pathSound_of_mem_searchFrom h () hp) (sliced_nil s _)

theorem sliced_popAll (h : Sound table s) (v : Nat) :
    Sliced s (PathSound table s (s.state v)) (s.popAll v).1 (s.popAll v).2 :=
  sliced_slicesOf v (fun _ hp => pathSound_of_mem_searchFrom h () hp) (sliced_nil s _)

theorem Sliced.keeps {base : Stack} {P : Nat → List Subtree → Prop} {slices : List Slice}
    (h : Sliced base P s slices) : Keeps base.heads.size base s :=
  keeps_of_heads h.size (fun k hk => by rw [h.heads k hk]) (.of_nodes h.nodes)

theorem nodes_replace (s : Stack) (v w : Nat) : (s.replace v w).nodes = s.nodes := by
  rw [replace]
  split_ifs <;> rfl

/-- A reading that takes the place of an earlier one is where it was. -/
theorem replace_spec {w : Nat} (hw : w < v) (hv : v < s.heads.size) :
    ((s.replace v w).head w).node = (s.head v).node ∧
      (s.replace v w).heads.size + 1 = s.heads.size := by
  obtain ⟨source, hSource, hReplace⟩ : ∃ source : Head, source.node = (s.head v).node ∧
      s.replace v w = Stack.remove ⟨s.nodes, s.heads.setIfInBounds w source⟩ v := by
    rw [replace, if_neg (by simpa using Nat.ne_of_gt hw)]
    exact ⟨{ s.head v with returnPoints := (s.head v).returnPoints.or (s.head w).returnPoints },
      rfl, rfl⟩
  rw [hReplace, head_remove_of_lt _ hw, size_heads_remove, Array.size_setIfInBounds, if_pos hv]
  apply And.intro _ (by omega)
  rw [← hSource, head, Array.getD_eq_getD_getElem?, Array.getElem?_setIfInBounds_self,
    if_pos (Nat.lt_trans hw hv), Option.getD_some]

/-- Where a mistake is taken off a reading that is not after an error, what is taken off is sound
and the reading is not after an error either. -/
theorem popError_spec (h : Sound table s) (hv : v < s.heads.size)
    (hState : s.state v ≠ Table.errorState) :
    (s.popError table v).1.nodes = s.nodes ∧ s.heads.size ≤ (s.popError table v).1.heads.size ∧
      (s.popError table v).1.state v ≠ Table.errorState ∧
      ∀ t ∈ (s.popError table v).2, Subtree.Sound table t := by
  have hNone : s.nodes = s.nodes ∧ s.heads.size ≤ s.heads.size ∧
      s.state v ≠ Table.errorState ∧ ∀ t ∈ ([] : List Subtree), Subtree.Sound table t :=
    ⟨rfl, Nat.le_refl _, hState, List.forall_mem_nil _⟩
  rw [popError]
  split_ifs with hAny
  · split
    next paths memory hSearch =>
      have hPaths : ∀ p ∈ paths, PathSound table s (s.state v) p.node p.trees := by
        intro p hp
        exact pathSound_of_mem_searchFrom h false (by rw [hSearch]; exact hp)
      have hSliced := sliced_slicesOf v hPaths (sliced_nil s _)
      split
      next sliced slice others hSlices =>
        rw [hSlices] at hSliced
        obtain ⟨hFirst, hInside⟩ := hSliced.bounds slice List.mem_cons_self
        obtain ⟨hNode, hTrees⟩ := (hSliced.paths slice List.mem_cons_self).below hState
        obtain ⟨hHead, hSize⟩ := replace_spec (Nat.lt_of_lt_of_le hv hFirst) hInside
        simp only at hFirst hInside hSize ⊢
        refine ⟨(nodes_replace _ _ _).trans hSliced.nodes, by omega, ?_, hTrees⟩
        rw [state, top, hHead, nodeOf_congr ((nodes_replace _ _ _).trans hSliced.nodes)]
        exact hNode
      next => exact hNone
  · exact hNone

end Slices

end JavaOutline.Parsing.Stack
