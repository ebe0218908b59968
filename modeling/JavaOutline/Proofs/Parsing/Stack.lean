import JavaOutline.Parsing.Stack
import JavaOutline.Proofs.Parsing.Subtree

/-! The stack of the parser holds sound trees. Below a state other than the one after an error there
are only such states, and only sound trees between them; what lies above an error need not be sound,
unless it is an extra. This is kept when trees are put on the stack, when readings are joined and
when trees are taken off. -/
namespace JavaOutline.Parsing.Stack

open Automaton Subtree

variable {table : Table} {s s' : Stack} {n v : Nat}

/-- A link that may lead down from a node in the given state. -/
structure LinkSound (table : Table) (s : Stack) (state : Nat) (l : Link) : Prop where
  part : ∀ t, l.tree = some t → Part table t
  below : state ≠ Table.errorState →
    (s.nodeOf l.node).state ≠ Table.errorState ∧ ∃ t, l.tree = some t ∧ Subtree.Sound table t

/-- All links of a stack may lead where they do. -/
def Sound (table : Table) (s : Stack) : Prop :=
  ∀ n, ∀ l ∈ (s.nodeOf n).links, LinkSound table s (s.nodeOf n).state l

/-- States other than the one after an error stay as they are. -/
def KeepsStates (s s' : Stack) : Prop :=
  ∀ n, (s.nodeOf n).state ≠ Table.errorState → (s'.nodeOf n).state = (s.nodeOf n).state

section Nodes

theorem nodeOf_congr (h : s'.nodes = s.nodes) (n : Nat) : s'.nodeOf n = s.nodeOf n := by
  rw [nodeOf, h, nodeOf]

theorem LinkSound.of_keepsStates {state : Nat} {l : Link} (h : LinkSound table s state l)
    (hStates : KeepsStates s s') : LinkSound table s' state l := by
  apply LinkSound.mk h.part
  intro hState
  obtain ⟨hBelow, hTree⟩ := h.below hState
  exact ⟨by rwa [hStates _ hBelow], hTree⟩

/-- Soundness is a matter of the graph; which readings there are does not matter. -/
theorem Sound.of_nodes (h : Sound table s) (hNodes : s'.nodes = s.nodes) : Sound table s' := by
  intro n l hl
  rw [nodeOf_congr hNodes] at hl ⊢
  exact (h n l hl).of_keepsStates fun k _ => by rw [nodeOf_congr hNodes]

theorem KeepsStates.of_nodes (hNodes : s'.nodes = s.nodes) : KeepsStates s s' := by
  intro n _
  rw [nodeOf_congr hNodes]

theorem KeepsStates.trans {s'' : Stack} (h : KeepsStates s s') (h' : KeepsStates s' s'') :
    KeepsStates s s'' := by
  intro n hn
  rw [h' n (by rwa [h n hn]), h n hn]

/-- A node outside of the graph counts as one after an error. -/
theorem lt_size_of_state_ne (h : (s.nodeOf n).state ≠ Table.errorState) : n < s.nodes.size := by
  by_contra hOutside
  rw [nodeOf, Array.getD_eq_getD_getElem?, Array.getElem?_eq_none (Nat.le_of_not_lt hOutside)] at h
  exact h rfl

/-- The graph may be changed node by node, if each keeps its state and has sound links. -/
theorem Sound.update (h : Sound table s) (hStates : ∀ k, (s'.nodeOf k).state = (s.nodeOf k).state)
    (hLinks : ∀ k, ∀ l ∈ (s'.nodeOf k).links,
      l ∈ (s.nodeOf k).links ∨ LinkSound table s (s.nodeOf k).state l) : Sound table s' := by
  intro n l hl
  rw [hStates n]
  have hSound : LinkSound table s (s.nodeOf n).state l := (hLinks n l hl).elim (h n l) id
  exact hSound.of_keepsStates fun k _ => hStates k

theorem nodeOf_setIfInBounds (s : Stack) (n k : Nat) (x : StackNode) (heads : Array Head) :
    Stack.nodeOf ⟨s.nodes.setIfInBounds n x, heads⟩ k =
      if n = k ∧ n < s.nodes.size then x else s.nodeOf k := by
  simp only [nodeOf, Array.getD_eq_getD_getElem?, Array.getElem?_setIfInBounds]
  by_cases hSame : n = k
  · subst hSame
    by_cases hInside : n < s.nodes.size <;> simp [hInside]
  · simp [hSame]

theorem nodeOf_modify (s : Stack) (n k : Nat) (f : StackNode → StackNode) (heads : Array Head) :
    Stack.nodeOf ⟨s.nodes.modify n f, heads⟩ k =
      if n = k ∧ n < s.nodes.size then f (s.nodeOf k) else s.nodeOf k := by
  simp only [nodeOf, Array.getD_eq_getD_getElem?, Array.getElem?_modify]
  by_cases hSame : n = k
  · subst hSame
    by_cases hInside : n < s.nodes.size <;> simp [hInside]
  · simp [hSame]

end Nodes

section Push

variable {tree : Option Subtree} {state : Nat}

theorem nodes_push (table : Table) (s : Stack) (v : Nat) (tree : Option Subtree) (state : Nat) :
    ∃ node : StackNode, (s.push table v tree state).nodes = s.nodes.push node ∧
      node.state = state ∧ node.links = [⟨(s.head v).node, tree⟩] := by
  cases tree with
  | none => exact ⟨_, rfl, rfl, rfl⟩
  | some t => exact ⟨_, rfl, rfl, rfl⟩

theorem keepsStates_push (table : Table) (s : Stack) (v : Nat) (tree : Option Subtree)
    (state : Nat) : KeepsStates s (s.push table v tree state) := by
  intro n hn
  obtain ⟨node, hNodes, -, -⟩ := nodes_push table s v tree state
  have hInside := lt_size_of_state_ne hn
  rw [nodeOf, hNodes, Array.getD_eq_getD_getElem?, Array.getElem?_push_lt hInside, nodeOf,
    Array.getD_eq_getD_getElem?, Array.getElem?_eq_getElem hInside]

/-- A tree may be put on the stack if it is sound or an error follows. -/
theorem Sound.push (h : Sound table s) (hPart : ∀ t, tree = some t → Part table t)
    (hBelow : state ≠ Table.errorState →
      s.state v ≠ Table.errorState ∧ ∃ t, tree = some t ∧ Subtree.Sound table t) :
    Sound table (s.push table v tree state) := by
  intro n l hl
  have hKeeps := keepsStates_push table s v tree state
  obtain ⟨node, hNodes, hState, hLinks⟩ := nodes_push table s v tree state
  have hNode : (s.push table v tree state).nodeOf n =
      if n = s.nodes.size then node else s.nodeOf n := by
    rw [nodeOf, hNodes, Array.getD_eq_getD_getElem?, Array.getElem?_push, nodeOf,
      Array.getD_eq_getD_getElem?]
    split_ifs <;> rfl
  rw [hNode] at hl ⊢
  split_ifs at hl ⊢ with hNew
  · rw [hLinks, List.mem_singleton] at hl
    rw [hl, hState]
    have hLink : LinkSound table s state ⟨(s.head v).node, tree⟩ := ⟨hPart, hBelow⟩
    exact hLink.of_keepsStates hKeeps
  · exact (h n l hl).of_keepsStates hKeeps

theorem head_modify_node (s : Stack) (v k : Nat) {f : Head → Head} (hf : ∀ h, (f h).node = h.node) :
    (Stack.head ⟨s.nodes, s.heads.modify v f⟩ k).node = (s.head k).node := by
  simp only [head, Array.getD_eq_getD_getElem?, Array.getElem?_modify]
  split_ifs with hSame
  · cases s.heads[k]? with
    | none => rfl
    | some h => exact hf h
  · rfl

theorem head_push_of_ne (s : Stack) (tree : Option Subtree) (state : Nat) {k : Nat} (hk : v ≠ k) :
    (s.push table v tree state).head k = s.head k := by
  simp only [push, head, Array.getD_eq_getD_getElem?, Array.getElem?_modify, if_neg hk]

/-- A reading on which a tree was put is in the state it was sent to. -/
theorem state_push (hBefore : s.state v ≠ Table.errorState) (hState : state ≠ Table.errorState) :
    (s.push table v tree state).state v ≠ Table.errorState := by
  obtain ⟨node, hNodes, hNew, -⟩ := nodes_push table s v tree state
  by_cases hInside : v < s.heads.size
  · have hHead : ((s.push table v tree state).head v).node = s.nodes.size := by
      simp only [Stack.push, head, Array.getD_eq_getD_getElem?, Array.getElem?_modify, if_pos,
        Array.getElem?_eq_getElem hInside, Option.map_some, Option.getD_some]
    rw [Stack.state, top, hHead, nodeOf, hNodes, Array.getD_eq_getD_getElem?,
      Array.getElem?_push_size]
    exact fun hError => hState (hNew.symm.trans hError)
  · have hHead : (s.push table v tree state).head v = s.head v := by
      simp [Stack.push, head, Array.getD_eq_getD_getElem?, hInside]
    rw [Stack.state, top, hHead, keepsStates_push table s v tree state _ hBefore]
    exact hBefore

theorem size_heads_push (s : Stack) (v : Nat) (tree : Option Subtree) (state : Nat) :
    (s.push table v tree state).heads.size = s.heads.size := Array.size_modify

end Push

section Joining

variable {link : Link}

/-- A stack that differs from another one in links and sums only. -/
structure Relinks (table : Table) (s s' : Stack) : Prop where
  sound : Sound table s'
  states : ∀ k, (s'.nodeOf k).state = (s.nodeOf k).state
  heads : s'.heads = s.heads

/-- Nodes can be joined only if they are in the same state. -/
theorem state_of_linkFit_eq_joinable {links : List Link} {first i : Nat}
    (h : linkFit s link links first = .joinable i) :
    ∃ k l, i = first + k ∧ links[k]? = some l ∧
      (s.nodeOf l.node).state = (s.nodeOf link.node).state := by
  induction links generalizing first with
  | nil => cases h
  | cons l links ih =>
      have hRest (hFit : linkFit s link links (first + 1) = .joinable i) :
          ∃ k m, i = first + k ∧ (l :: links)[k]? = some m ∧
            (s.nodeOf m.node).state = (s.nodeOf link.node).state := by
        obtain ⟨k, m, hIndex, hm, hState⟩ := ih hFit
        exact ⟨k + 1, m, by omega, hm, hState⟩
      simp only [linkFit] at h
      split_ifs at h with hTrees hNode hJoin
      · cases h
        simp only [Bool.and_eq_true, beq_iff_eq] at hJoin
        exact ⟨0, l, rfl, rfl, hJoin.1.1⟩
      · exact hRest h
      · exact hRest h

theorem Relinks.trans {s'' : Stack} (h : Relinks table s s') (h' : Relinks table s' s'') :
    Relinks table s s'' :=
  ⟨h'.sound, fun k => (h'.states k).trans (h.states k), h'.heads.trans h.heads⟩

/-- If adding one link leaves the stack sound, then so does adding several. -/
theorem relinks_foldl {add : Stack → Link → Stack}
    (hAdd : ∀ s l, Sound table s → LinkSound table s (s.nodeOf n).state l →
      Relinks table s (add s l))
    {links : List Link} (h : Sound table s)
    (hLinks : ∀ l ∈ links, LinkSound table s (s.nodeOf n).state l) :
    Relinks table s (links.foldl add s) := by
  apply List.foldlRecOn (motive := Relinks table s) links add ⟨h, fun _ => rfl, rfl⟩
  intro added hAdded l hl
  have hLink : LinkSound table added (added.nodeOf n).state l := by
    rw [hAdded.states n]
    exact (hLinks l hl).of_keepsStates fun k _ => hAdded.states k
  exact hAdded.trans (hAdd added l hAdded.sound hLink)

theorem relinks_setIfInBounds {x : StackNode} (h : Sound table s)
    (hState : x.state = (s.nodeOf n).state)
    (hLinks : ∀ l ∈ x.links, l ∈ (s.nodeOf n).links ∨ LinkSound table s (s.nodeOf n).state l) :
    Relinks table s ⟨s.nodes.setIfInBounds n x, s.heads⟩ := by
  have hStates (k : Nat) : (Stack.nodeOf ⟨s.nodes.setIfInBounds n x, s.heads⟩ k).state =
      (s.nodeOf k).state := by
    rw [nodeOf_setIfInBounds]
    split_ifs with hChanged
    · rw [← hChanged.1, hState]
    · rfl
  refine ⟨h.update hStates fun k l hl => ?_, hStates, rfl⟩
  rw [nodeOf_setIfInBounds] at hl
  split_ifs at hl with hChanged
  · exact hChanged.1 ▸ hLinks l hl
  · exact .inl hl

theorem relinks_modify {f : StackNode → StackNode} (h : Sound table s)
    (hState : ∀ x, (f x).state = x.state) (hLinks : ∀ x, (f x).links = x.links) :
    Relinks table s ⟨s.nodes.modify n f, s.heads⟩ := by
  have hStates (k : Nat) : (Stack.nodeOf ⟨s.nodes.modify n f, s.heads⟩ k).state =
      (s.nodeOf k).state := by
    rw [nodeOf_modify]
    split_ifs
    · exact hState _
    · rfl
  refine ⟨h.update hStates fun k l hl => .inl ?_, hStates, rfl⟩
  rw [nodeOf_modify] at hl
  split_ifs at hl
  · rwa [hLinks] at hl
  · exact hl

/-- Of two links to one node either may carry the tree. -/
theorem linkSound_of_mem_set {state i : Nat} {links : List Link} {l : Link}
    (hLinks : ∀ m ∈ links, LinkSound table s state m) (hLink : LinkSound table s state link)
    (hl : l ∈ links.set i { links.getD i default with tree := link.tree }) :
    LinkSound table s state l := by
  by_cases hInside : i < links.length
  · rcases List.mem_or_eq_of_mem_set hl with hOld | rfl
    · exact hLinks l hOld
    · refine ⟨hLink.part, fun hState => ⟨?_, (hLink.below hState).2⟩⟩
      rw [List.getD_eq_getElem?_getD, List.getElem?_eq_getElem hInside, Option.getD_some]
      exact ((hLinks _ (List.getElem_mem hInside)).below hState).1
  · rw [List.set_eq_of_length_le (Nat.le_of_not_lt hInside)] at hl
    exact hLinks l hl

/-- A link may be added to a node that it may lead down from. By induction on the budget: where
earlier nodes are joined, they are in the same state, so the links of one may be links of the
other. -/
theorem relinks_addLink (budget : Nat) (h : Sound table s)
    (hLink : LinkSound table s (s.nodeOf n).state link) :
    Relinks table s (addLink table budget s n link) := by
  have hSame : Relinks table s s := ⟨h, fun _ => rfl, rfl⟩
  induction budget generalizing s n link with
  | zero => exact hSame
  | succ budget ih =>
      rw [addLink]
      by_cases hSelf : (link.node == n) = true
      · rw [if_pos hSelf]
        exact hSame
      · rw [if_neg hSelf]
        cases hFit : linkFit s link (s.nodeOf n).links 0 with
        | same i =>
            simp only [hFit]
            split_ifs with hPreferred
            · exact relinks_setIfInBounds h rfl fun l hl =>
                .inr (linkSound_of_mem_set (h n) hLink hl)
            · exact hSame
        | joinable i =>
            obtain ⟨k, l, rfl, hl, hState⟩ := state_of_linkFit_eq_joinable hFit
            have hExisting : (s.nodeOf n).links.getD (0 + k) default = l := by
              rw [Nat.zero_add, List.getD_eq_getElem?_getD, hl, Option.getD_some]
            have hJoined : Relinks table s ((s.nodeOf link.node).links.foldl
                (fun s m => addLink table budget s l.node m) s) := by
              apply relinks_foldl (fun s m hs hm => ih hs hm ⟨hs, fun _ => rfl, rfl⟩) h
              intro m hm
              rw [hState]
              exact h link.node m hm
            simp only [hFit, hExisting]
            exact hJoined.trans (relinks_modify hJoined.sound (fun _ => rfl) fun _ => rfl)
        | new =>
            simp only [hFit]
            split_ifs with hFull
            · exact hSame
            · refine relinks_setIfInBounds h rfl fun l hl => ?_
              rcases List.mem_append.mp hl with hOld | hNew
              · exact .inl hOld
              · rw [List.mem_singleton.mp hNew]
                exact .inr hLink

theorem size_heads_remove (s : Stack) (w : Nat) :
    (s.remove w).heads.size = if w < s.heads.size then s.heads.size - 1 else s.heads.size := by
  rw [remove, Array.eraseIdxIfInBounds]
  split_ifs
  · exact Array.size_eraseIdx _ _
  · rfl

theorem head_remove_of_lt (s : Stack) {w k : Nat} (hk : k < w) :
    (s.remove w).head k = s.head k := by
  rw [remove, Array.eraseIdxIfInBounds]
  split_ifs
  · simp only [head, Array.getD_eq_getD_getElem?, Array.getElem?_eraseIdx, if_pos hk]
  · rfl

/-- Readings are joined only if they are in the same state, so the one may have the links of the
other. The readings before the one that is joined stay where they are. -/
theorem merge?_spec {w : Nat} (h : Sound table s) (hMerge : s.merge? table v w = some s') :
    Sound table s' ∧ KeepsStates s s' ∧ s'.heads.size = (s.remove w).heads.size ∧
      ∀ k < w, (s'.head k).node = (s.head k).node := by
  rw [merge?] at hMerge
  split_ifs at hMerge with hCan
  have hState : (s.top v).state = (s.top w).state := by
    simp only [canMerge, Bool.and_eq_true, beq_iff_eq] at hCan
    exact hCan.1.1.2
  obtain ⟨joined, hJoined⟩ : ∃ joined, (s.top w).links.foldl
      (fun x l => addLink table x.nodes.size x (s.head v).node l) s = joined := ⟨_, rfl⟩
  have hRelinks : Relinks table s joined := by
    rw [← hJoined]
    apply relinks_foldl (fun x l hx hl => relinks_addLink _ hx hl) h
    intro l hl
    rw [show (s.nodeOf (s.head v).node).state = (s.top w).state from hState]
    exact h (s.head w).node l hl
  simp only [hJoined, Option.some.injEq] at hMerge
  have hKeeps : KeepsStates s joined := fun k _ => hRelinks.states k
  subst hMerge
  split_ifs with hError
  · refine ⟨hRelinks.sound.of_nodes rfl, hKeeps.trans (.of_nodes rfl), ?_, fun k hk => ?_⟩
    · simp only [size_heads_remove, Array.size_modify, hRelinks.heads]
    · rw [head_remove_of_lt _ hk]
      refine (head_modify_node joined v k (by intro x; rfl)).trans ?_
      rw [head, head, hRelinks.heads]
  · refine ⟨hRelinks.sound.of_nodes rfl, hKeeps.trans (.of_nodes rfl), ?_, fun k hk => ?_⟩
    · rw [size_heads_remove, size_heads_remove, hRelinks.heads]
    · rw [head_remove_of_lt _ hk, head, head, hRelinks.heads]

end Joining

section Readings

/-- The readings before number `n` are still there, and none of them has come to be after an
error. -/
structure Keeps (n : Nat) (s s' : Stack) : Prop where
  size : n ≤ s'.heads.size
  states : ∀ v < n, s.state v ≠ Table.errorState → s'.state v ≠ Table.errorState

theorem Keeps.trans {s'' : Stack} (h : Keeps n s s') (h' : Keeps n s' s'') : Keeps n s s'' :=
  ⟨h'.size, fun v hv hState => h'.states v hv (h.states v hv hState)⟩

theorem keeps_of_heads (hSize : n ≤ s'.heads.size)
    (hHeads : ∀ k < n, (s'.head k).node = (s.head k).node) (hStates : KeepsStates s s') :
    Keeps n s s' := by
  apply Keeps.mk hSize
  intro v hv hState
  rw [state, top, hHeads v hv, hStates _ hState]
  exact hState

theorem keeps_push (hSize : n ≤ s.heads.size) (hv : n ≤ v) (tree : Option Subtree) (state : Nat) :
    Keeps n s (s.push table v tree state) := by
  apply keeps_of_heads _ _ (keepsStates_push table s v tree state)
  · rwa [size_heads_push]
  · intro k hk
    rw [head_push_of_ne s tree state (by omega)]

theorem keeps_remove (hSize : n ≤ s.heads.size) (hv : n ≤ v) : Keeps n s (s.remove v) := by
  have hStates : KeepsStates s (s.remove v) := .of_nodes rfl
  apply keeps_of_heads _ _ hStates
  · rw [size_heads_remove]
    split_ifs <;> omega
  · intro k hk
    rw [head_remove_of_lt s (by omega)]

theorem keeps_merge? {w : Nat} (h : Sound table s) (hMerge : s.merge? table v w = some s')
    (hSize : n ≤ s.heads.size) (hw : n ≤ w) : Keeps n s s' := by
  obtain ⟨-, hStates, hRemoved, hHeads⟩ := merge?_spec h hMerge
  apply keeps_of_heads _ (fun k hk => hHeads k (Nat.lt_of_lt_of_le hk hw)) hStates
  rw [hRemoved]
  exact (keeps_remove hSize hw).size

end Readings

end JavaOutline.Parsing.Stack
