import JavaOutline.Parsing.Recover
import JavaOutline.Proofs.Parsing.Reduce

/-! Recovery keeps a parse sound. What is skipped becomes a mistake that shows, with a price of its
own, before a reading goes on in a state that is not after an error; a token that is assumed shows
too. Until then whatever was read since the error lies above it on the stack. -/
namespace JavaOutline.Parsing

open Automaton Subtree

variable {table : Table} {s s' : Stack} {v : Nat} {trees : List Subtree} {lookahead : Subtree}

namespace Stack

theorem nodes_settleCount (s : Stack) (v : Nat) : (s.settleCount v).nodes = s.nodes := by
  rw [settleCount]
  split_ifs <;> rfl

theorem nodes_standing (s : Stack) (v : Nat) : (s.standing v).1.nodes = s.nodes :=
  nodes_settleCount s v

theorem nodes_betterFrom (mine : Standing) (budget i : Nat) :
    (s.betterFrom v mine budget i).1.nodes = s.nodes := by
  induction budget generalizing i s with
  | zero => rfl
  | succ budget ih =>
      have hNodes := nodes_standing s i
      rw [betterFrom]
      cases hStanding : s.standing i with
      | mk settled theirs =>
          rw [hStanding] at hNodes
          simp only
          cases mine.compare theirs <;> simp only <;> split_ifs <;>
            first | rfl | exact ih _ | exact hNodes | exact (ih _).trans hNodes

theorem nodes_recordReturnPoints (s : Stack) (v depth : Nat) :
    (s.recordReturnPoints v depth).nodes = s.nodes := by
  rw [recordReturnPoints]

end Stack

namespace Parse

/-- The stack of a parse is sound, and so is what it has found. -/
structure Sound (table : Table) (p : Parse) : Prop where
  stack : p.stack.Sound table
  cache : ∀ bytes t, p.cache = some (bytes, t) → IsToken t
  finished : ∀ t, p.finished = some t → Settled table t

variable {p : Parse}

theorem Sound.withStack (h : Sound table p) (hStack : Stack.Sound table s) :
    Sound table { p with stack := s } :=
  ⟨hStack, h.cache, h.finished⟩

theorem Sound.of_nodes (h : Sound table p) (hNodes : s.nodes = p.stack.nodes) :
    Sound table { p with stack := s } :=
  h.withStack (h.stack.of_nodes hNodes)

theorem sound_betterExists (h : Sound table p) (v : Nat) (inError : Bool) (cost : Nat) :
    Sound table (p.betterExists v inError cost).1 := by
  rw [betterExists]
  simp only
  split_ifs
  · exact h
  · exact h.of_nodes ((Stack.nodes_betterFrom _ _ _).trans (Stack.nodes_settleCount _ _))

/-- A complete reading that is not after an error has a sound tree, unless all of it is a
mistake. -/
theorem settled_of_rootOf (hTable : table.WellFormed) (hTrees : ∀ t ∈ trees, Subtree.Sound table t)
    {ending root : Subtree} (hEnding : Subtree.Sound table ending)
    (h : rootOf table trees ending = some root) : Settled table root := by
  rw [rootOf] at h
  simp only at h
  split at h
  · cases h
  next last hLast =>
    have hParts : ∀ t ∈ (splitTrailingExtras trees).1, Subtree.Sound table t :=
      fun t ht => hTrees t (mem_of_mem_fst_splitTrailingExtras ht)
    have hWhole : Subtree.Sound table last := hParts last (List.mem_of_getLast? hLast)
    obtain rfl := Option.some.inj h
    by_cases hError : last.symbol = table.error
    · rw [hError]
      exact settled_node_error _ _
    · refine .inr (sound_node hTable (hWhole.symbol_ne_errorRun hTable) fun c hc => ?_)
      simp only [List.mem_append, List.mem_singleton] at hc
      rcases hc with ((hBefore | hChild) | hExtra) | rfl
      · exact hParts c (List.dropLast_subset _ hBefore)
      · exact hWhole.of_mem_children hError hChild
      · exact hTrees c (mem_of_mem_snd_splitTrailingExtras hExtra)
      · exact hEnding

/-- A complete reading that ends in a mistake is a mistake as a whole. -/
theorem settled_of_rootOf_error {ending root : Subtree}
    (h : rootOf table (trees ++ [node table table.error [] 0]) ending = some root) :
    Settled table root := by
  rw [rootOf, splitTrailingExtras_concat (extra_node _ _ _)] at h
  simp only [List.getLast?_append_cons, List.getLast?_singleton, symbol_node] at h
  obtain rfl := Option.some.inj h
  exact settled_node_error _ _

theorem sound_accept (h : Sound table p) {closing : List Subtree} {ending : Subtree}
    (hRoot : ∀ trees, (p.stack.state v ≠ Table.errorState → ∀ t ∈ trees, Subtree.Sound table t) →
      ∀ root, rootOf table (trees ++ closing) ending = some root → Settled table root) :
    Sound table (p.accept table v closing ending) := by
  have hSliced := Stack.sliced_popAll h.stack v
  rw [accept]
  simp only
  apply Sound.withStack
  · apply List.foldlRecOn (motive := fun q => Sound table q) _ _ h
    intro q hq x hx
    split
    · exact hq
    next root hFound =>
      have hNew : Settled table root :=
        hRoot x.trees (fun hState => ((hSliced.paths x hx).below hState).2) root hFound
      refine ⟨hq.stack, hq.cache, fun t ht => ?_⟩
      simp only [Option.some.injEq] at ht
      rw [← ht]
      split
      · exact hNew
      next old hOld =>
        split_ifs
        · exact hNew
        · exact hq.finished old hOld
  · split
    · exact (h.stack.of_nodes hSliced.nodes).of_nodes rfl
    · exact (h.stack.of_nodes hSliced.nodes).of_nodes rfl

/-- What is skipped becomes a mistake on top of a state that is not after an error. The extras at
its end are put back, and they are sound. -/
theorem sound_pushSkipped {goal : Nat} (h : Stack.Sound table s) (hGoal : goal ≠ Table.errorState)
    (hState : s.state v ≠ Table.errorState) (hParts : ∀ t ∈ trees, Part table t) :
    Stack.Sound table
      ((if (splitTrailingExtras trees).1.isEmpty then s
        else s.push table v
          (some ((node table table.error (splitTrailingExtras trees).1 0).withExtra true))
          goal).pushAll table v (splitTrailingExtras trees).2 goal) := by
  have hExtras : ∀ t ∈ (splitTrailingExtras trees).2, Subtree.Sound table t := fun t ht =>
    hParts t (mem_of_mem_snd_splitTrailingExtras ht) (extra_of_mem_splitTrailingExtras ht)
  split_ifs with hNothing
  · exact (Stack.pushAll_spec h hExtras fun _ => hState).1
  · have hMistake : Subtree.Sound table
        ((node table table.error (splitTrailingExtras trees).1 0).withExtra true) := by
      apply Subtree.Sound.withExtra
      exact sound_node_error fun c hc => hParts c (mem_of_mem_fst_splitTrailingExtras hc)
    have hPush : Stack.Sound table (s.push table v
        (some ((node table table.error (splitTrailingExtras trees).1 0).withExtra true)) goal) := by
      apply h.push
      · rintro t ⟨⟩
        exact hMistake.part
      · exact fun _ => ⟨hState, _, rfl, hMistake⟩
    exact (Stack.pushAll_spec hPush hExtras fun _ => Stack.state_push hState hGoal).1

theorem sound_returnSlices {goal : Nat} (hGoal : goal ≠ Table.errorState)
    {slices : List Stack.Slice} (previous : Option Nat) (h : Stack.Sound table s)
    (hSlices : ∀ x ∈ slices, x.version < s.heads.size ∧ ∀ t ∈ x.trees, Part table t) :
    Stack.Sound table (returnSlices table goal slices previous s).1 := by
  induction slices generalizing previous s with
  | nil => exact h
  | cons x slices ih =>
      obtain ⟨⟨hVersion, hTrees⟩, hRest⟩ := List.forall_mem_cons.mp hSlices
      have hGoOn {s' : Stack} {previous' : Option Nat} (hSound : Stack.Sound table s')
          (hSize : s.heads.size ≤ s'.heads.size) :
          Stack.Sound table (returnSlices table goal slices previous' s').1 :=
        ih previous' hSound fun y hy =>
          ⟨Nat.lt_of_lt_of_le (hRest y hy).1 hSize, (hRest y hy).2⟩
      rw [returnSlices]
      by_cases hPrevious : (previous == some x.version) = true
      · rw [if_pos hPrevious]
        exact hGoOn h (Nat.le_refl _)
      · rw [if_neg hPrevious]
        by_cases hOther : (s.state x.version != goal) = true
        · rw [if_pos hOther]
          exact hGoOn (h.of_nodes rfl) (Nat.le_of_eq Array.size_modify.symm)
        · rw [if_neg hOther]
          have hState : s.state x.version ≠ Table.errorState := by
            rw [show s.state x.version = goal by simpa using hOther]
            exact hGoal
          obtain ⟨hNodes, hSize, hPopped, hErrors⟩ := Stack.popError_spec h hVersion hState
          cases hPop : s.popError table x.version with
          | mk popped errors =>
              rw [hPop] at hNodes hSize hPopped hErrors
              have hSkipped : ∀ t ∈ errors.flatMap Subtree.children ++ x.trees, Part table t := by
                intro t ht
                rcases List.mem_append.mp ht with hInner | hTree
                · obtain ⟨e, he, hChild⟩ := List.mem_flatMap.mp hInner
                  exact (hErrors e he).part_of_mem_children hChild
                · exact hTrees t hTree
              apply hGoOn (sound_pushSkipped (h.of_nodes hNodes) hGoal hPopped hSkipped)
              rw [Stack.size_heads_pushAll]
              split_ifs
              · exact hSize
              · rwa [Stack.size_heads_push]

theorem sound_returnTo (h : Sound table p) (v depth : Nat) {goal : Nat}
    (hGoal : goal ≠ Table.errorState) : Sound table (p.returnTo table v depth goal).1 := by
  have hSliced := Stack.sliced_popCount h.stack v depth
  apply h.withStack
  apply sound_returnSlices hGoal none (h.stack.of_nodes hSliced.nodes)
  exact fun x hx => ⟨(hSliced.bounds x hx).2, (hSliced.paths x hx).parts⟩

theorem sound_tryReturns (h : Sound table p) (v : Nat) (lookahead : Subtree) (count : Nat)
    (progress : Bool) (cost : Nat) (points : List ReturnPoint) :
    Sound table (tryReturns table v lookahead count progress cost points p).1 := by
  induction points generalizing p with
  | nil => exact h
  | cons e points ih =>
      rw [tryReturns]
      by_cases hSkip : (e.state == Table.errorState ||
          e.position.bytes == (p.stack.position v).bytes) = true
      · simp only [if_pos hSkip]
        exact ih h
      · have hGoal : e.state ≠ Table.errorState := by
          intro hError
          simp [hError] at hSkip
        simp only [if_neg hSkip]
        generalize (if progress = true then e.depth + 1 else e.depth) = depth
        split_ifs with hRedundant hBetter hAccepts hDone
        · exact ih h
        · exact sound_betterExists h _ _ _
        · exact sound_returnTo (sound_betterExists h _ _ _) _ _ hGoal
        · exact ih (sound_returnTo (sound_betterExists h _ _ _) _ _ hGoal)
        · exact ih (sound_betterExists h _ _ _)

theorem nodes_dropInactive (budget i : Nat) (s : Stack) :
    (dropInactive budget i s).nodes = s.nodes := by
  induction budget generalizing i s with
  | zero => rfl
  | succ budget ih =>
      rw [dropInactive]
      split_ifs
      · rfl
      · exact ih _ _
      · exact ih _ _

/-- A skipped token goes on top of an error. -/
theorem sound_skip (h : Sound table p) (v : Nat) (lookahead : Subtree) (joinRun : Bool) :
    Sound table (p.skip table v lookahead joinRun) := by
  have hPush {s' : Stack} (hNodes : s'.nodes = p.stack.nodes) (parts : List Subtree) :
      Sound table { p with
        stack := s'.push table v (some (node table table.errorRun parts 0)) Table.errorState } := by
    apply h.withStack
    apply (h.stack.of_nodes hNodes).push
    · rintro t ⟨⟩
      exact part_node _ _ _
    · exact fun hNever => absurd rfl hNever
  have hSliced := Stack.sliced_popCount h.stack v 1
  rw [skip]
  cases joinRun with
  | false => exact hPush rfl _
  | true =>
      cases hPop : p.stack.popCount v 1 with
      | mk popped slices =>
          rw [hPop] at hSliced
          cases slices with
          | nil => exact hPush hSliced.nodes _
          | cons x slices =>
              have hNodes := Stack.nodes_replace ⟨popped.nodes, popped.heads.take (x.version + 1)⟩
                x.version v
              exact hPush (hNodes.trans hSliced.nodes) _

theorem sound_returnAnywhere (h : Sound table p) (v : Nat) (lookahead : Subtree) (count : Nat)
    (progress : Bool) (cost : Nat) :
    Sound table (returnAnywhere table v lookahead count progress cost p).1 := by
  rw [returnAnywhere]
  split
  · split_ifs
    · exact h
    · exact sound_tryReturns h _ _ _ _ _ _
  · exact h

theorem sound_recover (h : Sound table p) (v : Nat) (lookahead : Subtree) :
    Sound table (p.recover table v lookahead) := by
  have hSettled : Sound table { p with stack := p.stack.settleCount v } :=
    h.of_nodes (Stack.nodes_settleCount _ _)
  have hReturned := sound_returnAnywhere hSettled v lookahead p.stack.heads.size
    ((p.stack.settleCount v).countSinceError v > 0) ((p.stack.settleCount v).cost v)
  rw [recover]
  simp only
  revert hReturned
  generalize returnAnywhere _ _ _ _ _ _ _ = returned
  intro hReturned
  have hDropped : Sound table { returned.1 with
      stack := dropInactive (2 * returned.1.stack.heads.size + 2) p.stack.heads.size
        returned.1.stack } :=
    hReturned.of_nodes (nodes_dropInactive _ _ _)
  split_ifs with hFinish hFull hBetter
  · exact sound_accept hDropped fun trees _ root hRoot => settled_of_rootOf_error hRoot
  · exact hDropped.of_nodes rfl
  · exact (sound_betterExists hDropped _ _ _).of_nodes rfl
  · exact sound_skip (sound_betterExists hDropped _ _ _) _ _ _

/-- A token may be assumed where a state goes on after it, since then the state is not after an
error. -/
theorem sound_assumeMissing (hTable : table.WellFormed) (h : Stack.Sound table s)
    (v lookahead : Nat) {tokens : List Nat} (hTokens : ∀ token ∈ tokens, token ∈ table.assumable) :
    Stack.Sound table (assumeMissing table v lookahead tokens s).1 := by
  induction tokens generalizing s with
  | nil => exact h
  | cons token tokens ih =>
      obtain ⟨hToken, hRest⟩ := List.forall_mem_cons.mp hTokens
      rw [assumeMissing]
      by_cases hSkip : (table.next (s.state v) token == Table.errorState ||
          table.next (s.state v) token == s.state v ||
          !table.reducesOn (table.next (s.state v) token) lookahead) = true
      · simp only [if_pos hSkip]
        exact ih h hRest
      · have hNext : table.next (s.state v) token ≠ Table.errorState := by
          intro hError
          simp [hError] at hSkip
        have hState : s.state v ≠ Table.errorState := by
          intro hError
          rw [hError, hTable.next_errorState] at hNext
          exact hNext rfl
        have hCopied : (s.copy v).1.state (s.copy v).2 = s.state v := by
          simp [Stack.copy, Stack.state, Stack.top, Stack.head, Stack.nodeOf,
            Array.getD_eq_getD_getElem?]
        have hAssumed : Stack.Sound table ((s.copy v).1.push table (s.copy v).2
            (some (missingLeaf token)) (table.next (s.state v) token)) := by
          apply (h.of_nodes (show (s.copy v).1.nodes = s.nodes from rfl)).push
          · rintro t ⟨⟩
            exact (sound_missingLeaf hTable hToken).part
          · exact fun _ => ⟨hCopied ▸ hState, _, rfl, sound_missingLeaf hTable hToken⟩
        have hReduced := Stack.sound_reduceAll hTable hAssumed (s.copy v).2 lookahead
        simp only [if_neg hSkip]
        split_ifs with hFound
        · exact hReduced
        · exact ih hReduced hRest

/-- The mark of an error may be put on any reading. -/
theorem sound_markErrors (hTable : table.WellFormed) (h : Stack.Sound table s)
    (lookahead origin first stop budget v : Nat) (assumed : Bool) :
    Stack.Sound table (markErrors table lookahead origin first stop budget v assumed s) := by
  induction budget generalizing v assumed s with
  | zero => exact h
  | succ budget ih =>
      have hMark {s' : Stack} (hs' : Stack.Sound table s') :
          Stack.Sound table (s'.push table v none Table.errorState) := by
        apply hs'.push
        · rintro t ⟨⟩
        · exact fun hNever => absurd rfl hNever
      rw [markErrors]
      by_cases hStop : v ≥ stop
      · rw [if_pos hStop]
        exact h
      · rw [if_neg hStop]
        cases assumed with
        | true => exact ih (hMark h) _ _
        | false => exact ih (hMark (sound_assumeMissing hTable h v lookahead fun _ => id)) _ _

theorem sound_joinErrors (h : Stack.Sound table s) (v first count : Nat) :
    Stack.Sound table (joinErrors table v first count s) := by
  induction count generalizing s with
  | zero => exact h
  | succ count ih =>
      rw [joinErrors]
      split
      next merged hMerge => exact ih (Stack.merge?_spec h hMerge).1
      next => exact ih h

theorem sound_handleError (hTable : table.WellFormed) (h : Sound table p) (v : Nat)
    (lookahead : Subtree) : Sound table (p.handleError table v lookahead) := by
  have hReduced := Stack.sound_reduceAll hTable h.stack v 0
  rw [handleError]
  simp only
  apply sound_recover
  apply h.withStack
  apply Stack.Sound.of_nodes _ (Stack.nodes_recordReturnPoints _ _ _)
  exact sound_joinErrors (sound_markErrors hTable hReduced _ _ _ _ _ _ _) _ _ _

end Parse

end JavaOutline.Parsing
