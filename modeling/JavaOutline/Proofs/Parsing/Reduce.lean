import JavaOutline.Parsing.Reduce
import JavaOutline.Proofs.Parsing.Slice

/-! Completing productions keeps the stack sound. A production is completed only on a reading that
is not after an error, so that its parts are sound; the parent then is, and where a state goes on
after it there is no error below. The readings that there were before stay as they are, so that
several productions can be completed on one of them. -/
namespace JavaOutline.Parsing.Stack

open Automaton Subtree

variable {table : Table} {s s' : Stack} {n v symbol shape state : Nat} {trees : List Subtree}

theorem size_heads_pushAll (s : Stack) (v : Nat) (trees : List Subtree) (state : Nat) :
    (s.pushAll table v trees state).heads.size = s.heads.size := by
  rw [pushAll]
  induction trees generalizing s with
  | nil => rfl
  | cons t trees ih => rw [List.foldl_cons, ih, size_heads_push]

theorem pushAll_spec (h : Sound table s) (hTrees : ∀ t ∈ trees, Subtree.Sound table t)
    (hState : state ≠ Table.errorState → s.state v ≠ Table.errorState) :
    Sound table (s.pushAll table v trees state) ∧
      ∀ n, n ≤ s.heads.size → n ≤ v → Keeps n s (s.pushAll table v trees state) := by
  rw [pushAll]
  induction trees generalizing s with
  | nil => exact ⟨h, fun n hSize _ => ⟨hSize, fun _ _ => id⟩⟩
  | cons t trees ih =>
      obtain ⟨ht, hRest⟩ := List.forall_mem_cons.mp hTrees
      have hPush : Sound table (s.push table v (some t) state) := by
        apply h.push
        · rintro u ⟨⟩
          exact ht.part
        · exact fun hNext => ⟨hState hNext, t, rfl, ht⟩
      obtain ⟨hSound, hKeeps⟩ := ih hPush hRest fun hNext => state_push (hState hNext) hNext
      refine ⟨hSound, fun n hSize hv => ?_⟩
      have hFirst : Keeps n s (s.push table v (some t) state) := keeps_push hSize hv _ _
      exact hFirst.trans (hKeeps n hFirst.size hv)

/-- The parent has sound children, whichever of the rivals is chosen. -/
theorem parentOf_spec (symbol shape : Nat) {rivals : List Slice}
    (hTrees : ∀ t ∈ trees, Subtree.Sound table t)
    (hRivals : ∀ r ∈ rivals, ∀ t ∈ r.trees, Subtree.Sound table t) :
    (∃ children, (∀ c ∈ children, Subtree.Sound table c) ∧
      (parentOf table symbol shape trees rivals).1 = node table symbol children shape) ∧
      ∀ t ∈ (parentOf table symbol shape trees rivals).2, Subtree.Sound table t := by
  have hSplit {parts : List Subtree} (hParts : ∀ t ∈ parts, Subtree.Sound table t) :
      (∃ children, (∀ c ∈ children, Subtree.Sound table c) ∧
        node table symbol (splitTrailingExtras parts).1 shape = node table symbol children shape) ∧
        ∀ t ∈ (splitTrailingExtras parts).2, Subtree.Sound table t :=
    ⟨⟨_, fun c hc => hParts c (mem_of_mem_fst_splitTrailingExtras hc), rfl⟩,
      fun t ht => hParts t (mem_of_mem_snd_splitTrailingExtras ht)⟩
  rw [parentOf]
  have hFirst := hSplit hTrees
  simp only
  generalize node table symbol (splitTrailingExtras trees).1 shape = parent at hFirst ⊢
  generalize (splitTrailingExtras trees).2 = extras at hFirst ⊢
  induction rivals generalizing parent extras with
  | nil => exact hFirst
  | cons r rivals ih =>
      obtain ⟨hr, hRest⟩ := List.forall_mem_cons.mp hRivals
      rw [List.foldl_cons]
      simp only
      split_ifs
      · exact ih hRest _ _ (hSplit hr)
      · exact ih hRest _ _ hFirst

theorem exists_merge?_of_mergeIntoEarlier? {except w budget j : Nat}
    (h : s.mergeIntoEarlier? table except w budget j = some s') :
    ∃ k, s.merge? table k w = some s' := by
  induction budget generalizing j with
  | zero => cases h
  | succ budget ih =>
      rw [mergeIntoEarlier?] at h
      split_ifs at h
      · exact ih h
      · split at h
        next merged hMerge => exact ⟨j, hMerge.trans h⟩
        next => exact ih h

/-- A parent of sound parts may be put on a reading: a state that goes on after it is not after an
error, and neither was the state before. -/
theorem push_parent_spec (hTable : table.WellFormed) (h : Sound table s) {parent : Subtree}
    {extras : List Subtree}
    (hParent : ∃ children, (∀ c ∈ children, Subtree.Sound table c) ∧
      parent = node table symbol children shape)
    (hExtras : ∀ t ∈ extras, Subtree.Sound table t) (dynamic : Int) (v : Nat)
    (hState : state = table.next (s.state v) symbol) :
    Sound table ((s.push table v (some (parent.addDynamic dynamic)) state).pushAll table v extras
        state) ∧
      ∀ n, n ≤ s.heads.size → n ≤ v →
        Keeps n s ((s.push table v (some (parent.addDynamic dynamic)) state).pushAll table v extras
          state) := by
  obtain ⟨children, hChildren, rfl⟩ := hParent
  have hBelow : state ≠ Table.errorState → s.state v ≠ Table.errorState := by
    intro hNext hError
    rw [hState, hError, hTable.next_errorState] at hNext
    exact hNext rfl
  have hPush : Sound table
      (s.push table v (some ((node table symbol children shape).addDynamic dynamic)) state) := by
    apply h.push
    · rintro t ⟨⟩
      exact (part_node symbol children shape).addDynamic dynamic
    · intro hNext
      have hRun : symbol ≠ table.errorRun := by
        rintro rfl
        exact hNext (hState.trans (hTable.next_errorRun _))
      exact ⟨hBelow hNext, _, rfl, (sound_node hTable hRun hChildren).addDynamic dynamic⟩
  obtain ⟨hSound, hKeeps⟩ := pushAll_spec (v := v) hPush hExtras fun hNext =>
    state_push (hBelow hNext) hNext
  refine ⟨hSound, fun n hSize hv => ?_⟩
  have hFirst : Keeps n s
      (s.push table v (some ((node table symbol children shape).addDynamic dynamic)) state) :=
    keeps_push hSize hv _ _
  exact hFirst.trans (hKeeps n hFirst.size hv)

/-- Behind the slices of one version come those of later versions. -/
theorem lt_of_mem_dropWhile {version : Nat} {slices : List Slice}
    (hSorted : slices.Pairwise fun x y => x.version ≤ y.version)
    (hFirst : ∀ x ∈ slices, version ≤ x.version) :
    ∀ x ∈ slices.dropWhile (fun x => x.version == version), version < x.version := by
  induction slices with
  | nil => exact List.forall_mem_nil _
  | cons y slices ih =>
      obtain ⟨hNext, hRest⟩ := List.pairwise_cons.mp hSorted
      obtain ⟨hy, hLater⟩ := List.forall_mem_cons.mp hFirst
      rw [List.dropWhile_cons]
      split_ifs with hSame
      · exact ih hRest hLater
      · have hLess : version < y.version := by
          rw [beq_iff_eq] at hSame
          omega
        exact List.forall_mem_cons.mpr ⟨hLess, fun x hx => Nat.lt_of_lt_of_le hLess (hNext x hx)⟩

/-- By induction on the slices that are left. Each new reading comes after the `n` that there were,
also when some of them have been dropped or joined, since the slices come reading by reading. -/
theorem reduceSlices_spec (hTable : table.WellFormed) (version symbol shape : Nat) (dynamic : Int)
    (room budget : Nat) {slices : List Slice} (removed : Nat) (h : Sound table s)
    (hTrees : ∀ x ∈ slices, ∀ t ∈ x.trees, Subtree.Sound table t)
    (hSorted : slices.Pairwise fun x y => x.version ≤ y.version)
    (hVersions : ∀ x ∈ slices, n + removed ≤ x.version) (hSize : n ≤ s.heads.size) :
    Sound table (reduceSlices table version symbol shape dynamic room budget slices removed s) ∧
      Keeps n s (reduceSlices table version symbol shape dynamic room budget slices removed s) := by
  have hSame (s : Stack) (hSize : n ≤ s.heads.size) : Keeps n s s := ⟨hSize, fun _ _ => id⟩
  induction budget generalizing slices removed s with
  | zero => exact ⟨h, hSame s hSize⟩
  | succ budget ih =>
      cases slices with
      | nil => exact ⟨h, hSame s hSize⟩
      | cons slice rest =>
          obtain ⟨hSlice, hRest⟩ := List.forall_mem_cons.mp hTrees
          obtain ⟨hFirst, hLater⟩ := List.pairwise_cons.mp hSorted
          have hVersion : n + removed ≤ slice.version := hVersions slice List.mem_cons_self
          have hOthers := lt_of_mem_dropWhile hLater hFirst
          have hDropped := List.dropWhile_sublist (fun x : Slice => x.version == slice.version)
            (l := rest)
          -- What is left to do once this slice is dealt with.
          have hGoOn {s' : Stack} {removed' : Nat} (hSound : Sound table s') (hKeeps : Keeps n s s')
              (hRemoved : removed' ≤ removed + 1) :
              Sound table (reduceSlices table version symbol shape dynamic room budget
                  (rest.dropWhile fun x => x.version == slice.version) removed' s') ∧
                Keeps n s (reduceSlices table version symbol shape dynamic room budget
                  (rest.dropWhile fun x => x.version == slice.version) removed' s') := by
            have hLeft : ∀ x ∈ rest.dropWhile (fun x => x.version == slice.version),
                n + removed' ≤ x.version := by
              intro x hx
              have hLess := hOthers x hx
              omega
            obtain ⟨hDone, hKept⟩ := ih _ hSound (fun x hx => hRest x (hDropped.subset hx))
              (hLater.sublist hDropped) hLeft hKeeps.size
            exact ⟨hDone, hKeeps.trans hKept⟩
          rw [reduceSlices]
          by_cases hRoom : slice.version - removed > room
          · simp only [if_pos hRoom]
            exact hGoOn (h.of_nodes rfl) (keeps_remove hSize (by omega)) (Nat.le_refl _)
          · simp only [if_neg hRoom]
            obtain ⟨hParent, hExtras⟩ := parentOf_spec symbol shape hSlice
              fun r hr => hRest r ((List.takeWhile_sublist _).subset hr)
            obtain ⟨hPushed, hKeeps⟩ := push_parent_spec hTable h hParent hExtras dynamic
              (slice.version - removed) rfl
            have hKeeps := hKeeps n hSize (by omega)
            split
            next merged hMerge =>
              obtain ⟨k, hMerge⟩ := exists_merge?_of_mergeIntoEarlier? hMerge
              exact hGoOn (merge?_spec hPushed hMerge).1
                (hKeeps.trans (keeps_merge? hPushed hMerge hKeeps.size (by omega))) (Nat.le_refl _)
            next => exact hGoOn hPushed hKeeps (Nat.le_succ _)

/-- Completing a production on a reading that is not after an error keeps the stack sound, and
leaves the readings that there were. -/
theorem reduce_spec (hTable : table.WellFormed) (h : Sound table s)
    (hState : s.state v ≠ Table.errorState) (r : Reduction) :
    Sound table (s.reduce table v r).1 ∧ Keeps s.heads.size s (s.reduce table v r).1 := by
  have hSliced := sliced_popCount h v r.count
  rw [reduce]
  obtain ⟨hSound, hKeeps⟩ := reduceSlices_spec hTable v r.construct r.shape r.dynamic
    (versionLimit + versionOverflow + (s.popCount v r.count).1.haltedCount)
    ((s.popCount v r.count).2.length + 1) 0 (h.of_nodes hSliced.nodes)
    (fun x hx => ((hSliced.paths x hx).below hState).2) hSliced.sorted
    (fun x hx => (hSliced.bounds x hx).1) hSliced.size
  exact ⟨hSound, hSliced.keeps.trans hKeeps⟩

/-- The reading that a reduction names is the first new one. -/
theorem eq_of_reduce_eq_some {r : Reduction} {w : Nat} (h : (s.reduce table v r).2 = some w) :
    w = s.heads.size ∧ w < (s.reduce table v r).1.heads.size := by
  rw [reduce] at h ⊢
  simp only at h ⊢
  split_ifs at h with hMore
  obtain rfl := Option.some.inj h
  exact ⟨rfl, hMore⟩

/-- After an error there is nothing to complete. -/
theorem possibleActions_errorState (hTable : table.WellFormed) (tokens : List Nat) :
    (possibleActions table Table.errorState tokens).2 = [] := by
  rw [possibleActions]
  apply List.foldlRecOn (motive := fun acc : Bool × List Reduction => acc.2 = []) tokens _ rfl
  intro acc hAcc token _
  apply List.foldlRecOn (motive := fun acc : Bool × List Reduction => acc.2 = []) _ _ hAcc
  intro acc hAcc a ha
  rcases hTable.actions_errorState token a ha with rfl | rfl
  · exact hAcc
  · exact hAcc

theorem exists_merge?_of_mergeIntoRecent? {w budget j : Nat}
    (h : s.mergeIntoRecent? table w budget j = some s') : ∃ k, s.merge? table k w = some s' := by
  induction budget generalizing j with
  | zero => cases h
  | succ budget ih =>
      rw [mergeIntoRecent?] at h
      split_ifs at h
      split at h
      next merged hMerge => exact ⟨j, hMerge.trans h⟩
      next => exact ih h

/-- Several productions are completed on one reading, which is not after an error all the while. -/
theorem sound_foldl_reduce (hTable : table.WellFormed) (h : Sound table s) (hv : v < s.heads.size)
    (hState : s.state v ≠ Table.errorState) (reductions : List Reduction) (made : Option Nat) :
    Sound table (reductions.foldl
      (fun (acc : Stack × Option Nat) r => acc.1.reduce table v r) (s, made)).1 := by
  induction reductions generalizing s made with
  | nil => exact h
  | cons r reductions ih =>
      obtain ⟨hSound, hKeeps⟩ := reduce_spec hTable h hState r
      rw [List.foldl_cons]
      exact ih hSound (Nat.lt_of_lt_of_le hv hKeeps.size) (hKeeps.states v hv hState) _

theorem sound_reduceEverywhere (hTable : table.WellFormed) (start token before budget round : Nat)
    {found : Bool} (h : Sound table s) :
    Sound table (reduceEverywhere table start token before budget round v found s).1 := by
  induction budget generalizing round v found s with
  | zero => exact h
  | succ budget ih =>
      rw [reduceEverywhere]
      by_cases hLast : v ≥ s.heads.size
      · rw [if_pos hLast]
        exact h
      · simp only [if_neg hLast]
        split
        next merged hMerge =>
          obtain ⟨k, hMerge⟩ := exists_merge?_of_mergeIntoRecent? hMerge
          exact ih _ (merge?_spec h hMerge).1
        next =>
          have hReduced (tokens : List Nat) :
              Sound table ((possibleActions table (s.state v) tokens).2.foldl
                (fun (acc : Stack × Option Nat) r => acc.1.reduce table v r) (s, none)).1 := by
            by_cases hState : s.state v = Table.errorState
            · rw [hState, possibleActions_errorState hTable]
              exact h
            · exact sound_foldl_reduce hTable h (Nat.lt_of_not_le hLast) hState _ none
          replace hReduced := hReduced
            (if (token != 0) = true then [token] else (List.range table.tokenCount).drop 1)
          revert hReduced
          generalize List.foldl _ _ _ = reduced
          obtain ⟨done, made⟩ := reduced
          intro hDone
          -- Whether the reading goes on, is replaced or is dropped changes nothing in the graph.
          have hRemoved : Sound table (done.remove v) := Sound.of_nodes hDone rfl
          simp only
          cases made with
          | none => split_ifs <;> first | exact ih _ hDone | exact ih _ hRemoved
          | some w =>
              have hReplaced : Sound table (done.replace w v) :=
                Sound.of_nodes hDone (nodes_replace _ _ _)
              split_ifs <;> first | exact ih _ hDone | exact ih _ hRemoved | exact ih _ hReplaced

theorem sound_reduceAll (hTable : table.WellFormed) (h : Sound table s) (v token : Nat) :
    Sound table (s.reduceAll table v token).1 :=
  sound_reduceEverywhere hTable _ _ _ _ _ h

end JavaOutline.Parsing.Stack
