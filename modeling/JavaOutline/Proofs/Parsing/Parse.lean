import JavaOutline.Parsing.Parse
import JavaOutline.Proofs.Parsing.Recover

/-! The tree of a text is sound, whatever the text is and however it was read. Every step of the
parser keeps the parse sound: a token is read and a production is completed only on a reading that
is not after an error, and everything else is recovery. -/
namespace JavaOutline.Parsing

open Automaton Subtree

variable {table : Table} {v : Nat}

section Tokens

theorem isToken_tokenOf (src : Source) (state : Nat) (origin : Extent) (r : Source.Reading)
    (scanned : Lexing.Scanned) (stop : Extent) :
    IsToken (tokenOf table src state origin r scanned stop) := by
  rw [tokenOf]
  simp only
  split_ifs
  · split
    · exact isToken_leaf _ _ _ _ _
    · split_ifs
      · exact isToken_leaf _ _ _ _ _
      · exact isToken_leaf _ _ _ _ _
  · exact isToken_leaf _ _ _ _ _

theorem isToken_lookahead (table : Table) (src : Source) (state : Nat) (origin : Extent) :
    IsToken (lookahead table src state origin) := by
  rw [lookahead]
  simp only
  split
  · exact isToken_tokenOf _ _ _ _ _ _
  · split
    · exact isToken_tokenOf _ _ _ _ _ _
    · exact isToken_leaf _ _ _ _ _

end Tokens

namespace Parse

variable {p : Parse} {token : Subtree}

theorem isToken_of_cached? (h : Sound table p) {state bytes : Nat}
    (hCached : p.cached? table state bytes = some token) : IsToken token := by
  rw [cached?] at hCached
  split at hCached
  · cases hCached
  next place found hCache =>
    have hFound : IsToken found := h.cache place found hCache
    simp only at hCached
    split_ifs at hCached <;> exact Option.some.inj hCached ▸ hFound

/-- The actions of a state on a token keep a parse sound. That the reading is not after an error
holds as long as productions are completed on it, so it still holds when the token is read. -/
theorem perform_spec (hTable : table.WellFormed) (hToken : IsToken token) {actions : List Action}
    (outcome : Outcome) (h : Sound table p) (hv : v < p.stack.heads.size)
    (hSymbol : ∀ a ∈ actions, token.symbol < table.tokenCount)
    (hState : p.stack.state v ≠ Table.errorState ∨ ∀ a ∈ actions, a = .shiftExtra ∨ a = .recover)
    (hOutcome : ∀ w, outcome = .reduced (some w) → v < w ∧ w < p.stack.heads.size) :
    Sound table (perform table v token actions outcome p).1 ∧
      ((perform table v token actions outcome p).2 = .done ∨
        v < (perform table v token actions outcome p).1.stack.heads.size ∧
          ∀ w, (perform table v token actions outcome p).2 = .reduced (some w) →
            v < w ∧ w < (perform table v token actions outcome p).1.stack.heads.size) := by
  induction actions generalizing outcome p with
  | nil => exact ⟨h, .inr ⟨hv, hOutcome⟩⟩
  | cons a actions ih =>
      obtain ⟨hRead, hSymbols⟩ := List.forall_mem_cons.mp hSymbol
      have hRest : p.stack.state v ≠ Table.errorState ∨
          ∀ a ∈ actions, a = .shiftExtra ∨ a = .recover :=
        hState.imp_right fun hAll => (List.forall_mem_cons.mp hAll).2
      have hReading (hOther : ¬(a = .shiftExtra ∨ a = .recover)) :
          p.stack.state v ≠ Table.errorState :=
        hState.resolve_right fun hAll => hOther (hAll a List.mem_cons_self)
      have hSound := hToken.sound hTable hRead
      have hPush {extra : Bool} {state : Nat}
          (hNext : state ≠ Table.errorState → p.stack.state v ≠ Table.errorState) :
          Sound table { p with
            stack := p.stack.push table v (some (token.withExtra extra)) state } := by
        apply h.withStack
        apply h.stack.push
        · rintro t ⟨⟩
          exact (hSound.withExtra extra).part
        · intro hState
          exact ⟨hNext hState, _, rfl, hSound.withExtra extra⟩
      cases a with
      | shift target repetition =>
          cases repetition with
          | true => exact ih outcome h hv hSymbols hRest hOutcome
          | false => exact ⟨hPush fun _ => hReading (by simp), .inl rfl⟩
      | shiftExtra => exact ⟨hPush id, .inl rfl⟩
      | accept =>
          refine ⟨sound_accept h fun trees hTrees root hRoot => ?_, .inl rfl⟩
          rw [List.append_nil] at hRoot
          exact settled_of_rootOf hTable (hTrees (hReading (by simp))) hSound hRoot
      | recover => exact ⟨sound_recover h v token, .inl rfl⟩
      | reduce r =>
          have hState := hReading (by simp)
          obtain ⟨hReduced, hKeeps⟩ := Stack.reduce_spec hTable h.stack hState
            (table.reductions.getD r default)
          have hNamed (w : Nat)
              (hMade : (p.stack.reduce table v (table.reductions.getD r default)).2 = some w) :=
            Stack.eq_of_reduce_eq_some hMade
          cases hMade : p.stack.reduce table v (table.reductions.getD r default) with
          | mk s made =>
              rw [hMade] at hReduced hKeeps hNamed
              have hv' : v < s.heads.size := Nat.lt_of_lt_of_le hv hKeeps.size
              simp only [perform, hMade]
              apply ih _ (h.withStack hReduced) hv' hSymbols (.inl (hKeeps.states v hv hState))
              intro w hw
              split at hw
              next u =>
                obtain ⟨rfl, hLast⟩ := hNamed u rfl
                cases hw
                exact ⟨hv, hLast⟩
              next u =>
                obtain ⟨hLess, hInside⟩ := hOutcome w hw
                exact ⟨hLess, Nat.lt_of_lt_of_le hInside hKeeps.size⟩
              next => cases hw

/-- By induction on the budget. A reading that goes on as one of the new readings is still there. -/
theorem sound_advanceWith (hTable : table.WellFormed) (budget : Nat) (hToken : IsToken token)
    (h : Sound table p) (hv : v < p.stack.heads.size) :
    Sound table (advanceWith table v budget token p) := by
  induction budget generalizing token p with
  | zero => exact h.of_nodes rfl
  | succ budget ih =>
      have hState : p.stack.state v ≠ Table.errorState ∨
          ∀ a ∈ table.actions (p.stack.state v) token.symbol, a = .shiftExtra ∨ a = .recover := by
        by_cases hError : p.stack.state v = Table.errorState
        · rw [hError]
          exact .inr (hTable.actions_errorState _)
        · exact .inl hError
      obtain ⟨hPerformed, hOutcome⟩ := perform_spec hTable hToken .nothing h hv
        (fun a ha => Table.lt_of_mem_actions ha) hState (by intro w hw; cases hw)
      rw [advanceWith]
      generalize perform table v token (table.actions (p.stack.state v) token.symbol) .nothing p =
        performed at hPerformed hOutcome
      obtain ⟨q, outcome⟩ := performed
      simp only at hPerformed hOutcome ⊢
      cases outcome with
      | done => exact hPerformed
      | reduced made =>
          obtain hDone | ⟨-, hMade⟩ := hOutcome
          · cases hDone
          cases made with
          | none => exact hPerformed.of_nodes rfl
          | some w =>
              obtain ⟨hLess, hInside⟩ := hMade w rfl
              obtain ⟨-, hSize⟩ := Stack.replace_spec hLess hInside
              apply ih hToken (hPerformed.of_nodes (Stack.nodes_replace _ _ _))
              simp only
              omega
      | nothing =>
          obtain hDone | ⟨hThere, -⟩ := hOutcome
          · cases hDone
          simp only
          split_ifs
          · exact ih (hToken.withSymbol Table.word) hPerformed hThere
          · exact hPerformed.of_nodes rfl

theorem sound_advance (hTable : table.WellFormed) (src : Source) (h : Sound table p)
    (hv : v < p.stack.heads.size) : Sound table (advance table src p v) := by
  rw [advance]
  simp only
  split
  next token hCached => exact sound_advanceWith hTable _ (isToken_of_cached? h hCached) h hv
  next =>
    have hToken := isToken_lookahead table src (p.stack.state v) (p.stack.position v)
    refine sound_advanceWith hTable _ hToken ⟨h.stack, fun bytes t hCache => ?_, h.finished⟩ hv
    obtain ⟨-, rfl⟩ := Prod.mk.inj (Option.some.inj hCache)
    exact hToken

theorem lt_of_isActive {s : Stack} (h : s.isActive v = true) : v < s.heads.size := by
  by_contra hOutside
  rw [Stack.isActive, Array.getElem?_eq_none (Nat.le_of_not_lt hOutside)] at h
  cases h

theorem sound_advanceFar (hTable : table.WellFormed) (src : Source) (v budget last : Nat)
    (h : Sound table p) : Sound table (advanceFar table src v budget last p).1 := by
  induction budget generalizing p with
  | zero => exact h
  | succ budget ih =>
      rw [advanceFar]
      split_ifs with hActive
      · have hAdvanced := sound_advance hTable src h (lt_of_isActive hActive)
        simp only
        split_ifs
        · exact hAdvanced
        · exact ih hAdvanced
      · exact h

theorem sound_advanceAll (hTable : table.WellFormed) (src : Source) (steps budget v last : Nat)
    (h : Sound table p) : Sound table (advanceAll table src steps budget v last p).1 := by
  induction budget generalizing v last p with
  | zero => exact h
  | succ budget ih =>
      rw [advanceAll]
      split_ifs
      · exact ih _ _ (sound_advanceFar hTable src v steps last h)
      · exact h

/-- Putting the readings in order changes the graph only where two of them are joined. -/
theorem sound_rank {s : Stack} (mine : Standing) (budget i j : Nat) (h : Stack.Sound table s) :
    Stack.Sound table (rank table mine budget i j s).1 := by
  induction budget generalizing i j s with
  | zero => exact h
  | succ budget ih =>
      unfold rank
      split_ifs
      · exact h
      · have hStanding := h.of_nodes (Stack.nodes_standing s j)
        generalize s.standing j = standing at hStanding
        obtain ⟨settled, theirs⟩ := standing
        have hSwapped : Stack.Sound table (settled.swap i j) := Stack.Sound.of_nodes hStanding rfl
        simp only
        cases theirs.compare mine with
        | takeLeft => exact Stack.Sound.of_nodes hStanding rfl
        | preferLeft | none =>
            simp only
            split
            next merged hMerge => exact (Stack.merge?_spec hStanding hMerge).1
            next => exact ih _ _ hStanding
        | preferRight =>
            simp only
            split
            next merged hMerge => exact (Stack.merge?_spec hStanding hMerge).1
            next => exact ih _ _ hSwapped
        | takeRight => exact ih _ _ (Stack.Sound.of_nodes hStanding rfl)

theorem sound_rankAll {s : Stack} (budget i : Nat) (lowest : Option Nat)
    (h : Stack.Sound table s) : Stack.Sound table (rankAll table budget i lowest s).1 := by
  induction budget generalizing i lowest s with
  | zero => exact h
  | succ budget ih =>
      rw [rankAll]
      split_ifs
      · exact h
      · exact ih _ _ (Stack.Sound.of_nodes h rfl)
      · have hStanding := h.of_nodes (Stack.nodes_standing s i)
        generalize s.standing i = standing at hStanding
        obtain ⟨settled, mine⟩ := standing
        have hRanked := sound_rank mine (2 * settled.heads.size + 2) i 0 hStanding
        simp only
        split
        next ranked k hRank =>
          rw [hRank] at hRanked
          exact ih _ _ hRanked
        next ranked hRank =>
          rw [hRank] at hRanked
          exact ih _ _ hRanked

theorem sound_resume (hTable : table.WellFormed) (budget i stop : Nat) (going : Bool)
    (lowest : Option Nat) (h : Sound table p) :
    Sound table (resume table budget i stop going lowest p).1 := by
  induction budget generalizing i stop going lowest p with
  | zero => exact h
  | succ budget ih =>
      rw [resume]
      by_cases hStop : i ≥ stop
      · rw [if_pos hStop]
        exact h
      · rw [if_neg hStop]
        cases (p.stack.head i).status with
        | active => exact ih _ _ _ _ h
        | halted => exact ih _ _ _ _ h
        | paused lookahead =>
            have hActive : Sound table { p with stack := p.stack.setStatus i .active } :=
              h.of_nodes rfl
            have hRemoved : Sound table { p with stack := p.stack.remove i } := h.of_nodes rfl
            have hRecovered := sound_handleError hTable hActive i lookahead
            simp only
            split_ifs
            · exact ih _ _ _ _ hRecovered
            · exact ih _ _ _ _ hRemoved

theorem sound_condense (hTable : table.WellFormed) (h : Sound table p) :
    Sound table (condense table p).1 := by
  have hRanked := sound_rankAll (4 * p.stack.heads.size + 4) 0 none h.stack
  rw [condense]
  generalize rankAll table (4 * p.stack.heads.size + 4) 0 none p.stack = ranked at hRanked
  obtain ⟨s, lowest⟩ := ranked
  apply sound_resume hTable
  exact h.withStack (Stack.Sound.of_nodes hRanked rfl)

/-- By induction on the rounds: each of them keeps the parse sound. -/
theorem sound_loop (hTable : table.WellFormed) (src : Source) (steps budget last : Nat)
    (h : Sound table p) : Sound table (loop table src steps budget last p) := by
  induction budget generalizing last p with
  | zero => exact h
  | succ budget ih =>
      have hRound := sound_condense hTable (sound_advanceAll hTable src steps steps 0 last h)
      rw [loop]
      split_ifs
      · exact h
      · simp only
        split_ifs
        · exact hRound
        · exact ih _ hRound

/-- At the start there is one reading, which has read nothing. -/
theorem sound_initial : Sound table ⟨Stack.initial, none, none, 0⟩ := by
  constructor
  · intro n l hl
    match n with
    | 0 => cases hl
    | n + 1 => cases hl
  · intro bytes t hCache
    cases hCache
  · intro t hFound
    cases hFound

/-- A tree that was found is sound, and a text that could not be read is a mistake as a whole. -/
theorem Sound.settled_finished (h : Sound table p) (size : Extent) :
    Settled table (p.finished.getD (unread table size)) := by
  cases hFound : p.finished with
  | some t => exact h.finished t hFound
  | none =>
      apply Or.inl
      constructor
      · rfl
      · simp only [Option.getD_none, unread, info, costPerRecovery]
        omega

/-- Whatever the text is, the tree that is found for it is sound, or all of it is a mistake. -/
theorem settled_run (hTable : table.WellFormed) (text : String) :
    Settled table (run table text) := by
  rw [run]
  exact (sound_loop hTable _ _ _ 0 sound_initial).settled_finished _

end Parse

end JavaOutline.Parsing
