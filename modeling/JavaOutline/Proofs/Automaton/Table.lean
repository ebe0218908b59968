import JavaOutline.Automaton.Table
import Mathlib.Data.List.Basic

/-! What the parser relies on in a parse table, whatever the grammar is. The two numbers beyond the
symbols of the grammar are kept apart from these, and from the state after an error only recovery
leads on. -/
namespace JavaOutline.Automaton.Table

open Grammar Lexing

/-- What a parse table guarantees to the parser. -/
structure WellFormed (t : Table) : Prop where
  /-- A stretch of text that could not be understood shows in the tree. -/
  visible_error : (t.info t.error).visible = true
  tokenCount_le : t.tokenCount ≤ t.errorRun
  errorRun_lt : t.errorRun < t.error
  /-- No state goes on after a run of skipped tokens. -/
  next_errorRun : ∀ state, t.next state t.errorRun = errorState
  /-- The state after an error is left by recovery alone. -/
  next_errorState : ∀ symbol, t.next errorState symbol = errorState
  actions_errorState : ∀ symbol, ∀ a ∈ t.actions errorState symbol, a = .shiftExtra ∨ a = .recover

section Tokens

variable {t : Table}

theorem lt_of_mem_actions {state symbol : Nat} {a : Action} (h : a ∈ t.actions state symbol) :
    symbol < t.tokenCount := by
  rw [actions] at h
  split_ifs at h with hToken
  · exact hToken
  · cases h

theorem mem_assumable {token : Nat} :
    token ∈ t.assumable → token < t.tokenCount ∧ (t.info token).visible = true := by
  intro h
  obtain ⟨hToken, hShows⟩ := List.mem_filter.mp h
  exact ⟨List.mem_range.mp (List.mem_of_mem_drop hToken), hShows⟩

/-- A token is neither of the two numbers beyond the symbols of the grammar. -/
theorem WellFormed.ne_of_lt (h : t.WellFormed) {token : Nat} (hToken : token < t.tokenCount) :
    token ≠ t.error ∧ token ≠ t.errorRun := by
  have hTokens := h.tokenCount_le
  have hLast := h.errorRun_lt
  omega

end Tokens

section Symbols

/-- The word token and the others together are all tokens. -/
theorem countP_zipIdx_ne {α : Type} (word start : Nat) (l : List α) :
    (l.zipIdx start).countP (fun x => x.2 != word) +
      (if start ≤ word ∧ word < start + l.length then 1 else 0) = l.length := by
  induction l generalizing start with
  | nil => simp
  | cons a l ih =>
      have hRest := ih (start + 1)
      rw [List.zipIdx_cons, List.countP_cons, List.length_cons]
      by_cases hFirst : start = word
      · rw [if_neg (by omega)] at hRest
        rw [if_neg (by simp [hFirst]), if_pos (by omega)]
        omega
      · have hOther : (start != word) = true := by simpa using hFirst
        rw [if_pos hOther]
        split_ifs at hRest ⊢ <;> omega

theorem size_symbolInfos (p : Productions) :
    (symbolInfos p).size = p.terminals.size + 1 + p.constructs.size + 2 := by
  have hTokens := countP_zipIdx_ne p.word 0 p.terminals.toList
  have hWord : ((p.terminals[p.word]?).toList).length =
      if 0 ≤ p.word ∧ p.word < 0 + p.terminals.toList.length then 1 else 0 := by
    by_cases h : p.word < p.terminals.size <;> simp [h]
  simp only [symbolInfos, List.size_toArray, List.length_append, List.length_cons, List.length_map,
    List.length_nil, List.length_zipIdx, ← List.countP_eq_length_filter, hWord]
  simp only [Array.length_toList] at hTokens ⊢
  omega

theorem visible_last_symbolInfos (p : Productions) :
    ((symbolInfos p).getD ((symbolInfos p).size - 1) default).visible = true := by
  obtain ⟨front, hInfos⟩ : ∃ front : List SymbolInfo,
      symbolInfos p = (front ++
        [SymbolInfo.mk "_ERROR" false false, SymbolInfo.mk "ERROR" true true]).toArray := ⟨_, rfl⟩
  rw [hInfos]
  simp

end Symbols

section Rows

variable {p : Productions}

/-- What is laid out for a token is what some entry says of it, or nothing. -/
theorem mem_of_mem_foldl_set (number : Nat → Nat) {entries : List (Nat × List Action)}
    {cells : Array (List Action)} {symbol : Nat} {a : Action}
    (h : a ∈ (entries.foldl (fun cells x => cells.setIfInBounds (number x.1) x.2) cells).getD
      symbol []) :
    a ∈ cells.getD symbol [] ∨ ∃ x ∈ entries, a ∈ x.2 := by
  induction entries generalizing cells with
  | nil => exact .inl h
  | cons x entries ih =>
      rcases ih h with hCell | ⟨y, hy, ha⟩
      · rw [Array.getD_eq_getD_getElem?, Array.getElem?_setIfInBounds] at hCell
        split_ifs at hCell with hSame hInside
        · exact .inr ⟨x, List.mem_cons_self, hCell⟩
        · cases hCell
        · exact .inl (by rwa [Array.getD_eq_getD_getElem?])
      · exact .inr ⟨y, List.mem_cons_of_mem x hy, ha⟩

theorem size_targets_rowOf (overlaps : OverlapTable) (keep : Bool) (scan : Nat) (s : State) :
    (rowOf p overlaps keep scan s).targets.size = p.constructs.size := by
  have hSize (entries : List (Nat × Nat)) (targets : Array Nat) :
      (entries.foldl (fun a x => a.setIfInBounds x.1 x.2) targets).size = targets.size := by
    induction entries generalizing targets with
    | nil => rfl
    | cons x entries ih => rw [List.foldl_cons, ih, Array.size_setIfInBounds]
  have hTargets := hSize s.targets.toList (Array.replicate p.constructs.size 0)
  rw [Array.foldl_toList, Array.size_replicate] at hTargets
  exact hTargets

/-- The rows are those of states, and the first is that of the state after an error. -/
theorem getD_rows_ofProductions (p : Productions) (state : Nat) :
    (ofProductions p).rows.getD state default = default ∨
      ∃ overlaps keep scan s, (ofProductions p).rows.getD state default =
          rowOf p overlaps keep scan s ∧
        (state = errorState → ∃ tokens, s = recoveryState p.extras tokens p.terminals.size) := by
  obtain ⟨states, tokens, overlaps, scan, hRows⟩ : ∃ (states : Array State) (tokens : TokenSet)
      (overlaps : OverlapTable) (scan : Nat → Nat), (ofProductions p).rows =
        (states.setIfInBounds errorState (recoveryState p.extras tokens p.terminals.size)).mapIdx
          fun i s => rowOf p overlaps (i != errorState) (scan i) s := by
    rw [ofProductions]
    dsimp only
    exact ⟨_, _, _, _, rfl⟩
  rw [hRows, Array.getD_eq_getD_getElem?, Array.getElem?_mapIdx]
  cases hState : (states.setIfInBounds errorState
      (recoveryState p.extras tokens p.terminals.size))[state]? with
  | none => exact .inl rfl
  | some s =>
      refine .inr ⟨overlaps, state != errorState, scan state, s, rfl, ?_⟩
      intro hError
      rw [hError, Array.getElem?_setIfInBounds_self] at hState
      split_ifs at hState
      exact ⟨tokens, (Option.some.inj hState).symm⟩

theorem mem_actions_recoveryState {extras : List Nat} {tokens : TokenSet} {size : Nat}
    {x : Nat × List Action} (h : x ∈ (recoveryState extras tokens size).actions) :
    x.2 = [.shiftExtra] ∨ x.2 = [.recover] := by
  obtain ⟨t, -, hEntry⟩ := List.mem_filterMap.mp (List.mem_toArray.mp h)
  split_ifs at hEntry
  · exact .inl (by rw [← Option.some.inj hEntry])
  · exact .inr (by rw [← Option.some.inj hEntry])

/-- In the state after an error nothing is done but to keep extras and to recover. -/
theorem actions_errorState_ofProductions {symbol : Nat} {a : Action}
    (h : a ∈ (ofProductions p).actions errorState symbol) : a = .shiftExtra ∨ a = .recover := by
  rw [actions, if_pos (lt_of_mem_actions h)] at h
  rcases getD_rows_ofProductions p errorState with hRow | ⟨overlaps, keep, scan, s, hRow, hState⟩
  · rw [hRow] at h
    cases h
  · obtain ⟨tokens, rfl⟩ := hState rfl
    rw [hRow, rowOf, ← Array.foldl_toList] at h
    rcases mem_of_mem_foldl_set (fun t =>
        if t == p.terminals.size then finish else tokenNumber p.word t) h with hNone | ⟨x, hx, ha⟩
    · simp [Array.getD_eq_getD_getElem?, Array.getElem?_replicate] at hNone
      split_ifs at hNone <;> cases hNone
    · rcases mem_actions_recoveryState (Array.mem_toList_iff.mp hx) with hOne | hOne
      · exact .inl (List.mem_singleton.mp (hOne ▸ ha))
      · exact .inr (List.mem_singleton.mp (hOne ▸ ha))

theorem next_errorState_ofProductions (symbol : Nat) :
    (ofProductions p).next errorState symbol = errorState := by
  rw [next]
  split_ifs
  · split
    next target _ hLast =>
      rcases actions_errorState_ofProductions (List.mem_of_getLast? hLast) with h | h <;> cases h
    · rfl
    · rfl
  · rcases getD_rows_ofProductions p errorState with hRow | ⟨overlaps, keep, scan, s, hRow, hState⟩
    · rw [hRow]
      rfl
    · obtain ⟨tokens, rfl⟩ := hState rfl
      rw [hRow, Array.getD_eq_getD_getElem?]
      change ((Array.replicate p.constructs.size 0)[symbol - _]?).getD errorState = errorState
      rw [Array.getElem?_replicate]
      split_ifs <;> rfl

end Rows

theorem wellFormed_ofProductions (p : Productions) : (ofProductions p).WellFormed := by
  have hTokens : (ofProductions p).tokenCount = p.terminals.size + 1 := by
    simp only [ofProductions]
  have hSymbols : (ofProductions p).symbols = symbolInfos p := by
    simp only [ofProductions]
  have hRun : (ofProductions p).errorRun = p.terminals.size + 1 + p.constructs.size := by
    rw [errorRun, hSymbols, size_symbolInfos]
    rfl
  have hError : (ofProductions p).error = p.terminals.size + 1 + p.constructs.size + 1 := by
    rw [error, hSymbols, size_symbolInfos]
    rfl
  have hShows : ((ofProductions p).info (ofProductions p).error).visible = true := by
    rw [info, error, hSymbols]
    exact visible_last_symbolInfos p
  refine ⟨hShows, by omega, by omega, ?_, next_errorState_ofProductions,
    fun _ _ h => actions_errorState_ofProductions h⟩
  -- There is no column for what lies beyond the constructs.
  intro state
  rw [next, if_neg (by omega), hRun, hTokens, Nat.add_sub_cancel_left]
  rcases getD_rows_ofProductions p state with hRow | ⟨overlaps, keep, scan, s, hRow, -⟩
  · rw [hRow]
    rfl
  · rw [hRow, Array.getD_eq_getD_getElem?,
      Array.getElem?_eq_none (Nat.le_of_eq (size_targets_rowOf overlaps keep scan s))]
    rfl

end JavaOutline.Automaton.Table
