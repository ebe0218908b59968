import JavaOutline.Proofs.Symbol.Store
import Mathlib.Data.List.Perm.Basic

/-! Giving summaries to symbols, by id or by position. A summary changes no id, so every id leads to
the same place before and after, and two ids lead to one place only if no symbol has either of them.
The laws of single summaries follow from these two facts; what many summaries do follows from the
laws. Ids may repeat unless it is said that they do not. -/
namespace JavaOutline.Store

/-- A symbol stands where its id first occurs. -/
theorem position_eq_idxOf (s : Store) (id : String) :
    s.position id = (s.symbols.map Symbol.id).idxOf id := by
  rw [List.idxOf, List.findIdx_map]
  rfl

theorem id_of_get? {s : Store} {id : String} {x : Symbol} (h : s.get? id = some x) :
    x.id = id := by
  have hFound := List.find?_some h
  exact beq_iff_eq.mp hFound

/-- Something is found under the ids that occur, and under no other. -/
theorem isSome_get?_iff (s : Store) (id : String) :
    (s.get? id).isSome = true ↔ id ∈ s.symbols.map Symbol.id := by
  rw [get?, List.find?_isSome, List.mem_map]
  simp only [beq_iff_eq]

theorem map_id_modify (symbols : List Symbol) (i : Nat) (summary : String) :
    (symbols.modify i (withSummary summary)).map Symbol.id = symbols.map Symbol.id := by
  apply List.ext_getElem?
  intro j
  rw [List.getElem?_map, List.getElem?_map, List.getElem?_modify]
  cases symbols[j]? with
  | none => rfl
  | some x =>
      change some (if i = j then withSummary summary x else x).id = some x.id
      split <;> rfl

/-- Attaching a summary moves no symbol. -/
theorem position_attach (s : Store) (id summary other : String) :
    (s.attach id summary).1.position other = s.position other := by
  rw [position_eq_idxOf, position_eq_idxOf, attach_fst, map_id_modify]

/-- Different ids lead to one place only past the end. -/
theorem getElem?_position_eq_none {s : Store} {id other : String} (hNe : other ≠ id)
    (h : s.position id = s.position other) : s.symbols[s.position id]? = none := by
  cases hx : s.symbols[s.position id]? with
  | none => rfl
  | some x =>
      have hId : x.id = id := id_of_get? ((s.get?_eq_getElem?_position id).trans hx)
      have hOther : x.id = other := by
        rw [h] at hx
        exact id_of_get? ((s.get?_eq_getElem?_position other).trans hx)
      exact (hNe (hOther.symm.trans hId)).elim

section Single

variable (s : Store) {id other : String}

theorem attach_of_get?_eq_none (summary : String) (h : s.get? id = none) :
    s.attach id summary = (s, false) := by
  have hPast : s.symbols.length ≤ s.position id := by
    rw [get?_eq_getElem?_position] at h
    exact List.getElem?_eq_none_iff.mp h
  apply Prod.ext
  · rw [attach_fst, List.modify_eq_self hPast]
  · rw [attach_snd, h]
    rfl

/-- The symbol found under the id has the summary afterwards. -/
theorem get?_attach_self (id summary : String) :
    (s.attach id summary).1.get? id = (s.get? id).map (withSummary summary) := by
  rw [get?_eq_getElem?_position, position_attach, attach_fst, List.getElem?_modify_eq,
    ← get?_eq_getElem?_position]
  rfl

/-- What is found under another id stays as it was. -/
theorem get?_attach_of_ne (summary : String) (hNe : other ≠ id) :
    (s.attach id summary).1.get? other = s.get? other := by
  rw [get?_eq_getElem?_position, get?_eq_getElem?_position, position_attach, attach_fst]
  by_cases hPlace : s.position id = s.position other
  · have hNone := getElem?_position_eq_none hNe hPlace
    rw [← hPlace, List.getElem?_modify_eq, hNone]
    rfl
  · exact List.getElem?_modify_ne _ _ hPlace

/-- The later of two summaries for one id is the one that counts. -/
theorem attach_attach_self (id earlier later : String) :
    (s.attach id earlier).1.attach id later = s.attach id later := by
  apply Prod.ext
  · rw [attach_fst, position_attach, attach_fst, attach_fst, List.modify_modify_eq]
    rfl
  · rw [attach_snd, attach_snd, get?_attach_self, Option.isSome_map]

/-- Under two ids summaries may be attached in either order. -/
theorem attach_comm (hNe : other ≠ id) (summary another : String) :
    ((s.attach id summary).1.attach other another).1 =
      ((s.attach other another).1.attach id summary).1 := by
  rw [attach_fst, position_attach, attach_fst, attach_fst, position_attach, attach_fst]
  by_cases hPlace : s.position id = s.position other
  · have hPast := List.getElem?_eq_none_iff.mp (getElem?_position_eq_none hNe hPlace)
    simp only [← hPlace, List.modify_eq_self hPast]
  · rw [List.modify_modify_ne _ _ _ hPlace]

end Single

/-- Summaries are kept by id, whether or not ids repeat. One for an id that no symbol has is refused
and changes nothing. Any other is found under its id afterwards and changes nothing else: no other
id leads to anything new, and a single position is changed, in its summary only. The later of two
summaries for one id counts, and for different ids their order does not matter. -/
theorem attach_keyed (s : Store) (id summary : String) :
    ((s.attach id summary).2 = true ↔ (s.get? id).isSome = true) ∧
      ((s.attach id summary).2 = true ↔ id ∈ s.symbols.map Symbol.id) ∧
      (s.get? id = none → (s.attach id summary).1 = s) ∧
      (s.attach id summary).1.get? id =
        (s.get? id).map (fun x => { x with summary := some summary }) ∧
      (∀ other, other ≠ id → (s.attach id summary).1.get? other = s.get? other) ∧
      (∀ x, s.get? id = some x → ∃ i, s.symbols[i]? = some x ∧
        (s.attach id summary).1.symbols = s.symbols.set i { x with summary := some summary }) ∧
      (∀ later, (s.attach id summary).1.attach id later = s.attach id later) ∧
      ∀ other another, other ≠ id →
        ((s.attach id summary).1.attach other another).1 =
          ((s.attach other another).1.attach id summary).1 := by
  have hFound := s.attach_snd id summary
  refine ⟨by rw [hFound], by rw [hFound, s.isSome_get?_iff id], ?_,
    s.get?_attach_self id summary, ?_, ?_, s.attach_attach_self id summary, ?_⟩
  · intro hNone
    rw [s.attach_of_get?_eq_none summary hNone]
  · intro other hNe
    exact s.get?_attach_of_ne summary hNe
  · intro x hx
    refine ⟨s.position id, s.get?_eq_getElem?_position id ▸ hx, ?_⟩
    rw [attach_of_get?_eq_some hx]
    rfl
  · intro other another hNe
    exact s.attach_comm hNe summary another

/-- Three symbols, two of which share an id and the first of which has a summary. -/
def repeatedIds : Store :=
  ⟨[{ (default : Symbol) with id := "a", summary := some "old" },
    { (default : Symbol) with id := "a", name := "second" },
    { (default : Symbol) with id := "b" }]⟩

theorem attach_keyed_repeatedIds :
    repeatedIds.get? "c" = none ∧ (repeatedIds.attach "c" "new").1 = repeatedIds ∧
      "b" ≠ "a" ∧ (repeatedIds.attach "a" "new").1.get? "b" = repeatedIds.get? "b" ∧
      ((repeatedIds.attach "a" "new").1.attach "b" "other").1 =
        ((repeatedIds.attach "b" "other").1.attach "a" "new").1 := by
  have hAbsent : repeatedIds.get? "c" = none := by decide
  have hNe : "b" ≠ "a" := by decide
  obtain ⟨-, -, hRefused, -⟩ := attach_keyed repeatedIds "c" "new"
  obtain ⟨-, -, -, -, hOther, -, -, hComm⟩ := attach_keyed repeatedIds "a" "new"
  exact ⟨hAbsent, hRefused hAbsent, hNe, hOther "b" hNe, hComm "b" "other" hNe⟩

/-- A symbol with what a summarizer says of it, or as it was if that is nothing. -/
def summarized (summarize : Symbol → Option String) (x : Symbol) : Symbol :=
  match summarize x with
  | some summary => { x with summary := some summary }
  | none => x

/-- The ids of the symbols that a summarizer says something of, with what it says. -/
def summaries (s : Store) (summarize : Symbol → Option String) : List (String × String) :=
  s.symbols.filterMap fun x => (summarize x).map fun summary => (x.id, summary)

def attachEach (s : Store) (entries : List (String × String)) : Store :=
  entries.foldl (fun s entry => (s.attach entry.1 entry.2).1) s

/-- The symbol at a position gets the summary, and no other does. -/
theorem attachAt_length (before after : List Symbol) (x : Symbol) (summary : String) :
    attachAt ⟨before ++ x :: after⟩ before.length summary =
      (⟨before ++ withSummary summary x :: after⟩, true) := by
  have hSymbols : (before ++ x :: after).modify before.length (withSummary summary) =
      before ++ withSummary summary x :: after := by
    simp [List.modify_eq_set_getElem?]
  simp [attachAt, size, hSymbols]

/-- Where ids are all different, a position and the id of its symbol come to the same. -/
theorem attach_id_eq_attachAt {s : Store} {i : Nat} {x : Symbol}
    (h : (s.symbols.map Symbol.id).Nodup) (hx : s.symbols[i]? = some x) (summary : String) :
    s.attach x.id summary = s.attachAt i summary := by
  obtain ⟨hi, -⟩ := List.getElem?_eq_some_iff.mp hx
  rw [attach_id h hx, attachAt, List.modify_eq_set_getElem?, hx, size, decide_eq_true hi]
  rfl

section Many

variable (summarize : Symbol → Option String)

/-- The results for the symbols that are left, when those before them are done. -/
theorem attachResults_map (before after : List Symbol) (count : Nat) :
    attachResults (after.map summarize) before.length (⟨before ++ after⟩, count) =
      (⟨before ++ after.map (summarized summarize)⟩,
        count + after.countP fun x => (summarize x).isSome) := by
  induction after generalizing before count with
  | nil => rfl
  | cons x after ih =>
      cases hResult : summarize x with
      | none =>
          have hRest := ih (before ++ [x]) count
          simpa [hResult, attachResults, summarized] using hRest
      | some summary =>
          have hRest := ih (before ++ [withSummary summary x]) (count + 1)
          rw [List.map_cons, hResult, attachResults, attachAt_length]
          simpa [hResult, summarized, withSummary, Nat.add_assoc, Nat.add_comm] using hRest

/-- Every symbol is summarized at its own place, and the successes are counted. -/
theorem summarizeAll_eq (s : Store) :
    s.summarizeAll summarize =
      (⟨s.symbols.map (summarized summarize)⟩,
        s.symbols.countP fun x => (summarize x).isSome) := by
  have hAll := attachResults_map summarize [] s.symbols 0
  rwa [List.length_nil, List.nil_append, List.nil_append, Nat.zero_add] at hAll

/-- The summaries for the symbols that are left, by id and in their own order, when those before
them are done. -/
theorem attachEach_summaries (before after : List Symbol)
    (h : ((before ++ after).map Symbol.id).Nodup) :
    attachEach ⟨before ++ after⟩ (summaries ⟨after⟩ summarize) =
      ⟨before ++ after.map (summarized summarize)⟩ := by
  induction after generalizing before with
  | nil => rfl
  | cons x after ih =>
      cases hResult : summarize x with
      | none =>
          have hRest := ih (before ++ [x]) (by simpa using h)
          simpa [summaries, hResult, summarized] using hRest
      | some summary =>
          have hRest := ih (before ++ [withSummary summary x]) (by simpa [withSummary] using h)
          have hStep : attach ⟨before ++ x :: after⟩ x.id summary =
              (⟨before ++ withSummary summary x :: after⟩, true) := by
            rw [attach_id_eq_attachAt (i := before.length) h (by simp), attachAt_length]
          simpa [summaries, hResult, summarized, withSummary, attachEach, hStep] using hRest

/-- There is a summary for the ids of the symbols that something is said of. -/
theorem map_fst_summaries (s : Store) :
    (s.summaries summarize).map Prod.fst =
      (s.symbols.filter fun x => (summarize x).isSome).map Symbol.id := by
  obtain ⟨symbols⟩ := s
  unfold summaries
  induction symbols with
  | nil => rfl
  | cons x symbols ih => cases hResult : summarize x <;> simp [hResult, ih]

end Many

/-- Summaries for different ids can be given in any order. -/
theorem attachEach_perm {entries others : List (String × String)}
    (hNodup : (entries.map Prod.fst).Nodup) (hPerm : entries.Perm others) (s : Store) :
    s.attachEach entries = s.attachEach others := by
  apply hPerm.foldl_eq'
  intro e he f hf t
  by_cases hSame : f.1 = e.1
  · rw [List.inj_on_of_nodup_map hNodup hf he hSame]
  · exact t.attach_comm hSame e.2 f.2

/-- Summarizing gives every symbol that there is something to say of what is said of it as it was
before, leaves every other symbol as it was, and counts the former, whether or not ids repeat. If
they do not, giving the same summaries by id comes to the same store, in whatever order. -/
theorem summarizeAll_by_position_or_id (s : Store) (summarize : Symbol → Option String) :
    s.summarizeAll summarize =
        (⟨s.symbols.map (summarized summarize)⟩,
          s.symbols.countP fun x => (summarize x).isSome) ∧
      ((s.symbols.map Symbol.id).Nodup → ∀ entries, entries.Perm (s.summaries summarize) →
        s.attachEach entries = (s.summarizeAll summarize).1) := by
  refine ⟨summarizeAll_eq summarize s, fun hNodup entries hPerm => ?_⟩
  have hDistinct : ((s.summaries summarize).map Prod.fst).Nodup := by
    rw [map_fst_summaries]
    exact (List.filter_sublist.map Symbol.id).nodup hNodup
  calc s.attachEach entries
      = s.attachEach (s.summaries summarize) := (attachEach_perm hDistinct hPerm.symm s).symm
    _ = ⟨s.symbols.map (summarized summarize)⟩ := attachEach_summaries summarize [] s.symbols hNodup
    _ = (s.summarizeAll summarize).1 := by rw [summarizeAll_eq]

/-- Three symbols with different ids, the second of which has a summary. -/
def distinctIds : Store :=
  ⟨[{ (default : Symbol) with id := "a", name := "first" },
    { (default : Symbol) with id := "b", name := "stop", summary := some "old" },
    { (default : Symbol) with id := "c", name := "last" }]⟩

def sayName (x : Symbol) : Option String := if x.name = "stop" then none else some x.name

theorem summarizeAll_by_position_or_id_distinctIds :
    (distinctIds.symbols.map Symbol.id).Nodup ∧
      [("c", "last"), ("a", "first")].Perm (distinctIds.summaries sayName) ∧
      distinctIds.attachEach [("c", "last"), ("a", "first")] =
        (distinctIds.summarizeAll sayName).1 ∧
      (distinctIds.summarizeAll sayName).2 = 2 := by
  have hNodup : (distinctIds.symbols.map Symbol.id).Nodup := by decide
  have hPerm : [("c", "last"), ("a", "first")].Perm (distinctIds.summaries sayName) := by decide
  obtain ⟨hAll, hAnyOrder⟩ := summarizeAll_by_position_or_id distinctIds sayName
  exact ⟨hNodup, hPerm, hAnyOrder hNodup _ hPerm, congrArg Prod.snd hAll⟩

end JavaOutline.Store
