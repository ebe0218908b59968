import JavaOutline.Text.Blank
import JavaOutline.Proofs.Text.Lines
import Mathlib.Data.List.DropRight
import Mathlib.Data.List.Infix
import Mathlib.Data.List.TakeWhile

/-! Trimming. What is left of a text stands in the text between blanks, and neither begins nor ends
with one. -/
namespace JavaOutline.Text

/-- Trimming keeps a stretch of the text. -/
theorem trimChars_infix_self (cs : List Char) : trimChars cs <:+: cs :=
  (List.rdropWhile_prefix _ _).isInfix.trans (List.dropWhile_suffix _).isInfix

theorem mem_of_mem_trimChars {c : Char} {cs : List Char} (h : c ∈ trimChars cs) : c ∈ cs :=
  (trimChars_infix_self cs).mem h

/-- What is dropped at both ends has the property for which it is dropped. -/
theorem exists_margins_of_dropWhile (p : Char → Bool) (cs : List Char) :
    ∃ before after, (∀ c ∈ before, p c = true) ∧ (∀ c ∈ after, p c = true) ∧
      cs = before ++ (cs.dropWhile p).rdropWhile p ++ after := by
  refine ⟨cs.takeWhile p, (cs.dropWhile p).rtakeWhile p, fun _ => List.mem_takeWhile_imp,
    fun _ => List.mem_rtakeWhile_imp, ?_⟩
  rw [List.append_assoc, List.rdropWhile_append_rtakeWhile, List.takeWhile_append_dropWhile]

/-- Around what is left of a text there are only blanks. -/
theorem exists_margins (cs : List Char) :
    ∃ before after, (∀ c ∈ before, isBlank c = true) ∧ (∀ c ∈ after, isBlank c = true) ∧
      cs = before ++ trimChars cs ++ after :=
  exists_margins_of_dropWhile isBlank cs

/-- A text with a character that is not blank is not trimmed to nothing. -/
theorem trimChars_ne_nil {c : Char} {cs : List Char} (hMem : c ∈ cs)
    (hc : isBlank c = false) : trimChars cs ≠ [] := by
  obtain ⟨before, after, hBefore, hAfter, hText⟩ := exists_margins cs
  intro hNone
  rw [hText, hNone, List.append_nil] at hMem
  have hBlank : isBlank c = true := by
    rcases List.mem_append.mp hMem with h | h
    · exact hBefore c h
    · exact hAfter c h
  rw [hc] at hBlank
  cases hBlank

theorem ne_newline {c : Char} (h : isBlank c = false) : c ≠ '\n' := by
  rintro rfl
  cases h

theorem filter_margin {p : Char → Bool} (hp : ∀ c, isBlank c = true → p c = false)
    {margin : List Char} (h : ∀ c ∈ margin, isBlank c = true) : margin.filter p = [] := by
  apply List.filter_eq_nil_iff.mpr
  intro c hc
  simp [hp c (h c hc)]

/-- Trimming takes nothing away but blanks. -/
theorem filter_trimChars {p : Char → Bool} (hp : ∀ c, isBlank c = true → p c = false)
    (cs : List Char) : (trimChars cs).filter p = cs.filter p := by
  obtain ⟨before, after, hBefore, hAfter, hText⟩ := exists_margins cs
  conv_rhs => rw [hText]
  rw [List.filter_append, List.filter_append, filter_margin hp hBefore, filter_margin hp hAfter,
    List.nil_append, List.append_nil]

theorem trimChars_eq_rdropWhile (cs : List Char) :
    trimChars cs = (cs.dropWhile isBlank).rdropWhile isBlank := rfl

/-- Trimming leaves nothing to trim. -/
theorem trimChars_trimChars (cs : List Char) : trimChars (trimChars cs) = trimChars cs := by
  -- What is left begins as the text did once the blanks before it were dropped.
  have hFront : (trimChars cs).dropWhile isBlank = trimChars cs := by
    obtain ⟨rest, hRest⟩ : trimChars cs <+: cs.dropWhile isBlank := List.rdropWhile_prefix _ _
    have hDropped := List.dropWhile_idempotent isBlank cs
    rw [List.dropWhile_eq_self_iff] at hDropped ⊢
    intro hLength
    have hFirst := hDropped (by rw [← hRest, List.length_append]; omega)
    simpa [← hRest, List.getElem_append_left hLength] using hFirst
  calc trimChars (trimChars cs)
      = (trimChars cs).rdropWhile isBlank := by rw [trimChars_eq_rdropWhile, hFront]
    _ = trimChars cs := List.rdropWhile_idempotent _ _

/-- Blanks around characters do not matter when these are trimmed. -/
theorem trimChars_margins {before after : List Char} (hBefore : ∀ c ∈ before, isBlank c = true)
    (hAfter : ∀ c ∈ after, isBlank c = true) (cs : List Char) :
    trimChars (before ++ cs ++ after) = trimChars cs := by
  have hDropped : after.dropWhile isBlank = [] := List.dropWhile_eq_nil_iff.mpr hAfter
  have hReversed : ∀ c ∈ after.reverse, isBlank c = true :=
    fun c hc => hAfter c (List.mem_reverse.mp hc)
  rw [List.append_assoc, trimChars, trimChars, List.dropWhile_append_of_pos hBefore,
    List.dropWhile_append]
  split_ifs with hEmpty
  · rw [hDropped, List.isEmpty_iff.mp hEmpty]
  · rw [List.reverse_append, List.dropWhile_append_of_pos hReversed]

/-- The first character that is not blank stays the first one. -/
theorem head?_trimChars {before : List Char} (hBefore : ∀ c ∈ before, isBlank c = true) {c : Char}
    (hc : isBlank c = false) (cs : List Char) :
    (trimChars (before ++ c :: cs)).head? = some c := by
  have hFront : (before ++ c :: cs).dropWhile isBlank = c :: cs := by
    rw [List.dropWhile_append_of_pos hBefore, List.dropWhile_cons_of_neg (by simp [hc])]
  rw [trimChars_eq_rdropWhile, hFront]
  cases hLeft : (c :: cs).rdropWhile isBlank with
  | nil =>
      have hAll := List.rdropWhile_eq_nil_iff.mp hLeft c List.mem_cons_self
      exact (Bool.false_ne_true (hc.symm.trans hAll)).elim
  | cons d ds =>
      obtain ⟨rest, hRest⟩ := hLeft ▸ List.rdropWhile_prefix isBlank (c :: cs)
      rw [List.cons_append, List.cons.injEq] at hRest
      rw [List.head?_cons, hRest.1]

/-- A text loses nothing when it is trimmed if it neither begins nor ends with a blank. -/
theorem trimChars_eq_self_iff {cs : List Char} :
    trimChars cs = cs ↔
      (∀ c ∈ cs.head?, isBlank c = false) ∧ ∀ c ∈ cs.getLast?, isBlank c = false := by
  have hFront : cs.dropWhile isBlank = cs ↔ ∀ c ∈ cs.head?, isBlank c = false := by
    cases cs with
    | nil => simp
    | cons c cs => simp [List.dropWhile_eq_self_iff]
  have hBack : cs.rdropWhile isBlank = cs ↔ ∀ c ∈ cs.getLast?, isBlank c = false := by
    rw [List.rdropWhile_eq_self_iff]
    by_cases hEmpty : cs = []
    · simp [hEmpty]
    · simp [List.getLast?_eq_some_getLast hEmpty, hEmpty]
  rw [← hFront, ← hBack]
  constructor
  · intro h
    have hLeft : cs.dropWhile isBlank = cs := by
      apply (List.dropWhile_suffix isBlank).eq_of_length_le
      conv_lhs => rw [← h]
      exact (List.rdropWhile_prefix _ _).length_le
    rw [trimChars_eq_rdropWhile, hLeft] at h
    exact ⟨hLeft, h⟩
  · intro h
    rw [trimChars_eq_rdropWhile, h.1, h.2]

end JavaOutline.Text
