import JavaOutline.Proofs.Json.RoundTrip

/-! The lines of pretty texts. A line is indented by two spaces for each bracket that is open where
it begins. Since no text in quotes has a line break, a line that ends with an opening bracket opens
one and a line that begins with a closing bracket closes one, and no other line does either. -/
namespace JavaOutline.Json

/-- How many levels a character opens at the end of a line. -/
def opens (c : Char) : Nat := if c = '[' ∨ c = '\x7b' then 1 else 0

/-- How many levels a character closes at the beginning of a line. -/
def closes (c : Char) : Nat := if c = ']' ∨ c = '\x7d' then 1 else 0

/-- Whether the lines of a text are indented by their levels, where the text begins within a line
of a given level, after a given character of it. -/
inductive Indented : Nat → Char → List Char → Prop
  | nil (level : Nat) (last : Char) : Indented level last []
  | char {level : Nat} {last c : Char} {cs : List Char} (hBreak : c ≠ '\n')
      (h : Indented level c cs) : Indented level last (c :: cs)
  | line {level next : Nat} {last first : Char} {cs : List Char}
      (hLevel : next + closes first = level + opens last)
      (hFirst : first ≠ ' ' ∧ first ≠ '\n') (h : Indented next first cs) :
      Indented level last ('\n' :: (List.replicate (2 * next) ' ' ++ first :: cs))

/-- Whether all lines of a text are indented by their levels, the first one not at all. -/
def IsIndented (text : String) : Prop := Indented 0 ' ' ('\n' :: text.toList)

/-- What is indented stays so after a character that ends no line. -/
theorem Indented.tail {level : Nat} {last c : Char} {cs : List Char}
    (h : Indented level last (c :: cs)) (hBreak : c ≠ '\n') : Indented level c cs := by
  cases h with
  | char _ h => exact h
  | line => exact (hBreak rfl).elim

/-- Text within a line does not change what the lines after it must be. -/
theorem Indented.append {level : Nat} {last : Char} {text cs : List Char} (hBreak : '\n' ∉ text)
    (h : Indented level (text.getLastD last) cs) : Indented level last (text ++ cs) := by
  induction text generalizing last with
  | nil => exact h
  | cons c text ih =>
      rw [List.mem_cons, not_or] at hBreak
      rw [List.getLastD_cons] at h
      exact .char (Ne.symm hBreak.1) (ih hBreak.2 h)

/-- What begins a line of the level at which the parts after a character stand. -/
theorem Indented.newLine {level next : Nat} {last first : Char} {cs : List Char}
    (hLevel : next = level + opens last) (hGap : isGap first = false)
    (hClose : first ≠ ']' ∧ first ≠ '\x7d') (h : Indented next last (first :: cs)) :
    Indented level last (newLine next ++ first :: cs) := by
  have hFirst : first ≠ ' ' ∧ first ≠ '\n' := by
    constructor <;> rintro rfl <;> cases hGap
  have hClosed : closes first = 0 := if_neg (not_or.mpr hClose)
  exact .line (by rw [hClosed, hLevel]; rfl) hFirst (h.tail hFirst.2)

/-- Whether a text may follow a value: it is indented whatever the value ends with. -/
def Continues (level : Nat) (cs : List Char) : Prop :=
  ∀ last, opens last = 0 → Indented level last cs

/-- A closing bracket on a line of its own. -/
theorem Continues.close {level : Nat} {cs : List Char} (h : Continues level cs) {bracket : Char}
    (hBracket : bracket = ']' ∨ bracket = '\x7d') :
    Continues (level + 1) (Json.newLine level ++ bracket :: cs) := by
  intro last hLast
  have hClosed : closes bracket = 1 := if_pos hBracket
  refine .line (by rw [hClosed, hLast]) ?_ (h bracket ?_) <;>
    rcases hBracket with rfl | rfl <;> decide

/-- Whether a value is written with its lines indented, wherever it stands. -/
def WritesIndented (v : Json) : Prop :=
  ∀ (level : Nat) (last : Char) (cs : List Char), Continues level cs →
    Indented level last (write .pretty level v ++ cs)

/-- A value on one line is indented, since it ends with no opening bracket. -/
theorem writesIndented_of_notMem {v : Json} {text : List Char}
    (hWrite : ∀ level, write .pretty level v = text) (hBreak : '\n' ∉ text)
    (hLast : ∀ last, opens (text.getLastD last) = 0) : WritesIndented v := by
  intro level last cs hRest
  rw [hWrite]
  exact .append hBreak (hRest _ (hLast last))

/-- A line break in a string is escaped. -/
theorem newline_notMem_escape (c : Char) : '\n' ∉ escape c := by
  rcases escape_cases c with ⟨letter, hLetter, hEscape⟩ | ⟨hControl, hEscape⟩ |
    ⟨-, -, hControl, hEscape⟩
  · have hBreak : letter ≠ '\n' := by
      rintro rfl
      cases hLetter
    simp [hEscape, hBreak.symm]
  · have hDigit : ∀ n < 16, hexDigit n ≠ '\n' := by decide
    have hHigh := hDigit (c.toNat / 16) (by omega)
    have hLow := hDigit (c.toNat % 16) (by omega)
    simp [hEscape, hHigh.symm, hLow.symm]
  · have hBreak : c ≠ '\n' := by
      rintro rfl
      exact absurd hControl (by decide)
    simp [hEscape, hBreak.symm]

theorem newline_notMem_quote (s : String) : '\n' ∉ quote s := by
  simp [quote, newline_notMem_escape]

section Parts

variable {level next : Nat} {last : Char} {cs : List Char} {v : Json}

/-- A comma may follow a value, and what follows the comma is on a line of its own. -/
theorem Continues.comma (h : Indented level ',' cs) : Continues level (',' :: cs) :=
  fun _ _ => .char (by decide) h

/-- An item on a line of its own is indented one level deeper. -/
theorem indented_item (hPlain : v.IsPlain) (hItem : WritesIndented v)
    (hLevel : next = level + opens last) (hRest : Continues next cs) :
    Indented level last (Json.newLine next ++ (write .pretty next v ++ cs)) := by
  obtain ⟨c, rest, hWrite, hGap, hClose⟩ := exists_write_eq_cons .pretty next hPlain
  have hValue := hItem next last cs hRest
  rw [hWrite, List.cons_append] at hValue ⊢
  exact hValue.newLine hLevel hGap hClose

/-- A field on a line of its own is indented one level deeper. -/
theorem indented_field (key : String) (hItem : WritesIndented v)
    (hLevel : next = level + opens last) (hRest : Continues next cs) :
    Indented level last
      (Json.newLine next ++ (quote key ++ ':' :: ' ' :: (write .pretty next v ++ cs))) := by
  have hKey : Indented next last (quote key ++ ':' :: ' ' :: (write .pretty next v ++ cs)) := by
    apply Indented.append (newline_notMem_quote key)
    exact .char (by decide) (.char (by decide) (hItem next ' ' cs hRest))
  rw [quote, List.cons_append, List.cons_append] at hKey ⊢
  exact hKey.newLine hLevel rfl (by decide)

/-- All items are indented if each is, by induction on the items. -/
theorem indented_writeItems {items : List Json} (hNe : items ≠ [])
    (hPlain : ∀ v ∈ items, v.IsPlain) (hItems : ∀ v ∈ items, WritesIndented v)
    (hLevel : next = level + opens last) (hRest : Continues next cs) :
    Indented level last (writeItems .pretty next items ++ cs) := by
  induction items generalizing level last with
  | nil => exact (hNe rfl).elim
  | cons v items ih =>
      obtain ⟨hPlainFirst, hPlainRest⟩ := List.forall_mem_cons.mp hPlain
      obtain ⟨hFirst, hOthers⟩ := List.forall_mem_cons.mp hItems
      cases items with
      | nil =>
          rw [writeItems, List.append_assoc]
          exact indented_item hPlainFirst hFirst hLevel hRest
      | cons w items =>
          have hMore := ih (List.cons_ne_nil w items) hPlainRest hOthers
            (show next = next + opens ',' from rfl)
          rw [writeItems, List.append_assoc, List.append_assoc, List.cons_append]
          · exact indented_item hPlainFirst hFirst hLevel (.comma hMore)
          · simp

/-- All fields are indented if each value is, by induction on the fields. -/
theorem indented_writeFields {fields : List (String × Json)} (hNe : fields ≠ [])
    (hFields : ∀ f ∈ fields, WritesIndented f.2) (hLevel : next = level + opens last)
    (hRest : Continues next cs) :
    Indented level last (writeFields .pretty next fields ++ cs) := by
  induction fields generalizing level last with
  | nil => exact (hNe rfl).elim
  | cons f fields ih =>
      obtain ⟨hFirst, hOthers⟩ := List.forall_mem_cons.mp hFields
      cases fields with
      | nil =>
          have hField := indented_field f.1 hFirst hLevel hRest
          simpa [writeFields, Layout.pretty] using hField
      | cons g fields =>
          have hMore := ih (List.cons_ne_nil g fields) hOthers
            (show next = next + opens ',' from rfl)
          have hField := indented_field f.1 hFirst hLevel (.comma hMore)
          simpa [writeFields, Layout.pretty] using hField

end Parts

theorem writesIndented_of_isNumeral {v : Json} {text : List Char}
    (hWrite : ∀ level, write .pretty level v = text) (h : IsNumeral text) : WritesIndented v := by
  have hBreak : '\n' ∉ text := fun hMem => absurd (h.2 '\n' hMem) (by decide)
  apply writesIndented_of_notMem hWrite hBreak
  intro last
  obtain ⟨cs, c, rfl⟩ := (List.eq_nil_or_concat text).resolve_left h.1
  rw [List.concat_eq_append] at h ⊢
  have hNumeric : isNumeric c = true := h.2 c (by simp)
  rw [List.getLastD_concat]
  exact if_neg (not_or.mpr ⟨ne_of_isNumeric hNumeric rfl, ne_of_isNumeric hNumeric rfl⟩)

/-- Every value that has a spelling is written with its lines indented. -/
theorem writesIndented {v : Json} (h : v.IsPlain) : WritesIndented v := by
  induction h with
  | null => exact writesIndented_of_notMem (fun _ => rfl) (by decide) fun _ => rfl
  | bool b => cases b <;> exact writesIndented_of_notMem (fun _ => rfl) (by decide) fun _ => rfl
  | nat n => exact writesIndented_of_isNumeral (fun _ => rfl) (isNumeral_digits n)
  | number h => exact writesIndented_of_isNumeral (fun _ => rfl) h.isNumeral
  | str s =>
      apply writesIndented_of_notMem (fun _ => rfl) (newline_notMem_quote s)
      intro last
      rw [quote, List.getLastD_concat]
      rfl
  | @arr items h ih =>
      cases items with
      | nil => exact writesIndented_of_notMem (fun _ => rfl) (by decide) fun _ => rfl
      | cons v items =>
          intro level last cs hRest
          have hItems := indented_writeItems (List.cons_ne_nil v items) h ih
            (show level + 1 = level + opens '[' from rfl) (hRest.close (.inl rfl))
          simpa [write, Layout.pretty] using hItems.char (by decide)
  | @obj fields h ih =>
      cases fields with
      | nil => exact writesIndented_of_notMem (fun _ => rfl) (by decide) fun _ => rfl
      | cons f fields =>
          intro level last cs hRest
          have hFields := indented_writeFields (List.cons_ne_nil f fields) ih
            (show level + 1 = level + opens '\x7b' from rfl) (hRest.close (.inr rfl))
          simpa [write, Layout.pretty] using hFields.char (by decide)

/-- The pretty text of every value is indented. -/
theorem isIndented_toPretty {v : Json} (h : v.IsPlain) : IsIndented v.toPretty := by
  have hText := indented_item h (writesIndented h) (show 0 = 0 + opens ' ' from rfl)
    fun last _ => .nil 0 last
  simpa [IsIndented, toPretty, newLine] using hText

end JavaOutline.Json
