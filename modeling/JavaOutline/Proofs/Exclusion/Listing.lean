import JavaOutline.Exclusion.Set
import JavaOutline.Proofs.Text.Trim

/-! What the text of an ignore file lists. An entry stands on a line of its own, blanks may stand
around it, and lines that are blank or begin with a comment sign list nothing. However a text is
laid out in this way, reading it gives its entries in their order. -/
namespace JavaOutline

/-- Blanks that stay within a line. -/
def IsMargin (cs : List Char) : Prop := ∀ c ∈ cs, Text.isBlank c = true ∧ c ≠ '\n'

instance (cs : List Char) : Decidable (IsMargin cs) :=
  List.decidableBAll (fun c => Text.isBlank c = true ∧ c ≠ '\n') cs

structure IsListable (raw : String) : Prop where
  nonempty : raw ≠ ""
  trimmed : Text.trim raw = raw
  oneLine : '\n' ∉ raw.toList
  noComment : raw.toList.head? ≠ some '#'

instance (raw : String) : Decidable (IsListable raw) :=
  decidable_of_iff
    (raw ≠ "" ∧ Text.trim raw = raw ∧ '\n' ∉ raw.toList ∧ raw.toList.head? ≠ some '#')
    ⟨fun ⟨h, hTrim, hLine, hComment⟩ => ⟨h, hTrim, hLine, hComment⟩,
      fun ⟨h, hTrim, hLine, hComment⟩ => ⟨h, hTrim, hLine, hComment⟩⟩

/-- The lines of ignore files, without their ends, and the entry that each of them lists. -/
inductive IgnoreLine : List Char → Option String → Prop
  | entry {before after : List Char} {raw : String} (hBefore : IsMargin before)
      (hRaw : IsListable raw) (hAfter : IsMargin after) :
      IgnoreLine (before ++ raw.toList ++ after) (some raw)
  | blank {margin : List Char} (hMargin : IsMargin margin) : IgnoreLine margin none
  | comment {before text : List Char} (hBefore : IsMargin before) (hText : '\n' ∉ text) :
      IgnoreLine (before ++ '#' :: text) none

/-- The texts of ignore files and the entries that they list. Each line but the last has an end, of
one character or of two. -/
inductive IgnoreText : List Char → List String → Prop
  | last {line : List Char} {raw? : Option String} (hLine : IgnoreLine line raw?) :
      IgnoreText line raw?.toList
  | ended {line ending rest : List Char} {raw? : Option String} {others : List String}
      (hLine : IgnoreLine line raw?) (hEnding : ending = ['\n'] ∨ ending = ['\r', '\n'])
      (hRest : IgnoreText rest others) :
      IgnoreText (line ++ ending ++ rest) (raw?.toList ++ others)

def listed? (line : List Char) : Option String :=
  let entry := Text.trimChars line
  if entry = [] ∨ entry.head? = some '#' then none else some (String.ofList entry)

theorem ignoreEntries_eq (text : String) :
    ignoreEntries text = (Text.splitLines text.toList).filterMap listed? := rfl

/-- A margin is blank. -/
theorem IsMargin.isBlank {cs : List Char} (h : IsMargin cs) : ∀ c ∈ cs, Text.isBlank c = true :=
  fun c hc => (h c hc).1

theorem IsMargin.newline_notMem {cs : List Char} (h : IsMargin cs) : '\n' ∉ cs :=
  fun hMem => (h '\n' hMem).2 rfl

theorem IsMargin.concat_carriageReturn {cs : List Char} (h : IsMargin cs) :
    IsMargin (cs ++ ['\r']) := by
  have hReturn : IsMargin ['\r'] := by decide
  exact List.forall_mem_append.mpr ⟨h, hReturn⟩

/-- An entry on a line has no blanks at its ends. -/
theorem IsListable.trimChars_eq {raw : String} (h : IsListable raw) :
    Text.trimChars raw.toList = raw.toList := by
  have hTrimmed := congrArg String.toList h.trimmed
  rwa [Text.trim, String.toList_ofList] at hTrimmed

/-- A line has no line break in it. -/
theorem IgnoreLine.newline_notMem {line : List Char} {raw? : Option String}
    (h : IgnoreLine line raw?) : '\n' ∉ line := by
  cases h with
  | entry hBefore hRaw hAfter =>
      simp [hBefore.newline_notMem, hRaw.oneLine, hAfter.newline_notMem]
  | blank hMargin => exact hMargin.newline_notMem
  | comment hBefore hText => simp [hBefore.newline_notMem, hText]

/-- A carriage return before the end of a line is as good as part of the line. -/
theorem IgnoreLine.concat_carriageReturn {line : List Char} {raw? : Option String}
    (h : IgnoreLine line raw?) : IgnoreLine (line ++ ['\r']) raw? := by
  cases h with
  | entry hBefore hRaw hAfter =>
      rw [List.append_assoc]
      exact .entry hBefore hRaw hAfter.concat_carriageReturn
  | blank hMargin => exact .blank hMargin.concat_carriageReturn
  | comment hBefore hText =>
      rw [List.append_assoc, List.cons_append]
      exact .comment hBefore (by simp [hText])

/-- A line is read as listing what it lists. -/
theorem IgnoreLine.listed?_eq {line : List Char} {raw? : Option String}
    (h : IgnoreLine line raw?) : listed? line = raw? := by
  cases h with
  | @entry before after raw hBefore hRaw hAfter =>
      have hTrim : Text.trimChars (before ++ raw.toList ++ after) = raw.toList := by
        rw [Text.trimChars_margins hBefore.isBlank hAfter.isBlank, hRaw.trimChars_eq]
      have hNonempty : raw.toList ≠ [] := by simpa using hRaw.nonempty
      simp only [listed?, hTrim, hNonempty, hRaw.noComment, or_self, if_false,
        String.ofList_toList]
  | blank hMargin =>
      have hTrim := Text.trimChars_margins hMargin.isBlank (List.forall_mem_nil _) []
      rw [List.append_nil, List.append_nil] at hTrim
      exact if_pos (.inl hTrim)
  | comment hBefore hText =>
      have hSign : Text.isBlank '#' = false := by decide
      exact if_pos (.inr (Text.head?_trimChars hBefore.isBlank hSign _))

/-- A text is read as listing what it lists. -/
theorem IgnoreText.filterMap_listed? {cs : List Char} {entries : List String}
    (h : IgnoreText cs entries) : (Text.splitLines cs).filterMap listed? = entries := by
  induction h with
  | @last line raw? hLine =>
      rw [Text.splitLines_last hLine.newline_notMem, List.filterMap_cons, hLine.listed?_eq]
      cases raw? <;> rfl
  | @ended line ending rest raw? others hLine hEnding _ ih =>
      -- The line as it is found holds what stands before the line break.
      obtain ⟨found, hFound, hSplit⟩ : ∃ found, IgnoreLine found raw? ∧
          line ++ ending ++ rest = found ++ '\n' :: rest := by
        rcases hEnding with rfl | rfl
        · exact ⟨line, hLine, by simp⟩
        · exact ⟨line ++ ['\r'], hLine.concat_carriageReturn, by simp⟩
      rw [hSplit, Text.splitLines_ended hFound.newline_notMem, List.filterMap_cons,
        hFound.listed?_eq, ih]
      cases raw? <;> rfl

end JavaOutline
