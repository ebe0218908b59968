import JavaOutline.Proofs.Text.Lines

/-! Where the line of a byte begins: as many bytes before it as there are since the last line break.
The bytes before that place are those on earlier lines. -/
namespace JavaOutline.Text

/-- Bytes up to a place are those before its line, which are ended, and those on its line. -/
theorem exists_line_split (bytes : List UInt8) :
    ∃ before after, bytes = before ++ after ∧ newline ∉ after ∧
      after.length = columnAfter bytes ∧ (before = [] ∨ ∃ ended, before = ended ++ [newline]) := by
  refine ⟨(bytes.reverse.dropWhile (· != newline)).reverse,
    (bytes.reverse.takeWhile (· != newline)).reverse, ?_, ?_, List.length_reverse, ?_⟩
  · rw [← List.reverse_append, List.takeWhile_append_dropWhile, List.reverse_reverse]
  · intro hMem
    simpa using List.mem_takeWhile_imp (List.mem_reverse.mp hMem)
  · cases hRest : bytes.reverse.dropWhile (· != newline) with
    | nil => exact .inl rfl
    | cons b rest =>
        have hNot := List.head_dropWhile_not (· != newline) (by rw [hRest]; simp)
        simp only [hRest, List.head_cons, bne_eq_false_iff_eq] at hNot
        exact .inr ⟨rest.reverse, by rw [List.reverse_cons, hNot]⟩

section LineStart

variable {content : List UInt8} {j k : Nat}

theorem count_take_mono (content : List UInt8) (h : j ≤ k) :
    (content.take j).count newline ≤ (content.take k).count newline :=
  (List.take_sublist_take_left h).count_le newline

/-- The beginning of a line is on the line. -/
theorem count_take_lineStart (hk : k ≤ content.length) :
    (content.take (k - columnAfter (content.take k))).count newline =
      (content.take k).count newline := by
  obtain ⟨before, after, hSplit, hAfter, hColumn, -⟩ := exists_line_split (content.take k)
  have hLength := congrArg List.length hSplit
  rw [List.length_take_of_le hk, List.length_append] at hLength
  have hStart : content.take (k - columnAfter (content.take k)) = before := by
    calc content.take (k - columnAfter (content.take k))
        = (content.take k).take (k - columnAfter (content.take k)) := by
          rw [List.take_take, Nat.min_eq_left (Nat.sub_le _ _)]
      _ = before := by rw [hSplit, List.take_left' (by rw [← hSplit]; omega)]
  rw [hStart, hSplit, List.count_append, List.count_eq_zero.mpr hAfter, Nat.add_zero]

/-- What comes before the beginning of a line is what is on earlier lines. -/
theorem lt_lineStart_iff (hk : k ≤ content.length) :
    j < k - columnAfter (content.take k) ↔
      (content.take j).count newline < (content.take k).count newline := by
  constructor
  · intro hBefore
    obtain ⟨before, after, hSplit, hAfter, hColumn, hEnded⟩ := exists_line_split (content.take k)
    have hLength := congrArg List.length hSplit
    rw [List.length_take_of_le hk, List.length_append] at hLength
    rcases hEnded with rfl | ⟨ended, rfl⟩
    · simp only [List.length_nil] at hLength
      omega
    · rw [List.length_append, List.length_singleton] at hLength
      have hTake : content.take j = ended.take j := by
        calc content.take j
            = (content.take k).take j := by rw [List.take_take, Nat.min_eq_left (by omega)]
          _ = ended.take j := by
              rw [hSplit, List.append_assoc, List.take_append_of_le_length (by omega)]
      have hLess := (List.take_sublist j ended).count_le newline
      rw [hTake, hSplit, List.count_append, List.count_append, List.count_singleton_self]
      omega
  · intro hRow
    by_contra hAfter
    have hLess := count_take_mono content (Nat.le_of_not_lt hAfter)
    rw [count_take_lineStart hk] at hLess
    omega

/-- What comes after the beginning of a line, and not after a later place on the line, is what is on
the line and not at its beginning. -/
theorem lineStart_lt_iff (hj : j ≤ k) (hk : k ≤ content.length) :
    k - columnAfter (content.take k) < j ↔
      (content.take j).count newline = (content.take k).count newline ∧
        0 < columnAfter (content.take j) := by
  have hStart := count_take_lineStart hk
  constructor
  · intro hLess
    have hRow : (content.take j).count newline = (content.take k).count newline := by
      have hFrom := count_take_mono content hLess.le
      have hTo := count_take_mono content hj
      omega
    refine ⟨hRow, Nat.pos_of_ne_zero fun hColumn => ?_⟩
    have hEarlier := (lt_lineStart_iff (j := k - columnAfter (content.take k)) (hj.trans hk)).mp
      (by omega)
    omega
  · rintro ⟨hRow, hColumn⟩
    have hLine := count_take_lineStart (hj.trans hk)
    have hNotEarlier := (lt_lineStart_iff (j := j - columnAfter (content.take j)) hk).not.mpr
      (by omega)
    have hWidth := columnAfter_take_le content j
    omega

end LineStart

end JavaOutline.Text
