import JavaOutline.Proofs.Text.LineStart

/-! Stretches of a text. What lies between two characters of a text and two others is a text again,
and its beginning is found by skipping the lines before it and then the bytes before it on its
line. -/
namespace JavaOutline.Text

theorem length_encode (s : String) : (encode s).length = s.utf8ByteSize := by
  calc (encode s).length
      = s.toList.utf8Encode.size := List.size_toByteArray.symm
    _ = (String.ofList s.toList).toByteArray.size := by rw [String.toByteArray_ofList]
    _ = s.utf8ByteSize := by rw [String.ofList_toList, String.size_toByteArray]

theorem eq_empty_of_encode {s : String} (h : (encode s).length = 0) : s = "" := by
  rw [length_encode] at h
  exact String.utf8ByteSize_eq_zero_iff.mp h

/-- A line break is a byte of its own, and no other character has this byte. -/
theorem count_newline_bytesOf (cs : List Char) : (bytesOf cs).count newline = cs.count '\n' := by
  induction cs with
  | nil => rfl
  | cons c cs ih =>
      by_cases hBreak : c = '\n'
      · rw [hBreak, bytesOf_newline_cons, List.count_cons_self, List.count_cons_self, ih]
      · have hOther : newline ∉ bytesOf [c] :=
          newline_notMem_bytesOf fun hMem => hBreak (List.mem_singleton.mp hMem).symm
        rw [← List.singleton_append, bytesOf_append, List.count_append,
          List.count_eq_zero.mpr hOther, Nat.zero_add, ih, List.singleton_append,
          List.count_cons_of_ne hBreak]

/-- A place between characters divides a text in two. -/
theorem exists_append_of_isValid {s : String} {k : Nat} (h : (⟨k⟩ : String.Pos.Raw).IsValid s) :
    ∃ before after, s = before ++ after ∧ (encode before).length = k := by
  obtain ⟨before, after, hSplit, hEnd⟩ := String.Pos.Raw.isValid_iff_exists_append.mp h
  refine ⟨before, after, hSplit, ?_⟩
  rw [length_encode]
  exact (congrArg String.Pos.Raw.byteIdx hEnd).symm

/-- Of two ways to divide a text, the one with the longer front has the other front in it. -/
theorem exists_append_of_length_le {a b c d : String} (h : a ++ b = c ++ d)
    (hLe : (encode a).length ≤ (encode c).length) : ∃ between, c = a ++ between := by
  have hChars := congrArg String.toList h
  rw [String.toList_append, String.toList_append] at hChars
  rcases List.append_eq_append_iff.mp hChars with ⟨between, hLonger, -⟩ | ⟨between, hLonger, -⟩
  · refine ⟨String.ofList between, ?_⟩
    rw [← String.toList_inj, hLonger, String.toList_append, String.toList_ofList]
  · -- The second front is no longer than the first, so nothing is between them.
    have hFront : a = c ++ String.ofList between := by
      rw [← String.toList_inj, hLonger, String.toList_append, String.toList_ofList]
    have hEmpty : String.ofList between = "" := by
      rw [hFront, encode_append, List.length_append] at hLe
      apply eq_empty_of_encode
      omega
    exact ⟨"", by rw [hFront, hEmpty, String.append_empty, String.append_empty]⟩

/-- Two places between characters divide a text in three. -/
theorem exists_stretch {s : String} {start stop : Nat}
    (hStart : (⟨start⟩ : String.Pos.Raw).IsValid s) (hStop : (⟨stop⟩ : String.Pos.Raw).IsValid s)
    (hLe : start ≤ stop) :
    ∃ before inside after, s = before ++ inside ++ after ∧ (encode before).length = start ∧
      (encode (before ++ inside)).length = stop := by
  obtain ⟨before, rest, hSplit, rfl⟩ := exists_append_of_isValid hStart
  obtain ⟨front, after, hFront, rfl⟩ := exists_append_of_isValid hStop
  obtain ⟨inside, rfl⟩ := exists_append_of_length_le (hSplit.symm.trans hFront) hLe
  exact ⟨before, inside, after, hFront, rfl, rfl⟩

/-- A stretch of a text is read as the characters in it. -/
theorem slice_stretch (before inside after : String) :
    slice (encode (before ++ inside ++ after)) (encode before).length
      (encode (before ++ inside)).length = inside := by
  rw [encode_append, encode_append, slice]
  split_ifs with hInside
  · rw [List.append_assoc, List.drop_left, List.length_append, Nat.add_sub_cancel_left,
      List.take_left, decodeLenient_encode]
  · -- The stretch is beyond the last byte, so it is empty.
    simp only [List.length_append, Bool.and_eq_true, decide_eq_true_eq] at hInside
    exact (eq_empty_of_encode (by omega)).symm

/-- What is left of some bytes when ended lines are skipped, if there are so many. -/
def skipLines : Nat → List UInt8 → Option (List UInt8)
  | 0, bytes => some bytes
  | _ + 1, [] => none
  | k + 1, b :: bytes => if b = newline then skipLines k bytes else skipLines (k + 1) bytes

/-- After as many line breaks as are skipped the rest is left. -/
theorem skipLines_ended (ended rest : List UInt8) :
    skipLines (ended.count newline + 1) (ended ++ newline :: rest) = some rest := by
  induction ended with
  | nil => simp [skipLines]
  | cons b ended ih =>
      rw [List.cons_append, skipLines]
      split_ifs with hBreak
      · rw [hBreak, List.count_cons_self, ih]
      · rw [List.count_cons_of_ne hBreak, ih]

/-- Skipping the lines before a place and then the bytes before it on its line leaves what comes
after the place. -/
theorem exists_skipLines (bytes rest : List UInt8) :
    ∃ left, skipLines (bytes.count newline) (bytes ++ rest) = some left ∧
      columnAfter bytes ≤ left.length ∧ left.drop (columnAfter bytes) = rest := by
  obtain ⟨before, after, hSplit, hAfter, hColumn, hEnded⟩ := exists_line_split bytes
  refine ⟨after ++ rest, ?_, ?_, ?_⟩
  · have hCount : bytes.count newline = before.count newline := by
      rw [hSplit, List.count_append, List.count_eq_zero.mpr hAfter, Nat.add_zero]
    rw [hCount, hSplit, List.append_assoc]
    rcases hEnded with rfl | ⟨ended, rfl⟩
    · rw [List.count_nil, List.nil_append, skipLines]
    · rw [List.count_append, List.count_singleton_self, List.append_assoc, List.singleton_append,
        skipLines_ended]
  · rw [← hColumn, List.length_append]
    exact Nat.le_add_right _ _
  · rw [← hColumn, List.drop_left]

end JavaOutline.Text
