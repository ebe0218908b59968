import JavaOutline.Text.Utf8
import Mathlib.Data.List.Infix

/-! Bytes that are read as a text are the bytes of that text. Each unit that is a character takes up
exactly the bytes that the character is written with, so strict reading is injective. Conversely the
bytes of a character are read as one unit, so a text is read back from its bytes. -/
namespace JavaOutline.Text

/-- What a first byte can ask for: one, two or three further bytes, and tighter bounds on the next
one where the number would have a shorter form, be a surrogate or lie beyond the last character. -/
theorem opening?_cases {b : UInt8} {o : Opening} (h : opening? b = some o) :
    (o.tails = 1 ∧ 0xC2 ≤ b.toNat ∧ b.toNat ≤ 0xDF ∧ o.share = b.toNat - 0xC0 ∧
      0x80 ≤ o.low.toNat ∧ o.high.toNat ≤ 0xBF) ∨
    (o.tails = 2 ∧ 0xE0 ≤ b.toNat ∧ b.toNat ≤ 0xEF ∧ o.share = b.toNat - 0xE0 ∧
      0x80 ≤ o.low.toNat ∧ o.high.toNat ≤ 0xBF ∧ (b.toNat = 0xE0 → 0xA0 ≤ o.low.toNat) ∧
      (b.toNat = 0xED → o.high.toNat ≤ 0x9F)) ∨
    (o.tails = 3 ∧ 0xF0 ≤ b.toNat ∧ b.toNat ≤ 0xF4 ∧ o.share = b.toNat - 0xF0 ∧
      0x80 ≤ o.low.toNat ∧ o.high.toNat ≤ 0xBF ∧ (b.toNat = 0xF0 → 0x90 ≤ o.low.toNat) ∧
      (b.toNat = 0xF4 → o.high.toNat ≤ 0x8F)) := by
  unfold opening? at h
  simp only [Bool.and_eq_true, decide_eq_true_eq, beq_iff_eq, UInt8.le_iff_toNat_le,
    ← UInt8.toNat_inj] at h
  split_ifs at h <;> rw [Option.some.injEq] at h <;> subst h <;>
    simp only [UInt8.reduceToNat, true_and] at * <;> omega

theorem readTails_zero {share count : Nat} {low high : UInt8} {bytes : List UInt8} {c : Char}
    (h : readTails share 0 low high bytes = (count, some c)) :
    count = 0 ∧ c = Char.ofNat share := by
  simp only [readTails, Prod.mk.injEq, Option.some.injEq] at h
  exact ⟨h.1.symm, h.2.symm⟩

/-- A character that asks for a further byte finds one in the range. -/
theorem readTails_succ {share n count : Nat} {low high : UInt8} {bytes : List UInt8} {c : Char}
    (h : readTails share (n + 1) low high bytes = (count, some c)) :
    ∃ b rest count', bytes = b :: rest ∧ low.toNat ≤ b.toNat ∧ b.toNat ≤ high.toNat ∧
      readTails (share * 64 + (b.toNat - 0x80)) n 0x80 0xBF rest = (count', some c) ∧
      count = count' + 1 := by
  cases bytes with
  | nil => simp [readTails] at h
  | cons b rest =>
      rw [readTails] at h
      split_ifs at h with hRange
      · simp only [Bool.and_eq_true, decide_eq_true_eq, UInt8.le_iff_toNat_le] at hRange
        simp only [Prod.mk.injEq] at h
        exact ⟨b, rest, _, rfl, hRange.1, hRange.2, Prod.ext rfl h.2, h.1.symm⟩
      · simp at h

/-- The number of a character that is given by its number. -/
theorem val_ofNat {v : Nat} (h : v.isValidChar) : (Char.ofNat v).val.toNat = v := by
  rw [Char.ofNat, dif_pos h]
  rfl

theorem utf8EncodeChar_ofNat_one {x : UInt8} (hx : x.toNat < 0x80) :
    String.utf8EncodeChar (Char.ofNat x.toNat) = [x] := by
  have hVal : (Char.ofNat x.toNat).val.toNat = x.toNat :=
    val_ofNat (by unfold Nat.isValidChar; omega)
  rw [String.utf8EncodeChar, hVal, if_pos (by omega)]
  simp

/-- A character of two bytes has the bytes it was read from. -/
theorem utf8EncodeChar_ofNat_two {x y : UInt8} (hx : 0xC2 ≤ x.toNat ∧ x.toNat ≤ 0xDF)
    (hy : 0x80 ≤ y.toNat ∧ y.toNat ≤ 0xBF) :
    String.utf8EncodeChar (Char.ofNat ((x.toNat - 0xC0) * 64 + (y.toNat - 0x80))) = [x, y] := by
  generalize hv : (x.toNat - 0xC0) * 64 + (y.toNat - 0x80) = v
  have hVal : (Char.ofNat v).val.toNat = v := val_ofNat (by unfold Nat.isValidChar; omega)
  rw [String.utf8EncodeChar, hVal, if_neg (by omega), if_pos (by omega)]
  simp only [List.cons.injEq, ← UInt8.toNat_inj, UInt8.toNat_ofNat', and_true]
  omega

/-- A character of three bytes has the bytes it was read from, since shorter forms and surrogates
are left out. -/
theorem utf8EncodeChar_ofNat_three {x y z : UInt8} (hx : 0xE0 ≤ x.toNat ∧ x.toNat ≤ 0xEF)
    (hy : 0x80 ≤ y.toNat ∧ y.toNat ≤ 0xBF) (hz : 0x80 ≤ z.toNat ∧ z.toNat ≤ 0xBF)
    (hShort : x.toNat = 0xE0 → 0xA0 ≤ y.toNat) (hSurrogate : x.toNat = 0xED → y.toNat ≤ 0x9F) :
    String.utf8EncodeChar (Char.ofNat
      (((x.toNat - 0xE0) * 64 + (y.toNat - 0x80)) * 64 + (z.toNat - 0x80))) = [x, y, z] := by
  generalize hv : ((x.toNat - 0xE0) * 64 + (y.toNat - 0x80)) * 64 + (z.toNat - 0x80) = v
  have hVal : (Char.ofNat v).val.toNat = v := val_ofNat (by unfold Nat.isValidChar; omega)
  rw [String.utf8EncodeChar, hVal, if_neg (by omega), if_neg (by omega), if_pos (by omega)]
  simp only [List.cons.injEq, ← UInt8.toNat_inj, UInt8.toNat_ofNat', and_true]
  omega

/-- A character of four bytes has the bytes it was read from, since shorter forms and numbers that
are too large are left out. -/
theorem utf8EncodeChar_ofNat_four {x y z w : UInt8} (hx : 0xF0 ≤ x.toNat ∧ x.toNat ≤ 0xF4)
    (hy : 0x80 ≤ y.toNat ∧ y.toNat ≤ 0xBF) (hz : 0x80 ≤ z.toNat ∧ z.toNat ≤ 0xBF)
    (hw : 0x80 ≤ w.toNat ∧ w.toNat ≤ 0xBF) (hShort : x.toNat = 0xF0 → 0x90 ≤ y.toNat)
    (hLast : x.toNat = 0xF4 → y.toNat ≤ 0x8F) :
    String.utf8EncodeChar (Char.ofNat ((((x.toNat - 0xF0) * 64 + (y.toNat - 0x80)) * 64 +
      (z.toNat - 0x80)) * 64 + (w.toNat - 0x80))) = [x, y, z, w] := by
  generalize hv : (((x.toNat - 0xF0) * 64 + (y.toNat - 0x80)) * 64 + (z.toNat - 0x80)) * 64 +
    (w.toNat - 0x80) = v
  have hVal : (Char.ofNat v).val.toNat = v := val_ofNat (by unfold Nat.isValidChar; omega)
  rw [String.utf8EncodeChar, hVal, if_neg (by omega), if_neg (by omega), if_neg (by omega)]
  simp only [List.cons.injEq, ← UInt8.toNat_inj, UInt8.toNat_ofNat', and_true]
  omega

/-- A unit that is a character has the bytes of that character. -/
theorem firstUnit_some {b : UInt8} {rest : List UInt8} {count : Nat} {c : Char}
    (h : firstUnit b rest = (count, some c)) :
    b :: rest = String.utf8EncodeChar c ++ rest.drop count := by
  unfold firstUnit at h
  split_ifs at h with hAscii
  · rw [UInt8.lt_iff_toNat_lt] at hAscii
    simp only [Prod.mk.injEq, Option.some.injEq] at h
    obtain ⟨rfl, rfl⟩ := h
    rw [utf8EncodeChar_ofNat_one hAscii]
    rfl
  · cases hOpening : opening? b with
    | none => simp [hOpening] at h
    | some o =>
        simp only [hOpening] at h
        rcases opening?_cases hOpening with ⟨hTails, hb, hb', hShare, hLow, hHigh⟩ |
          ⟨hTails, hb, hb', hShare, hLow, hHigh, hShort, hSurrogate⟩ |
          ⟨hTails, hb, hb', hShare, hLow, hHigh, hShort, hLast⟩
        · rw [hTails, hShare] at h
          obtain ⟨y, rest, n, rfl, hy, hy', h₁, rfl⟩ := readTails_succ h
          obtain ⟨rfl, hc⟩ := readTails_zero h₁
          rw [hc, utf8EncodeChar_ofNat_two ⟨hb, hb'⟩ ⟨by omega, by omega⟩]
          rfl
        · rw [hTails, hShare] at h
          obtain ⟨y, rest, n, rfl, hy, hy', h₁, rfl⟩ := readTails_succ h
          obtain ⟨z, rest, n, rfl, hz, hz', h₂, rfl⟩ := readTails_succ h₁
          obtain ⟨rfl, hc⟩ := readTails_zero h₂
          simp only [UInt8.reduceToNat] at hz hz'
          rw [hc, utf8EncodeChar_ofNat_three ⟨hb, hb'⟩ ⟨by omega, by omega⟩ ⟨hz, hz'⟩
            (fun h => by have := hShort h; omega) (fun h => by have := hSurrogate h; omega)]
          rfl
        · rw [hTails, hShare] at h
          obtain ⟨y, rest, n, rfl, hy, hy', h₁, rfl⟩ := readTails_succ h
          obtain ⟨z, rest, n, rfl, hz, hz', h₂, rfl⟩ := readTails_succ h₁
          obtain ⟨w, rest, n, rfl, hw, hw', h₃, rfl⟩ := readTails_succ h₂
          obtain ⟨rfl, hc⟩ := readTails_zero h₃
          simp only [UInt8.reduceToNat] at hz hz' hw hw'
          rw [hc, utf8EncodeChar_ofNat_four ⟨hb, hb'⟩ ⟨by omega, by omega⟩ ⟨hz, hz'⟩ ⟨hw, hw'⟩
            (fun h => by have := hShort h; omega) (fun h => by have := hLast h; omega)]
          rfl

/-- Bytes that belong to a unit already read are passed over. -/
theorem unitsAfter_eq_drop (k : Nat) (bytes : List UInt8) :
    unitsAfter k bytes = units (bytes.drop k) := by
  induction bytes generalizing k with
  | nil => cases k <;> simp [units, unitsAfter]
  | cons b rest ih =>
      cases k with
      | zero => rfl
      | succ k => rw [unitsAfter, ih, List.drop_succ_cons]

/-- The first unit takes as many bytes as belong to it. -/
theorem units_cons (b : UInt8) (rest : List UInt8) :
    units (b :: rest) =
      (firstUnit b rest).2 :: units (rest.drop (firstUnit b rest).1) := by
  rw [units, unitsAfter]
  exact congrArg _ (unitsAfter_eq_drop _ _)

/-- A character that is read is read from its own bytes. -/
theorem subset_of_mem_units {bytes : List UInt8} {c : Char} (h : some c ∈ units bytes) :
    String.utf8EncodeChar c ⊆ bytes := by
  -- A unit can take up several bytes, so the induction is on how many bytes there are.
  induction hLength : bytes.length using Nat.strongRecOn generalizing bytes with
  | ind n ih =>
      cases bytes with
      | nil => simp [units, unitsAfter] at h
      | cons b rest =>
          rw [units_cons, List.mem_cons] at h
          rcases h with hFirst | hRest
          · have hUnit : firstUnit b rest = ((firstUnit b rest).1, some c) :=
              Prod.ext rfl hFirst.symm
            rw [firstUnit_some hUnit]
            exact List.subset_append_left _ _
          · have hShorter : (rest.drop (firstUnit b rest).1).length < n := by
              rw [← hLength, List.length_drop, List.length_cons]
              omega
            have hSubset := ih _ hShorter hRest rfl
            exact fun x hx => List.mem_cons_of_mem _ (List.mem_of_mem_drop (hSubset hx))

/-- Every character but the replacement stands in the bytes as it is encoded. -/
theorem subset_of_mem_decodeLenient {bytes : List UInt8} {c : Char}
    (h : c ∈ (decodeLenient bytes).toList) (hc : c ≠ replacement) :
    String.utf8EncodeChar c ⊆ bytes := by
  rw [decodeLenient, String.toList_ofList] at h
  obtain ⟨u, hu, hShown⟩ := List.mem_map.mp h
  cases u with
  | none => exact (hc hShown.symm).elim
  | some d =>
      obtain rfl : d = c := hShown
      exact subset_of_mem_units hu

/-- A stretch of bytes shows no characters but those that are written there, apart from U+FFFD. -/
theorem subset_of_mem_slice {bytes : List UInt8} {start stop : Nat} {c : Char}
    (h : c ∈ (slice bytes start stop).toList) (hc : c ≠ replacement) :
    String.utf8EncodeChar c ⊆ bytes := by
  unfold slice at h
  split_ifs at h with hInside
  · have hSubset := subset_of_mem_decodeLenient h hc
    exact fun x hx => List.mem_of_mem_drop (List.mem_of_mem_take (hSubset hx))
  · simp at h

/-- Bytes of which every unit is a character are the bytes of these characters. -/
theorem eq_of_units_eq_map_some {bytes : List UInt8} {cs : List Char}
    (h : units bytes = cs.map some) : bytes = cs.flatMap String.utf8EncodeChar := by
  induction cs generalizing bytes with
  | nil =>
      cases bytes with
      | nil => rfl
      | cons b rest => simp [units_cons] at h
  | cons c cs ih =>
      cases bytes with
      | nil => simp [units, unitsAfter] at h
      | cons b rest =>
          rw [units_cons, List.map_cons, List.cons.injEq] at h
          have hUnit : firstUnit b rest = ((firstUnit b rest).1, some c) := Prod.ext rfl h.1
          rw [firstUnit_some hUnit, ih h.2, List.flatMap_cons]

/-- If nothing is missing, all units are characters. -/
theorem eq_map_some_of_mapM_id {us : List (Option Char)} {cs : List Char}
    (h : us.mapM id = some cs) : us = cs.map some := by
  induction us generalizing cs with
  | nil =>
      obtain rfl : [] = cs := by simpa using h
      rfl
  | cons u us ih =>
      rw [List.mapM_cons, Option.bind_eq_bind, Option.bind_eq_some_iff] at h
      obtain ⟨c, hc, h⟩ := h
      rw [Option.bind_eq_bind, Option.bind_eq_some_iff] at h
      obtain ⟨rest, hRest, h⟩ := h
      obtain rfl : c :: rest = cs := by simpa using h
      rw [List.map_cons, ih hRest, ← hc, id]

/-- Bytes that are a text have no broken units. -/
theorem units_eq_of_decode? {bytes : List UInt8} {s : String} (h : decode? bytes = some s) :
    units bytes = s.toList.map some := by
  obtain ⟨cs, hCs, rfl⟩ := Option.map_eq_some_iff.mp h
  rw [String.toList_ofList]
  exact eq_map_some_of_mapM_id hCs

/-- A text that is read from bytes is written with these bytes. -/
theorem encode_of_decode? {bytes : List UInt8} {s : String} (h : decode? bytes = some s) :
    encode s = bytes :=
  (eq_of_units_eq_map_some (units_eq_of_decode? h)).symm

/-- Different bytes are never read as the same text. -/
theorem decode?_injective {bytes others : List UInt8} {s : String} (h : decode? bytes = some s)
    (hOthers : decode? others = some s) : bytes = others :=
  (encode_of_decode? h).symm.trans (encode_of_decode? hOthers)

/-- A unit goes on as its first byte asks. -/
theorem firstUnit_of_opening? {b : UInt8} {o : Opening} (hb : 0x80 ≤ b.toNat)
    (h : opening? b = some o) (rest : List UInt8) :
    firstUnit b rest = readTails o.share o.tails o.low o.high rest := by
  have hNotAscii : ¬ b < 0x80 := by
    rw [UInt8.lt_iff_toNat_lt]
    exact Nat.not_lt.mpr hb
  simp only [firstUnit, if_neg hNotAscii, h]

theorem readTails_cons {share n : Nat} {low high b : UInt8} {rest : List UInt8}
    (hLow : low.toNat ≤ b.toNat) (hHigh : b.toNat ≤ high.toNat) :
    readTails share (n + 1) low high (b :: rest) =
      ((readTails (share * 64 + (b.toNat - 0x80)) n 0x80 0xBF rest).1 + 1,
        (readTails (share * 64 + (b.toNat - 0x80)) n 0x80 0xBF rest).2) := by
  have hRange : (low ≤ b && b ≤ high) = true := by
    simp [UInt8.le_iff_toNat_le, hLow, hHigh]
  rw [readTails, if_pos hRange]

/-- Past the byte after the first, every further byte may be any that continues a character. -/
theorem readTails_isTail {share n : Nat} {b : UInt8} {rest : List UInt8}
    (hLow : 0x80 ≤ b.toNat) (hHigh : b.toNat ≤ 0xBF) :
    readTails share (n + 1) 0x80 0xBF (b :: rest) =
      ((readTails (share * 64 + (b.toNat - 0x80)) n 0x80 0xBF rest).1 + 1,
        (readTails (share * 64 + (b.toNat - 0x80)) n 0x80 0xBF rest).2) :=
  readTails_cons hLow hHigh

theorem opening?_two {b : UInt8} (hb : 0xC2 ≤ b.toNat) (hb' : b.toNat ≤ 0xDF) :
    opening? b = some ⟨b.toNat - 0xC0, 1, 0x80, 0xBF⟩ := by
  rw [opening?, if_pos (by simp [UInt8.le_iff_toNat_le, hb, hb'])]

theorem opening?_three {b : UInt8} (hb : 0xE0 ≤ b.toNat) (hb' : b.toNat ≤ 0xEF) :
    ∃ low high, opening? b = some ⟨b.toNat - 0xE0, 2, low, high⟩ ∧
      low.toNat = (if b.toNat = 0xE0 then 0xA0 else 0x80) ∧
      high.toNat = (if b.toNat = 0xED then 0x9F else 0xBF) := by
  by_cases hFirst : b = 0xE0
  · subst hFirst
    exact ⟨0xA0, 0xBF, by decide, by decide, by decide⟩
  by_cases hSurrogate : b = 0xED
  · subst hSurrogate
    exact ⟨0x80, 0x9F, by decide, by decide, by decide⟩
  have hRange : (0xE1 ≤ b && b ≤ 0xEF) = true := by
    simp only [← UInt8.toNat_inj, Bool.and_eq_true, decide_eq_true_eq, UInt8.le_iff_toNat_le,
      UInt8.reduceToNat] at *
    omega
  refine ⟨0x80, 0xBF, ?_, ?_, ?_⟩
  · rw [opening?, if_neg, if_neg (by simpa using hFirst), if_neg (by simpa using hSurrogate),
      if_pos hRange]
    simp only [Bool.and_eq_true, decide_eq_true_eq, UInt8.le_iff_toNat_le, UInt8.reduceToNat]
    omega
  · rw [if_neg (by simpa [← UInt8.toNat_inj] using hFirst)]
    rfl
  · rw [if_neg (by simpa [← UInt8.toNat_inj] using hSurrogate)]
    rfl

theorem opening?_four {b : UInt8} (hb : 0xF0 ≤ b.toNat) (hb' : b.toNat ≤ 0xF4) :
    ∃ low high, opening? b = some ⟨b.toNat - 0xF0, 3, low, high⟩ ∧
      low.toNat = (if b.toNat = 0xF0 then 0x90 else 0x80) ∧
      high.toNat = (if b.toNat = 0xF4 then 0x8F else 0xBF) := by
  obtain rfl | rfl | rfl | rfl | rfl : b = 0xF0 ∨ b = 0xF1 ∨ b = 0xF2 ∨ b = 0xF3 ∨ b = 0xF4 := by
    simp only [← UInt8.toNat_inj, UInt8.reduceToNat]
    omega
  · exact ⟨0x90, 0xBF, by decide, by decide, by decide⟩
  · exact ⟨0x80, 0xBF, by decide, by decide, by decide⟩
  · exact ⟨0x80, 0xBF, by decide, by decide, by decide⟩
  · exact ⟨0x80, 0xBF, by decide, by decide, by decide⟩
  · exact ⟨0x80, 0x8F, by decide, by decide, by decide⟩

theorem toNat_ofNat_of_lt {n : Nat} (h : n < 256) : (UInt8.ofNat n).toNat = n := by
  rw [UInt8.toNat_ofNat']
  exact Nat.mod_eq_of_lt h

/-- The bytes of a character are read as that character, whatever follows them. -/
theorem firstUnit_utf8EncodeChar (c : Char) :
    ∃ b tail, String.utf8EncodeChar c = b :: tail ∧
      ∀ rest, firstUnit b (tail ++ rest) = (tail.length, some c) := by
  have hChar : Char.ofNat c.val.toNat = c := Char.ofNat_toNat c
  have hValid : c.val.toNat < 0xD800 ∨ 0xDFFF < c.val.toNat ∧ c.val.toNat < 0x110000 := c.valid
  unfold String.utf8EncodeChar
  dsimp only
  generalize c.val.toNat = v at *
  -- One case for each number of bytes; the bytes are named, so that only their numbers matter.
  split_ifs with h₁ h₂ h₃
  · refine ⟨_, [], rfl, fun rest => ?_⟩
    have hx := toNat_ofNat_of_lt (show v < 256 by omega)
    have hAscii : UInt8.ofNat v < 0x80 := by
      rw [UInt8.lt_iff_toNat_lt, hx]
      exact Nat.lt_succ_of_le h₁
    rw [firstUnit, if_pos hAscii, hx, hChar]
    rfl
  · refine ⟨_, [_], rfl, fun rest => ?_⟩
    have hx := toNat_ofNat_of_lt (show v / 64 % 32 + 192 < 256 by omega)
    have hy := toNat_ofNat_of_lt (show v % 64 + 128 < 256 by omega)
    generalize UInt8.ofNat (v / 64 % 32 + 192) = x at *
    generalize UInt8.ofNat (v % 64 + 128) = y at *
    have hNumber : (x.toNat - 0xC0) * 64 + (y.toNat - 0x80) = v := by omega
    rw [firstUnit_of_opening? (by omega) (opening?_two (by omega) (by omega)),
      List.singleton_append, readTails_isTail (by omega) (by omega), readTails, hNumber, hChar]
    rfl
  · refine ⟨_, [_, _], rfl, fun rest => ?_⟩
    have hx := toNat_ofNat_of_lt (show v / 4096 % 16 + 224 < 256 by omega)
    have hy := toNat_ofNat_of_lt (show v / 64 % 64 + 128 < 256 by omega)
    have hz := toNat_ofNat_of_lt (show v % 64 + 128 < 256 by omega)
    generalize UInt8.ofNat (v / 4096 % 16 + 224) = x at *
    generalize UInt8.ofNat (v / 64 % 64 + 128) = y at *
    generalize UInt8.ofNat (v % 64 + 128) = z at *
    have hNumber : ((x.toNat - 0xE0) * 64 + (y.toNat - 0x80)) * 64 + (z.toNat - 0x80) = v := by
      omega
    obtain ⟨low, high, hOpening, hLow, hHigh⟩ :=
      opening?_three (show 0xE0 ≤ x.toNat by omega) (by omega)
    have hNext : low.toNat ≤ y.toNat := by split_ifs at hLow <;> omega
    have hNext' : y.toNat ≤ high.toNat := by split_ifs at hHigh <;> omega
    rw [firstUnit_of_opening? (by omega) hOpening, List.cons_append, List.singleton_append]
    dsimp only
    rw [readTails_cons hNext hNext', readTails_isTail (by omega) (by omega), readTails, hNumber,
      hChar]
    rfl
  · refine ⟨_, [_, _, _], rfl, fun rest => ?_⟩
    have hx := toNat_ofNat_of_lt (show v / 262144 % 8 + 240 < 256 by omega)
    have hy := toNat_ofNat_of_lt (show v / 4096 % 64 + 128 < 256 by omega)
    have hz := toNat_ofNat_of_lt (show v / 64 % 64 + 128 < 256 by omega)
    have hw := toNat_ofNat_of_lt (show v % 64 + 128 < 256 by omega)
    generalize UInt8.ofNat (v / 262144 % 8 + 240) = x at *
    generalize UInt8.ofNat (v / 4096 % 64 + 128) = y at *
    generalize UInt8.ofNat (v / 64 % 64 + 128) = z at *
    generalize UInt8.ofNat (v % 64 + 128) = w at *
    have hNumber : (((x.toNat - 0xF0) * 64 + (y.toNat - 0x80)) * 64 + (z.toNat - 0x80)) * 64 +
        (w.toNat - 0x80) = v := by
      omega
    obtain ⟨low, high, hOpening, hLow, hHigh⟩ :=
      opening?_four (show 0xF0 ≤ x.toNat by omega) (by omega)
    have hNext : low.toNat ≤ y.toNat := by split_ifs at hLow <;> omega
    have hNext' : y.toNat ≤ high.toNat := by split_ifs at hHigh <;> omega
    rw [firstUnit_of_opening? (by omega) hOpening, List.cons_append, List.cons_append,
      List.singleton_append]
    dsimp only
    rw [readTails_cons hNext hNext', readTails_isTail (by omega) (by omega),
      readTails_isTail (by omega) (by omega), readTails, hNumber, hChar]
    rfl

/-- A byte below 0x80 stands for itself: it is part of no other character. -/
theorem toNat_eq_of_mem_utf8EncodeChar {b : UInt8} {c : Char} (h : b ∈ String.utf8EncodeChar c)
    (hb : b.toNat < 0x80) : c.val.toNat = b.toNat := by
  unfold String.utf8EncodeChar at h
  dsimp only at h
  split_ifs at h with h₁ h₂ h₃ <;>
    simp only [List.mem_cons, List.not_mem_nil, or_false, ← UInt8.toNat_inj,
      UInt8.toNat_ofNat'] at h <;>
    omega

/-- Where the bytes of a text have a byte below 0x80, the text has that character. -/
theorem exists_split_of_ascii {cs : List Char} {before after : List UInt8} {b : UInt8}
    (hb : b.toNat < 0x80) (h : cs.flatMap String.utf8EncodeChar = before ++ b :: after) :
    ∃ first rest, cs = first ++ Char.ofNat b.toNat :: rest ∧
      first.flatMap String.utf8EncodeChar = before ∧
      rest.flatMap String.utf8EncodeChar = after := by
  induction cs generalizing before with
  | nil => simp at h
  | cons c cs ih =>
      rw [List.flatMap_cons] at h
      rcases List.append_eq_append_iff.mp h with ⟨middle, rfl, hRest⟩ | ⟨middle, hChar, hRest⟩
      · obtain ⟨first, rest, rfl, rfl, rfl⟩ := ih hRest
        exact ⟨c :: first, rest, rfl, rfl, rfl⟩
      · cases middle with
        | nil =>
            obtain ⟨first, rest, rfl, hFirst, rfl⟩ := @ih [] hRest.symm
            exact ⟨c :: first, rest, rfl, by simpa [hFirst] using hChar, rfl⟩
        | cons x middle =>
            -- The byte is part of this character, so it is the whole of it.
            obtain ⟨rfl, rfl⟩ := List.cons.inj hRest
            have hNumber := toNat_eq_of_mem_utf8EncodeChar (by rw [hChar]; simp) hb
            obtain rfl : Char.ofNat b.toNat = c := by rw [← hNumber]; exact Char.ofNat_toNat c
            rw [utf8EncodeChar_ofNat_one hb] at hChar
            cases before with
            | nil =>
                obtain rfl : [] = middle := (List.cons.inj hChar).2
                exact ⟨[], cs, rfl, rfl, rfl⟩
            | cons y before => simp at hChar

/-- The encoded characters of a text are its units. -/
theorem units_bytes (cs : List Char) :
    units (cs.flatMap String.utf8EncodeChar) = cs.map some := by
  induction cs with
  | nil => rfl
  | cons c cs ih =>
      obtain ⟨b, tail, hBytes, hUnit⟩ := firstUnit_utf8EncodeChar c
      rw [List.flatMap_cons, hBytes, List.cons_append, units_cons, hUnit, List.drop_left, ih,
        List.map_cons]

theorem mapM_id_map_some (cs : List Char) : (cs.map some).mapM id = some cs := by
  induction cs with
  | nil => rfl
  | cons c cs ih =>
      rw [List.map_cons, List.mapM_cons, ih]
      rfl

/-- The bytes of a text are read as that text. -/
@[simp] theorem decode?_encode (s : String) : decode? (encode s) = some s := by
  rw [decode?, encode, units_bytes, mapM_id_map_some, Option.map_some, String.ofList_toList]

/-- A text is read back from its bytes. -/
@[simp] theorem decodeLenient_encode (s : String) : decodeLenient (encode s) = s := by
  rw [decodeLenient, encode, units_bytes, List.map_map]
  exact (congrArg String.ofList (List.map_id _)).trans String.ofList_toList

/-- Bytes are read as a text exactly if they are the bytes of that text. -/
theorem decode?_eq_some_iff {bytes : List UInt8} {s : String} :
    decode? bytes = some s ↔ bytes = encode s :=
  ⟨fun h => (encode_of_decode? h).symm, fun h => h ▸ decode?_encode s⟩

theorem encode_append (s t : String) : encode (s ++ t) = encode s ++ encode t := by
  rw [encode, encode, encode, String.toList_append, List.flatMap_append]

end JavaOutline.Text
