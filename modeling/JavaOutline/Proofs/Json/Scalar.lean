import JavaOutline.Json.Printer
import JavaOutline.Json.Reader
import Mathlib.Data.List.Basic

/-! Texts and numbers in JSON. A text is written character by character, and each character is read
back by itself, since no escape of a written text spells half of a surrogate pair. A number is read
back if what follows it cannot be taken for more of it. -/
namespace JavaOutline.Json

/-- A character is written as a letter after a backslash that stands for it, by its number if it is
another control character, and as it is otherwise. -/
theorem escape_cases (c : Char) :
    (∃ letter, unescape? letter = some c ∧ escape c = ['\\', letter]) ∨
      (c.toNat < 0x20 ∧
        escape c = ['\\', 'u', '0', '0', hexDigit (c.toNat / 16), hexDigit (c.toNat % 16)]) ∨
      (c ≠ '"' ∧ c ≠ '\\' ∧ 0x20 ≤ c.toNat ∧ escape c = [c]) := by
  generalize hEscape : escape c = written
  unfold escape at hEscape
  split_ifs at hEscape with hQuote hBackslash hBackspace hFeed hLine hReturn hTab hControl <;>
    subst hEscape
  · exact .inl ⟨'"', congrArg some hQuote.symm, rfl⟩
  · exact .inl ⟨'\\', congrArg some hBackslash.symm, rfl⟩
  · exact .inl ⟨'b', congrArg some hBackspace.symm, rfl⟩
  · exact .inl ⟨'f', congrArg some hFeed.symm, rfl⟩
  · exact .inl ⟨'n', congrArg some hLine.symm, rfl⟩
  · exact .inl ⟨'r', congrArg some hReturn.symm, rfl⟩
  · exact .inl ⟨'t', congrArg some hTab.symm, rfl⟩
  · exact .inr (.inl ⟨hControl, rfl⟩)
  · exact .inr (.inr ⟨hQuote, hBackslash, by omega, rfl⟩)

theorem hexValue?_hexDigit : ∀ n < 16, hexValue? (hexDigit n) = some n := by decide

/-- The code of a control character is read back from its four digits. -/
theorem hexValue4?_hexDigit {n : Nat} (h : n < 0x20) :
    hexValue4? '0' '0' (hexDigit (n / 16)) (hexDigit (n % 16)) = some n := by
  have hZero : hexValue? '0' = some 0 := rfl
  have hHigh := hexValue?_hexDigit (n / 16) (by omega)
  have hLow := hexValue?_hexDigit (n % 16) (by omega)
  simp only [hexValue4?, hZero, hHigh, hLow, Option.some.injEq]
  omega

section Pieces

variable {rest left : List Char} {pieces : List Piece}

theorem readPieces_letter {letter c : Char} (hLetter : unescape? letter = some c)
    (h : readPieces rest = some (pieces, left)) :
    readPieces ('\\' :: letter :: rest) = some (.char c :: pieces, left) := by
  have hNoCode : letter ≠ 'u' := by
    rintro rfl
    cases hLetter
  rw [readPieces, hLetter, h]
  intro _ _ _ _ _ hCode
  exact (hNoCode hCode).elim

theorem readPieces_code {a b c d : Char} {n : Nat} (hCode : hexValue4? a b c d = some n)
    (h : readPieces rest = some (pieces, left)) :
    readPieces ('\\' :: 'u' :: a :: b :: c :: d :: rest) = some (.code n :: pieces, left) := by
  rw [readPieces, hCode, h]

theorem readPieces_char {c : Char} (hQuote : c ≠ '"') (hBackslash : c ≠ '\\')
    (hControl : 0x20 ≤ c.toNat) (h : readPieces rest = some (pieces, left)) :
    readPieces (c :: rest) = some (.char c :: pieces, left) := by
  have hNotControl : ¬ c.toNat < 0x20 := by omega
  rw [readPieces, if_neg hQuote, if_neg hNotControl, h]
  · intro _ _ _ _ _ hEscape
    exact (hBackslash hEscape).elim
  · intro _ _ hEscape
    exact (hBackslash hEscape).elim

/-- A code below the surrogates is a character by itself. -/
theorem joinPieces_code {n : Nat} (h : n < 0xD800) (pieces : List Piece) :
    joinPieces (.code n :: pieces) = (joinPieces pieces).map (Char.ofNat n :: ·) := by
  have hHigh : isHigh n = false := by simp [isHigh]; omega
  have hLow : isLow n = false := by simp [isLow]; omega
  cases pieces with
  | nil => simp [joinPieces, hHigh, hLow]
  | cons piece pieces => cases piece <;> simp [joinPieces, hHigh, hLow]

end Pieces

/-- Reading a written character gives one part, which stands for that character. -/
theorem exists_piece (c : Char) :
    ∃ piece, (∀ pieces, joinPieces (piece :: pieces) = (joinPieces pieces).map (c :: ·)) ∧
      ∀ rest pieces left, readPieces rest = some (pieces, left) →
        readPieces (escape c ++ rest) = some (piece :: pieces, left) := by
  rcases escape_cases c with ⟨letter, hLetter, hEscape⟩ | ⟨hControl, hEscape⟩ |
    ⟨hQuote, hBackslash, hControl, hEscape⟩
  · refine ⟨.char c, fun _ => rfl, fun rest pieces left h => ?_⟩
    rw [hEscape]
    exact readPieces_letter hLetter h
  · refine ⟨.code c.toNat, fun pieces => ?_, fun rest pieces left h => ?_⟩
    · rw [joinPieces_code (by omega), Char.ofNat_toNat]
    · rw [hEscape]
      exact readPieces_code (hexValue4?_hexDigit hControl) h
  · refine ⟨.char c, fun _ => rfl, fun rest pieces left h => ?_⟩
    rw [hEscape]
    exact readPieces_char hQuote hBackslash hControl h

/-- The characters of a string are read back, by induction on them. -/
theorem exists_pieces (cs rest : List Char) :
    ∃ pieces, readPieces (cs.flatMap escape ++ '"' :: rest) = some (pieces, rest) ∧
      joinPieces pieces = some cs := by
  induction cs with
  | nil => exact ⟨[], rfl, rfl⟩
  | cons c cs ih =>
      obtain ⟨pieces, hRead, hJoin⟩ := ih
      obtain ⟨piece, hJoinPiece, hReadPiece⟩ := exists_piece c
      refine ⟨piece :: pieces, ?_, ?_⟩
      · rw [List.flatMap_cons, List.append_assoc]
        exact hReadPiece _ _ _ hRead
      · rw [hJoinPiece, hJoin]
        rfl

/-- A text in quotes is read back. -/
theorem readString_quote (s : String) (rest : List Char) :
    readString (s.toList.flatMap escape ++ '"' :: rest) = some (some s, rest) := by
  obtain ⟨pieces, hRead, hJoin⟩ := exists_pieces s.toList rest
  simp [readString, hRead, hJoin]

/-- Whether a number ends where the given characters begin. -/
def endsNumber : List Char → Bool
  | [] => true
  | c :: _ => !c.isDigit && c != '.' && c != 'e' && c != 'E'

theorem digits_eq (n : Nat) : digits n = Nat.toDigits 10 n := Nat.toList_repr

theorem isDigit_of_mem_digits {n : Nat} {c : Char} (h : c ∈ digits n) : c.isDigit = true := by
  rw [digits_eq] at h
  exact Nat.isDigit_of_mem_toDigits (by decide) (by decide) h

theorem digits_ne_nil (n : Nat) : digits n ≠ [] := by
  rw [digits_eq, Nat.toDigits_eq_if (by decide)]
  split_ifs <;> simp

/-- A number is the value of its digits. -/
theorem valueOf_digits (n : Nat) : valueOf (digits n) = n := by
  have hValue (ds : List Char) : valueOf ds = Nat.ofDigitChars 10 ds 0 := by
    simp only [valueOf, Nat.ofDigitChars, Nat.mul_comm]
    rfl
  rw [hValue, digits_eq, Nat.ofDigitChars_ten_toDigits]

/-- Only zero begins with a zero. -/
theorem head?_digits_ne {n : Nat} (h : 0 < n) : (digits n).head? ≠ some '0' := by
  induction n using Nat.strongRecOn with
  | ind n ih =>
      rw [digits_eq, Nat.toDigits_eq_if (by decide)]
      split_ifs with hSmall
      · have hDigit : ∀ m < 10, 0 < m → m.digitChar ≠ '0' := by decide
        simpa using hDigit n hSmall h
      · have hTenth := ih (n / 10) (by omega) (by omega)
        rw [digits_eq] at hTenth
        rw [List.head?_append_of_ne_nil _ (digits_eq (n / 10) ▸ digits_ne_nil _)]
        exact hTenth

def endsDigits : List Char → Bool
  | [] => true
  | c :: _ => !c.isDigit

def IsDigits (ds : List Char) : Prop := ds ≠ [] ∧ ∀ c ∈ ds, c.isDigit = true

/-- The digits before the point: no zero comes first unless it is alone. -/
def IsWhole (ds : List Char) : Prop := IsDigits ds ∧ (ds.head? = some '0' → ds.length ≤ 1)

def IsFraction (cs : List Char) : Prop := cs = [] ∨ ∃ ds, IsDigits ds ∧ cs = '.' :: ds

def IsExponent (cs : List Char) : Prop :=
  cs = [] ∨ ∃ e sign ds, (e = 'e' ∨ e = 'E') ∧ (sign = [] ∨ sign = ['+'] ∨ sign = ['-']) ∧
    IsDigits ds ∧ cs = e :: (sign ++ ds)

/-- A number that is not a natural one in digits: it has a sign, a fraction or an exponent. -/
def IsNumber (cs : List Char) : Prop :=
  ∃ sign whole fraction exponent, cs = sign ++ whole ++ fraction ++ exponent ∧
    (sign = [] ∨ sign = ['-']) ∧ IsWhole whole ∧ IsFraction fraction ∧ IsExponent exponent ∧
    ¬ (sign = [] ∧ fraction = [] ∧ exponent = [])

/-- The characters that numbers are made of. -/
def isNumeric (c : Char) : Bool :=
  c.isDigit || c == '-' || c == '+' || c == '.' || c == 'e' || c == 'E'

/-- A text that is made of them, and of at least one. -/
def IsNumeral (cs : List Char) : Prop := cs ≠ [] ∧ ∀ c ∈ cs, isNumeric c = true

theorem ne_of_isNumeric {c d : Char} (hc : isNumeric c = true) (hd : isNumeric d = false) :
    c ≠ d := by
  rintro rfl
  rw [hc] at hd
  cases hd

theorem isGap_of_isNumeric {c : Char} (h : isNumeric c = true) : isGap c = false := by
  simp only [isGap, Bool.or_eq_false_iff, beq_eq_false_iff_ne]
  exact ⟨⟨⟨ne_of_isNumeric h rfl, ne_of_isNumeric h rfl⟩, ne_of_isNumeric h rfl⟩,
    ne_of_isNumeric h rfl⟩

theorem IsDigits.isNumeral {ds : List Char} (h : IsDigits ds) : IsNumeral ds :=
  ⟨h.1, fun c hc => by simp [isNumeric, h.2 c hc]⟩

theorem IsFraction.forall_isNumeric {cs : List Char} (h : IsFraction cs) :
    ∀ c ∈ cs, isNumeric c = true := by
  rcases h with rfl | ⟨ds, hDigits, rfl⟩
  · exact List.forall_mem_nil _
  · exact List.forall_mem_cons.mpr ⟨rfl, hDigits.isNumeral.2⟩

theorem IsExponent.forall_isNumeric {cs : List Char} (h : IsExponent cs) :
    ∀ c ∈ cs, isNumeric c = true := by
  rcases h with rfl | ⟨e, sign, ds, hLetter, hSign, hDigits, rfl⟩
  · exact List.forall_mem_nil _
  · have hFirst : isNumeric e = true := by rcases hLetter with rfl | rfl <;> rfl
    have hSigns : ∀ c ∈ sign, isNumeric c = true := by
      rcases hSign with rfl | rfl | rfl <;> simp [isNumeric]
    exact List.forall_mem_cons.mpr
      ⟨hFirst, List.forall_mem_append.mpr ⟨hSigns, hDigits.isNumeral.2⟩⟩

theorem IsNumber.isNumeral {cs : List Char} (h : IsNumber cs) : IsNumeral cs := by
  obtain ⟨sign, whole, fraction, exponent, rfl, hSign, hWhole, hFraction, hExponent, -⟩ := h
  have hSigns : ∀ c ∈ sign, isNumeric c = true := by
    rcases hSign with rfl | rfl <;> simp [isNumeric]
  refine ⟨by simp [hWhole.1.1], ?_⟩
  simp only [List.forall_mem_append]
  exact ⟨⟨⟨hSigns, hWhole.1.isNumeral.2⟩, hFraction.forall_isNumeric⟩,
    hExponent.forall_isNumeric⟩

/-- The digits of a number do not begin with a zero, unless that is all. -/
theorem isWhole_digits (n : Nat) : IsWhole (digits n) := by
  refine ⟨⟨digits_ne_nil n, fun c hc => isDigit_of_mem_digits hc⟩, fun hHead => ?_⟩
  rcases Nat.eq_zero_or_pos n with rfl | hPos
  · decide
  · exact (head?_digits_ne hPos hHead).elim

section Number

variable {ds cs rest : List Char}

theorem endsDigits_of_endsNumber (h : endsNumber rest = true) : endsDigits rest = true := by
  cases rest with
  | nil => rfl
  | cons c rest => simp_all [endsNumber, endsDigits]

theorem readDigits_append (h : IsDigits ds) (hRest : endsDigits rest = true) :
    readDigits (ds ++ rest) = some (ds, rest) := by
  obtain ⟨hNe, hDigits⟩ := h
  have hTake : (ds ++ rest).takeWhile Char.isDigit = ds := by
    rw [List.takeWhile_append_of_pos hDigits]
    cases rest with
    | nil => simp
    | cons c rest => simp_all [endsDigits]
  have hDrop : (ds ++ rest).dropWhile Char.isDigit = rest := by
    rw [List.dropWhile_append_of_pos hDigits]
    cases rest with
    | nil => rfl
    | cons c rest => simp_all [endsDigits]
  rw [readDigits, hTake, hDrop]
  cases ds with
  | nil => exact (hNe rfl).elim
  | cons d ds => rfl

theorem readWhole_append (h : IsWhole ds) (hRest : endsDigits rest = true) :
    readWhole (ds ++ rest) = some (ds, rest) := by
  have hAlone : ¬ (ds.head? = some '0' ∧ 1 < ds.length) := by
    rintro ⟨hHead, hLong⟩
    exact absurd (h.2 hHead) (by omega)
  rw [readWhole, readDigits_append h.1 hRest]
  exact if_neg hAlone

/-- A fraction is read up to where its digits end. -/
theorem readFraction_append (h : IsFraction cs) (hRest : endsDigits rest = true)
    (hPoint : rest.head? ≠ some '.') : readFraction (cs ++ rest) = some (cs, rest) := by
  rcases h with rfl | ⟨ds, hDigits, rfl⟩
  · rw [List.nil_append]
    unfold readFraction
    split <;> simp_all
  · rw [List.cons_append, readFraction, readDigits_append hDigits hRest]
    rfl

/-- An exponent is read up to where the number ends. -/
theorem readExponent_append (h : IsExponent cs) (hRest : endsNumber rest = true) :
    readExponent (cs ++ rest) = some (cs, rest) := by
  rcases h with rfl | ⟨e, sign, ds, hLetter, hSign, hDigits, rfl⟩
  · cases rest with
    | nil => rfl
    | cons c rest => simp_all [endsNumber, readExponent]
  · have hRead := readDigits_append hDigits (endsDigits_of_endsNumber hRest)
    rcases hSign with rfl | rfl | rfl
    · obtain ⟨d, ds, rfl⟩ := List.exists_cons_of_ne_nil hDigits.1
      have hDigit : d.isDigit = true := hDigits.2 d List.mem_cons_self
      have hNoSign : ¬ (d = '+' ∨ d = '-') := by
        rintro (rfl | rfl) <;> cases hDigit
      rw [List.cons_append] at hRead
      simp [readExponent, hLetter, hNoSign, hRead]
    · simp [readExponent, hLetter, hRead]
    · simp [readExponent, hLetter, hRead]

/-- An exponent, or what follows in its place, ends the digits before it. -/
theorem IsExponent.follows (h : IsExponent cs) (hRest : endsNumber rest = true) :
    endsDigits (cs ++ rest) = true ∧ (cs ++ rest).head? ≠ some '.' := by
  rcases h with rfl | ⟨e, sign, ds, rfl | rfl, -, -, rfl⟩
  · refine ⟨endsDigits_of_endsNumber hRest, ?_⟩
    cases rest with
    | nil => simp
    | cons c rest => simp_all [endsNumber]
  · exact ⟨rfl, by simp⟩
  · exact ⟨rfl, by simp⟩

/-- A fraction, or what follows in its place, ends the digits before it. -/
theorem IsFraction.follows (h : IsFraction cs) (hRest : endsDigits rest = true) :
    endsDigits (cs ++ rest) = true := by
  rcases h with rfl | ⟨ds, -, rfl⟩
  · exact hRest
  · rfl

/-- A number is read part by part, and is natural if it is nothing but digits. -/
theorem readNumber_append {sign whole fraction exponent : List Char}
    (hSign : sign = [] ∨ sign = ['-']) (hWhole : IsWhole whole) (hFraction : IsFraction fraction)
    (hExponent : IsExponent exponent) (hRest : endsNumber rest = true) :
    readNumber (sign ++ whole ++ fraction ++ exponent ++ rest) =
      if sign = [] ∧ fraction = [] ∧ exponent = [] then some (.nat (valueOf whole), rest)
      else some (.number (String.ofList (sign ++ whole ++ fraction ++ exponent)), rest) := by
  obtain ⟨hEnds, hPoint⟩ := hExponent.follows hRest
  have hReadWhole := readWhole_append hWhole (hFraction.follows hEnds)
  have hReadFraction := readFraction_append hFraction hEnds hPoint
  have hReadExponent := readExponent_append hExponent hRest
  have hHead : (if (sign ++ (whole ++ (fraction ++ (exponent ++ rest)))).head? = some '-'
      then ['-'] else []) = sign := by
    rcases hSign with rfl | rfl
    · obtain ⟨d, ds, rfl⟩ := List.exists_cons_of_ne_nil hWhole.1.1
      have hDigit : d.isDigit = true := hWhole.1.2 d List.mem_cons_self
      apply if_neg
      rintro hMinus
      obtain rfl : d = '-' := by simpa using hMinus
      cases hDigit
    · rfl
  simp only [readNumber, List.append_assoc, hHead, List.drop_left, hReadWhole, hReadFraction,
    hReadExponent]

/-- A number with a sign, a fraction or an exponent is read back as it is spelled. -/
theorem readNumber_of_isNumber (h : IsNumber cs) (hRest : endsNumber rest = true) :
    readNumber (cs ++ rest) = some (.number (String.ofList cs), rest) := by
  obtain ⟨sign, whole, fraction, exponent, rfl, hSign, hWhole, hFraction, hExponent, hOther⟩ := h
  rw [readNumber_append hSign hWhole hFraction hExponent hRest, if_neg hOther]

/-- A natural number is read back from its digits. -/
theorem readNumber_digits (n : Nat) (hRest : endsNumber rest = true) :
    readNumber (digits n ++ rest) = some (.nat n, rest) := by
  have hRead := readNumber_append (.inl rfl) (isWhole_digits n) (.inl rfl) (.inl rfl) hRest
  rw [if_pos ⟨rfl, rfl, rfl⟩, valueOf_digits] at hRead
  simpa using hRead

end Number

end JavaOutline.Json
