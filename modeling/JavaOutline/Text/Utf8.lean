/-!
Texts as bytes.

A text is written in UTF-8. Reading bytes back divides them into units: a unit is either a
character or a broken part, the longest stretch that could begin a character but does not complete
one. Strict reading accepts characters only; lenient reading shows each broken part as U+FFFD.
-/

namespace JavaOutline.Text

def encode (s : String) : List UInt8 := s.toList.flatMap String.utf8EncodeChar

/-- The character shown for a broken part. -/
def replacement : Char := '\uFFFD'

/-- What the first byte of a character asks for: its own share of the number, how many bytes
follow, and the range of the next one. -/
structure Opening where
  share : Nat
  tails : Nat
  low : UInt8
  high : UInt8
  deriving DecidableEq, Repr

/-- What a byte opens, if it can open a character of more than one byte. The ranges leave out
numbers that have a shorter form, surrogates and numbers beyond the last character. -/
def opening? (b : UInt8) : Option Opening :=
  if 0xC2 ≤ b && b ≤ 0xDF then some ⟨b.toNat - 0xC0, 1, 0x80, 0xBF⟩
  else if b == 0xE0 then some ⟨0, 2, 0xA0, 0xBF⟩
  else if b == 0xED then some ⟨0xD, 2, 0x80, 0x9F⟩
  else if 0xE1 ≤ b && b ≤ 0xEF then some ⟨b.toNat - 0xE0, 2, 0x80, 0xBF⟩
  else if b == 0xF0 then some ⟨0, 3, 0x90, 0xBF⟩
  else if b == 0xF4 then some ⟨4, 3, 0x80, 0x8F⟩
  else if 0xF1 ≤ b && b ≤ 0xF3 then some ⟨b.toNat - 0xF0, 3, 0x80, 0xBF⟩
  else none

/-- Read a number of further bytes of a character. The result says how many there were and what
character they complete, if they do. -/
def readTails (share : Nat) : Nat → UInt8 → UInt8 → List UInt8 → Nat × Option Char
  | 0, _, _, _ => (0, some (Char.ofNat share))
  | _ + 1, _, _, [] => (0, none)
  | n + 1, low, high, b :: rest =>
      if low ≤ b && b ≤ high then
        let (count, c) := readTails (share * 64 + (b.toNat - 0x80)) n 0x80 0xBF rest
        (count + 1, c)
      else (0, none)

/-- The unit that begins with a byte: how many further bytes belong to it, and its character. -/
def firstUnit (b : UInt8) (rest : List UInt8) : Nat × Option Char :=
  if b < 0x80 then (0, some (Char.ofNat b.toNat))
  else
    match opening? b with
    | none => (0, none)
    | some o => readTails o.share o.tails o.low o.high rest

/-- The units of a list of bytes of which the first few belong to a unit already read. -/
def unitsAfter : Nat → List UInt8 → List (Option Char)
  | _, [] => []
  | k + 1, _ :: rest => unitsAfter k rest
  | 0, b :: rest =>
      let (count, c) := firstUnit b rest
      c :: unitsAfter count rest

/-- The units of a list of bytes; a broken part is `none`. -/
def units (bytes : List UInt8) : List (Option Char) := unitsAfter 0 bytes

def decode? (bytes : List UInt8) : Option String :=
  ((units bytes).mapM id).map String.ofList

/-- Read bytes as a text, showing broken parts as U+FFFD. -/
def decodeLenient (bytes : List UInt8) : String :=
  String.ofList ((units bytes).map fun c => c.getD replacement)

/-- The text between two byte offsets, or the empty text if the stretch is not inside. -/
def slice (bytes : List UInt8) (start stop : Nat) : String :=
  if start < bytes.length && stop ≤ bytes.length then
    decodeLenient ((bytes.drop start).take (stop - start))
  else ""

end JavaOutline.Text
