import JavaOutline.Text.IdentifierChar

/-!
The scanner's alphabet.

Scanning distinguishes the ASCII characters one by one, the cent sign, and three classes of
other characters: those that may start an identifier, those that may only continue one, and the
rest. A `CharSet` is a set of these letters, held as a bit mask.
-/

namespace JavaOutline.Grammar

/-- How many letters the scanner's alphabet has. -/
def letterCount : Nat := 132

def letterOf (c : Char) : Nat :=
  if c.toNat < 128 then c.toNat
  else if c.toNat == 0xA2 then 128
  else if Text.isWideIdentifierStart c then 129
  else if Text.isWideIdentifierPart c then 130
  else 131

/-- A set of letters: bit `l` says whether letter `l` belongs. -/
structure CharSet where
  bits : Nat
  deriving DecidableEq, Repr, Inhabited

namespace CharSet

def empty : CharSet := ⟨0⟩

def all : CharSet := ⟨(1 <<< letterCount) - 1⟩

/-- One character, which must be ASCII to be told apart from its class. -/
def char (c : Char) : CharSet := ⟨1 <<< letterOf c⟩

def union (a b : CharSet) : CharSet := ⟨a.bits ||| b.bits⟩

def compl (a : CharSet) : CharSet := ⟨all.bits ^^^ (all.bits &&& a.bits)⟩

def has (a : CharSet) (letter : Nat) : Bool := a.bits.testBit letter

def ofString (s : String) : CharSet :=
  s.toList.foldl (fun set c => set.union (char c)) empty

/-- The ASCII characters from `lo` to `hi`. -/
def range (lo hi : Char) : CharSet :=
  (List.range (hi.toNat + 1 - lo.toNat)).foldl
    (fun set i => set.union ⟨1 <<< (lo.toNat + i)⟩) empty

/-- The letters that may stand first in an identifier. -/
def identifierStart : CharSet :=
  (((range 'A' 'Z').union (range 'a' 'z')).union (ofString "_$")).union ⟨1 <<< 129⟩

/-- The letters that may stand inside an identifier. -/
def identifierPart : CharSet :=
  (identifierStart.union (range '0' '9')).union ⟨(1 <<< 128) ||| (1 <<< 130)⟩

def blank : CharSet := ofString " \t\n\x0b\x0c\r"

def digit : CharSet := range '0' '9'

def hexDigit : CharSet := (digit.union (range 'a' 'f')).union (range 'A' 'F')

def octalDigit : CharSet := range '0' '7'

end CharSet

end JavaOutline.Grammar
