/-!
Stretches of text.

An `Extent` measures a stretch of text in characters, in bytes of its UTF-8 form, and in lines and
columns; the extent from the beginning of the text up to a place also serves as that place's
position.
-/

namespace JavaOutline.Parsing

/-- The size of a stretch of text. Columns are bytes after the last line break. -/
structure Extent where
  chars : Nat
  bytes : Nat
  row : Nat
  column : Nat
  deriving DecidableEq, Repr, Inhabited

namespace Extent

def zero : Extent := ⟨0, 0, 0, 0⟩

/-- One stretch after another. -/
def add (a b : Extent) : Extent :=
  { chars := a.chars + b.chars
    bytes := a.bytes + b.bytes
    row := a.row + b.row
    column := if b.row > 0 then b.column else a.column + b.column }

/-- What lies between the ends of two stretches with a common beginning. -/
def sub (a b : Extent) : Extent :=
  { chars := a.chars - b.chars
    bytes := a.bytes - b.bytes
    row := a.row - b.row
    column := if a.row > b.row then a.column else a.column - b.column }

instance : Add Extent := ⟨add⟩
instance : Sub Extent := ⟨sub⟩

/-- The stretch with one more character. -/
def push (a : Extent) (c : Char) : Extent :=
  { chars := a.chars + 1
    bytes := a.bytes + c.utf8Size
    row := if c == '\n' then a.row + 1 else a.row
    column := if c == '\n' then 0 else a.column + c.utf8Size }

end Extent

end JavaOutline.Parsing
