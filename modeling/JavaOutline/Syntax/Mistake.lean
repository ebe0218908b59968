import JavaOutline.Syntax.Node

/-!
Where the mistakes of a text are.
-/

namespace JavaOutline.Syntax

/-- The number of a line, counted from one, in 32 bits. -/
def lineNumber (row : Nat) : UInt32 := (row + 1).toUInt32

/-- If the number of a line fits into 32 bits, it is one more than the line breaks before it. -/
theorem toNat_lineNumber {row : Nat} (h : row + 1 < UInt32.size) :
    (lineNumber row).toNat = row + 1 :=
  UInt32.toNat_ofNat_of_lt h

namespace Node

def hasMistakes (n : Node) : Bool := n.info.flagged

/-- Whether the root itself is a mistake. -/
def isMistake (n : Node) : Bool := n.info.isError || n.info.isMissing

mutual

/-- The lines of the mistakes in a tree in document order. Only flagged and missing children are
looked into. -/
def mistakeLines : Node → List UInt32
  | .mk i cs =>
      (if i.isError || i.isMissing then [lineNumber i.start.row] else []) ++ mistakeLinesOf cs

def mistakeLinesOf : List Node → List UInt32
  | [] => []
  | .mk i cs :: rest =>
      (if i.flagged || i.isMissing then
        (if i.isError || i.isMissing then [lineNumber i.start.row] else []) ++ mistakeLinesOf cs
      else []) ++ mistakeLinesOf rest

end

end Node

/-- Drop each element that equals the one before it. -/
def dropRepeats : List UInt32 → List UInt32
  | a :: b :: rest => if a = b then dropRepeats (b :: rest) else a :: dropRepeats (b :: rest)
  | short => short

/-- The lines with mistakes in ascending order, each once. -/
def Node.errorLines (n : Node) : List UInt32 :=
  dropRepeats (n.mistakeLines.mergeSort fun a b => decide (a ≤ b))

structure Report where
  hasErrors : Bool
  errorLines : List UInt32
  deriving DecidableEq, Repr

def Report.isValid (r : Report) : Bool := !r.hasErrors

def Node.report (n : Node) : Report := ⟨n.hasMistakes, n.errorLines⟩

end JavaOutline.Syntax
