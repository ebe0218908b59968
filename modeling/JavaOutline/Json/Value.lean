/-!
JSON values.

Numbers are kept as far as they matter here: natural numbers have a value, all others only their
spelling. A string may spell half of a surrogate pair, which is no text; all that is kept of such a
string, or of an object with such a key, is that it was there.
-/

namespace JavaOutline

inductive Json where
  | null
  | bool (value : Bool)
  | nat (value : Nat)
  /-- A number that is no natural number, as it was spelled. -/
  | number (spelling : String)
  | str (text : String)
  | arr (items : List Json)
  | obj (fields : List (String × Json))
  /-- A string, or an object with a key, that spells half of a surrogate pair. -/
  | unpaired
  deriving Inhabited

namespace Json

/-- Whether a character may stand between the parts of a value. -/
def isGap (c : Char) : Bool := c == ' ' || c == '\n' || c == '\t' || c == '\r'

def ofOption {α : Type} (f : α → Json) : Option α → Json
  | some a => f a
  | none => .null

def ofTexts (texts : List String) : Json := .arr (texts.map .str)

def keyLe (a b : String) : Bool := !decide (b < a)

mutual

/-- A value in which the keys of every object are in order. -/
def sortKeys : Json → Json
  | .arr items => .arr (sortKeysIn items)
  | .obj fields => .obj ((sortKeysOf fields).mergeSort fun a b => keyLe a.1 b.1)
  | v => v

/-- The same for the items of an array. -/
def sortKeysIn : List Json → List Json
  | [] => []
  | v :: rest => sortKeys v :: sortKeysIn rest

/-- The same for the values in an object, whose keys stay where they are. -/
def sortKeysOf : List (String × Json) → List (String × Json)
  | [] => []
  | (k, v) :: rest => (k, sortKeys v) :: sortKeysOf rest

end

end Json

end JavaOutline
