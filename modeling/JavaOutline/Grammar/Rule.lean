import JavaOutline.Grammar.CharSet

/-!
The language in which a grammar is written down.

A `Pattern` describes the spellings of one token, a `Rule` the shape of one construct. Rules
carry the annotations that decide conflicts (precedence and associativity) and those that shape
the resulting tree (a field label or another name for a part).
-/

namespace JavaOutline.Grammar

/-- A regular expression over the scanner's alphabet. -/
inductive Pattern where
  | empty
  | chars (set : CharSet)
  | seq (first second : Pattern)
  | alt (left right : Pattern)
  | some (body : Pattern)
  deriving DecidableEq, Repr

namespace Pattern

def concat : List Pattern → Pattern
  | [] => .empty
  | [p] => p
  | p :: ps => .seq p (concat ps)

/-- One of the patterns; `empty` when there is none to choose from. -/
def oneOf : List Pattern → Pattern
  | [] => .empty
  | [p] => p
  | p :: ps => .alt p (oneOf ps)

def text (s : String) : Pattern :=
  concat (s.toList.map fun c => .chars (CharSet.char c))

def opt (p : Pattern) : Pattern := .alt p .empty

def many (p : Pattern) : Pattern := opt (.some p)

def sepBy1 (p separator : Pattern) : Pattern := .seq p (many (.seq separator p))

instance : Coe String Pattern := ⟨text⟩

end Pattern

/-- Which of two readings of `a + b + c` wins when precedence does not decide. -/
inductive Assoc where
  | left
  | right
  deriving DecidableEq, Repr

inductive Rule where
  | blank
  /-- A token with one spelling. -/
  | text (spelling : String)
  /-- A token given by a pattern. An immediate token may not be preceded by blanks. -/
  | token (immediate : Bool) (precedence : Nat) (body : Pattern)
  /-- Another construct, by name. -/
  | ref (name : String)
  | seq (first second : Rule)
  | alt (left right : Rule)
  | some (body : Rule)
  /-- How tightly the parts bind. -/
  | prec (level : Int) (assoc : Option Assoc) (body : Rule)
  /-- Preference among readings that survive to the end. -/
  | dynamic (level : Int) (body : Rule)
  /-- The part is the one its parent knows by this label. -/
  | field (label : String) (body : Rule)
  /-- The part appears in the tree under this name. -/
  | named (name : String) (body : Rule)
  deriving DecidableEq, Repr, Inhabited

namespace Rule

instance : Coe String Rule := ⟨text⟩

def concat : List Rule → Rule
  | [] => .blank
  | [r] => r
  | r :: rs => .seq r (concat rs)

def oneOf : List Rule → Rule
  | [] => .blank
  | [r] => r
  | r :: rs => .alt r (oneOf rs)

def opt (r : Rule) : Rule := .alt r .blank

def many (r : Rule) : Rule := opt (.some r)

def sepBy1 (r separator : Rule) : Rule := .seq r (many (.seq separator r))

/-- One or more, separated by commas. -/
def commas1 (r : Rule) : Rule := sepBy1 r ","

def commas (r : Rule) : Rule := opt (commas1 r)

def pattern (p : Pattern) : Rule := .token false 0 p

end Rule

end JavaOutline.Grammar

namespace JavaOutline

/-- A grammar: named rules, the first of which describes a whole text. -/
structure Grammar where
  rules : List (String × Grammar.Rule)
  /-- Rules that may stand between any two tokens. -/
  extras : List String
  /-- The blanks that may stand before any token that is not immediate. -/
  separators : Grammar.CharSet
  /-- Rules that only group other rules and leave no node of their own. -/
  groups : List String
  /-- Rules that are replaced by their alternatives wherever they occur. -/
  inlined : List String
  /-- The token from which words are read before keywords are told apart. -/
  word : String

end JavaOutline
