import JavaOutline.Json.Value

/-!
Writing JSON.

All forms come from one writer and differ in their gaps only. The compact form has none. The pretty
form puts every item and every field on a line of its own, indented by two spaces for each level.
-/

namespace JavaOutline.Json

def hexDigit (n : Nat) : Char :=
  if n < 10 then Char.ofNat (48 + n) else Char.ofNat (87 + n)

/-- How a character is written in a string: quotes, backslashes and control characters are
escaped. -/
def escape (c : Char) : List Char :=
  if c = '"' then ['\\', '"']
  else if c = '\\' then ['\\', '\\']
  else if c = '\x08' then ['\\', 'b']
  else if c = '\x0c' then ['\\', 'f']
  else if c = '\n' then ['\\', 'n']
  else if c = '\r' then ['\\', 'r']
  else if c = '\t' then ['\\', 't']
  else if c.toNat < 0x20 then
    ['\\', 'u', '0', '0', hexDigit (c.toNat / 16), hexDigit (c.toNat % 16)]
  else [c]

def quote (s : String) : List Char := '"' :: s.toList.flatMap escape ++ ['"']

def digits (n : Nat) : List Char := (Nat.repr n).toList

/-- Where a written value has gaps: in front of the parts and the closing bracket of a level, and
after a colon. -/
structure Layout where
  lead : Nat → List Char
  space : List Char
  lead_isGap : ∀ level, (lead level).all isGap = true
  space_isGap : space.all isGap = true

/-- A line break and the indentation of a level. -/
def newLine (level : Nat) : List Char := '\n' :: List.replicate (2 * level) ' '

/-- No gaps at all. -/
def Layout.compact : Layout := ⟨fun _ => [], [], fun _ => rfl, rfl⟩

/-- Every part on a line of its own. -/
def Layout.pretty : Layout :=
  { lead := newLine
    space := [' ']
    lead_isGap := fun level => by simp [newLine, isGap]
    space_isGap := rfl }

mutual

/-- The form of a value at a level. -/
def write (l : Layout) (level : Nat) : Json → List Char
  | .arr [] => ['[', ']']
  | .arr (v :: rest) => '[' :: writeItems l (level + 1) (v :: rest) ++ l.lead level ++ [']']
  | .obj [] => ['\x7b', '\x7d']
  | .obj (f :: rest) =>
      '\x7b' :: writeFields l (level + 1) (f :: rest) ++ l.lead level ++ ['\x7d']
  | .null => ['n', 'u', 'l', 'l']
  | .bool true => ['t', 'r', 'u', 'e']
  | .bool false => ['f', 'a', 'l', 's', 'e']
  | .nat n => digits n
  | .number spelling => spelling.toList
  | .str s => quote s
  | .unpaired => ['n', 'u', 'l', 'l']

def writeItems (l : Layout) (level : Nat) : List Json → List Char
  | [] => []
  | [v] => l.lead level ++ write l level v
  | v :: rest => l.lead level ++ write l level v ++ ',' :: writeItems l level rest

def writeFields (l : Layout) (level : Nat) : List (String × Json) → List Char
  | [] => []
  | [(k, v)] => l.lead level ++ quote k ++ ':' :: l.space ++ write l level v
  | (k, v) :: rest =>
      l.lead level ++ quote k ++ ':' :: l.space ++ write l level v ++
        ',' :: writeFields l level rest

end

def toCompact (v : Json) : String := String.ofList (write .compact 0 v)

def toPretty (v : Json) : String := String.ofList (write .pretty 0 v)

end JavaOutline.Json
