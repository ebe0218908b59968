import JavaOutline.Text.Blank
import JavaOutline.Text.Lines

/-!
Comments to be put into a program.

A comment that was generated may still carry Markdown around it; `clean` removes code fences and
the lines that only name the language. `block` lays a comment out with a given indentation.
-/

namespace JavaOutline.Doc

/-- Remove the code fences of a text, each with the name of the language right after it, in one
pass from left to right. -/
def removeFences : List Char → List Char
  | '\x60' :: '\x60' :: '\x60' :: 'j' :: 'a' :: 'v' :: 'a' :: rest => removeFences rest
  | '\x60' :: '\x60' :: '\x60' :: rest => removeFences rest
  | c :: rest => c :: removeFences rest
  | [] => []

def isSpace (c : Char) : Bool := c == ' ' || c == '\t'

def dropLineEnd (line : List Char) : List Char :=
  if line.getLast? = some '\n' then line.dropLast else line

/-- Whether a line holds nothing but the name of the language. -/
def isTagLine (line : List Char) : Bool :=
  ((dropLineEnd line).dropWhile isSpace |>.reverse.dropWhile isSpace).reverse ==
    ['j', 'a', 'v', 'a']

def removeTagLines (text : List Char) : List Char :=
  ((Text.pieces text).filter fun line => !isTagLine line).flatten

/-- A generated comment without the Markdown around it. -/
def clean (raw : String) : String :=
  String.ofList (Text.trimChars (removeTagLines (removeFences raw.toList)))

/-- The lines of a comment with the given indentation. Each line loses the blanks around it and
ends with a line break. -/
def blockLines (comment : List Char) (indent : Nat) : List (List Char) :=
  (Text.splitLines (Text.trimChars comment)).map fun line =>
    List.replicate indent ' ' ++ Text.trimChars line ++ ['\n']

/-- The lines of a comment with the given indentation, as texts. -/
def block (comment : String) (indent : UInt32) : List String :=
  (blockLines comment.toList indent.toNat).map String.ofList

end JavaOutline.Doc
