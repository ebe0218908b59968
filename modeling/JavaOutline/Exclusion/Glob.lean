/-!
Patterns for paths.

`?` stands for any character, `*` for any run of characters, `**` for any run of whole directories,
and `[...]` for one of a class of characters, or with `!` for one outside of it. Slashes have no
special meaning apart from `**`, which must be a whole component.
-/

namespace JavaOutline.Glob

/-- A part of a class of characters: those from one up to another. -/
structure CharRange where
  first : Char
  last : Char
  deriving DecidableEq, Repr

def inRanges (ranges : List CharRange) (c : Char) : Bool :=
  ranges.any fun r => decide (r.first ≤ c) && decide (c ≤ r.last)

inductive Token where
  | literal (c : Char)
  | anyChar
  | within (ranges : List CharRange)
  | except (ranges : List CharRange)
  | anySequence
  | anyDirectories
  deriving DecidableEq, Repr

inductive Problem where
  | tooManyStars
  | partialComponent
  | badClass
  deriving DecidableEq, Repr

def Problem.message : Problem → String
  | .tooManyStars => "wildcards are either regular `*` or recursive `**`"
  | .partialComponent => "recursive wildcards must form a single path component"
  | .badClass => "invalid range pattern"

/-- A problem with the character at which it was noticed. -/
structure Fault where
  position : Nat
  problem : Problem
  deriving DecidableEq, Repr

def Fault.message (f : Fault) : String :=
  s!"Pattern syntax error near position {f.position}: {f.problem.message}"

/-- The ranges of a class: `x-y` from one character to another, others by themselves. -/
def rangesOf : List Char → List CharRange
  | a :: '-' :: b :: rest => ⟨a, b⟩ :: rangesOf rest
  | a :: rest => ⟨a, a⟩ :: rangesOf rest
  | [] => []

/-- The beginning of a pattern: what it stands for, and how many further characters belong to it. -/
structure Reading where
  token : Token
  length : Nat
  deriving DecidableEq, Repr

/-- Read stars. `before` is the character before them, if there is one, and `rest` is what follows
the first star. -/
def readStars (position : Nat) (before : Option Char) (rest : List Char) :
    Except Fault Reading :=
  let more := (rest.takeWhile fun c => c == '*').length
  if more = 0 then .ok ⟨.anySequence, 0⟩
  else if more > 1 then .error ⟨position + 2, .tooManyStars⟩
  else if before = none ∨ before = some '/' then
    match rest.drop 1 with
    | [] => .ok ⟨.anyDirectories, 1⟩
    | c :: _ => if c = '/' then .ok ⟨.anyDirectories, 2⟩
        else .error ⟨position + 2, .partialComponent⟩
  else .error ⟨position - 1, .partialComponent⟩

/-- The members of a class, given the characters from its first member on. The first character is
always a member. -/
def classMembers? : List Char → Option (List Char)
  | [] => none
  | first :: rest =>
      let members := rest.takeWhile fun c => c != ']'
      if members.length < rest.length then some (first :: members) else none

/-- Read a class. `rest` is what follows the opening bracket. -/
def readClass (position : Nat) (rest : List Char) : Except Fault Reading :=
  match rest with
  | '!' :: inside =>
      match classMembers? inside with
      | some members => .ok ⟨.except (rangesOf members), members.length + 2⟩
      | none => .error ⟨position, .badClass⟩
  | _ =>
      match classMembers? rest with
      | some members => .ok ⟨.within (rangesOf members), members.length + 1⟩
      | none => .error ⟨position, .badClass⟩

def readToken (position : Nat) (before : Option Char) (c : Char) (rest : List Char) :
    Except Fault Reading :=
  if c = '?' then .ok ⟨.anyChar, 0⟩
  else if c = '*' then readStars position before rest
  else if c = '[' then readClass position rest
  else .ok ⟨.literal c, 0⟩

/-- Read a pattern of which the first `skip` characters belong to a part already read. -/
def parseFrom (position : Nat) (before : Option Char) :
    Nat → List Char → Except Fault (List Token)
  | _, [] => .ok []
  | skip + 1, c :: rest => parseFrom (position + 1) (some c) skip rest
  | 0, c :: rest =>
      match readToken position before c rest with
      | .error f => .error f
      | .ok r =>
          match parseFrom (position + 1) (some c) r.length rest with
          | .error f => .error f
          | .ok tokens => .ok (r.token :: tokens)

def parse (pattern : String) : Except Fault (List Token) := parseFrom 0 none 0 pattern.toList

/-- Whether a part that stands for one character stands for the given one. -/
def Token.accepts : Token → Char → Bool
  | .literal d, c => c == d
  | .anyChar, _ => true
  | .within ranges, c => inRanges ranges c
  | .except ranges, c => !inRanges ranges c
  | .anySequence, _ => false
  | .anyDirectories, _ => false

/-- A text and all its ends, the longest first. -/
def tails : List Char → List (List Char)
  | [] => [[]]
  | c :: rest => (c :: rest) :: tails rest

/-- What follows each slash of a text, and at last the empty text. -/
def directoryTails : List Char → List (List Char)
  | [] => []
  | c :: rest =>
      if c == '/' || rest.isEmpty then rest :: directoryTails rest else directoryTails rest

/-- What can be left of a text after one more part. The remainders are ends of one text, the longest
first, so that a wild card needs only the first of them. -/
def step (remainders : List (List Char)) : Token → List (List Char)
  | .anySequence =>
      match remainders with
      | [] => []
      | longest :: _ => tails longest
  | .anyDirectories =>
      match remainders with
      | [] => []
      | longest :: _ => longest :: directoryTails longest
  | token =>
      remainders.filterMap fun r =>
        match r with
        | [] => none
        | c :: rest => if token.accepts c then some rest else none

def isMatch (tokens : List Token) (text : String) : Bool :=
  (tokens.foldl step [text.toList]).any List.isEmpty

end JavaOutline.Glob
