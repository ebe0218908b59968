import JavaOutline.Json.Value

/-!
Reading JSON.

Every function takes the characters that are left and gives back what it has read together with the
characters after it, or nothing if they do not begin as they should.
-/

namespace JavaOutline.Json

/-- What follows the gap at the beginning. -/
def skipGap (cs : List Char) : List Char := cs.dropWhile isGap

def hexValue? (c : Char) : Option Nat :=
  if '0' ≤ c ∧ c ≤ '9' then some (c.toNat - 48)
  else if 'a' ≤ c ∧ c ≤ 'f' then some (c.toNat - 87)
  else if 'A' ≤ c ∧ c ≤ 'F' then some (c.toNat - 55)
  else none

def hexValue4? (a b c d : Char) : Option Nat :=
  match hexValue? a, hexValue? b, hexValue? c, hexValue? d with
  | some a, some b, some c, some d => some (((a * 16 + b) * 16 + c) * 16 + d)
  | _, _, _, _ => none

/-- A part of a string: a character, or a number given by an escape. -/
inductive Piece where
  | char (c : Char)
  | code (n : Nat)
  deriving DecidableEq, Repr

/-- The character that a letter after a backslash stands for. -/
def unescape? (c : Char) : Option Char :=
  if c = '"' then some '"'
  else if c = '\\' then some '\\'
  else if c = '/' then some '/'
  else if c = 'b' then some '\x08'
  else if c = 'f' then some '\x0c'
  else if c = 'n' then some '\n'
  else if c = 'r' then some '\r'
  else if c = 't' then some '\t'
  else none

/-- The parts of a string whose opening quote has been read. -/
def readPieces : List Char → Option (List Piece × List Char)
  | [] => none
  | '\\' :: 'u' :: a :: b :: c :: d :: rest =>
      match hexValue4? a b c d, readPieces rest with
      | some n, some (pieces, left) => some (.code n :: pieces, left)
      | _, _ => none
  | '\\' :: c :: rest =>
      match unescape? c, readPieces rest with
      | some c, some (pieces, left) => some (.char c :: pieces, left)
      | _, _ => none
  | c :: rest =>
      if c = '"' then some ([], rest)
      else if c.toNat < 0x20 then none
      else
        match readPieces rest with
        | some (pieces, left) => some (.char c :: pieces, left)
        | none => none

/-- Whether a number is the first half of a surrogate pair. -/
def isHigh (n : Nat) : Bool := 0xD800 ≤ n && n ≤ 0xDBFF

/-- Whether a number is the second half of a surrogate pair. -/
def isLow (n : Nat) : Bool := 0xDC00 ≤ n && n ≤ 0xDFFF

/-- The characters of a string, unless it has half of a surrogate pair. -/
def joinPieces : List Piece → Option (List Char)
  | [] => some []
  | .char c :: rest => (joinPieces rest).map (c :: ·)
  | .code high :: .code low :: rest =>
      if isHigh high then
        if isLow low then
          (joinPieces rest).map
            (Char.ofNat (0x10000 + (high - 0xD800) * 0x400 + (low - 0xDC00)) :: ·)
        else none
      else if isLow high then none
      else (joinPieces (.code low :: rest)).map (Char.ofNat high :: ·)
  | .code n :: rest =>
      if isHigh n || isLow n then none else (joinPieces rest).map (Char.ofNat n :: ·)

/-- A string whose opening quote has been read; it has no text if it has half of a surrogate
pair. -/
def readString (cs : List Char) : Option (Option String × List Char) :=
  (readPieces cs).map fun (pieces, left) => ((joinPieces pieces).map String.ofList, left)

/-- The decimal digits at the beginning, of which there must be one. -/
def readDigits (cs : List Char) : Option (List Char × List Char) :=
  match cs.takeWhile Char.isDigit with
  | [] => none
  | ds => some (ds, cs.dropWhile Char.isDigit)

/-- The digits before the point: no zero comes first unless it is alone. -/
def readWhole (cs : List Char) : Option (List Char × List Char) :=
  match readDigits cs with
  | none => none
  | some (ds, left) =>
      if ds.head? = some '0' ∧ 1 < ds.length then none else some (ds, left)

/-- A point and the digits after it, if there is a point. -/
def readFraction (cs : List Char) : Option (List Char × List Char) :=
  match cs with
  | '.' :: rest => (readDigits rest).map fun (ds, left) => ('.' :: ds, left)
  | _ => some ([], cs)

def readExponent (cs : List Char) : Option (List Char × List Char) :=
  match cs with
  | e :: rest =>
      if e = 'e' ∨ e = 'E' then
        match rest with
        | s :: after =>
            if s = '+' ∨ s = '-' then
              (readDigits after).map fun (ds, left) => (e :: s :: ds, left)
            else (readDigits rest).map fun (ds, left) => (e :: ds, left)
        | [] => none
      else some ([], cs)
  | [] => some ([], cs)

def valueOf (ds : List Char) : Nat := ds.foldl (fun n d => n * 10 + (d.toNat - 48)) 0

def readNumber (cs : List Char) : Option (Json × List Char) :=
  let sign := if cs.head? = some '-' then ['-'] else []
  match readWhole (cs.drop sign.length) with
  | none => none
  | some (whole, afterWhole) =>
      match readFraction afterWhole with
      | none => none
      | some (fraction, afterFraction) =>
          match readExponent afterFraction with
          | none => none
          | some (exponent, left) =>
              if sign = [] ∧ fraction = [] ∧ exponent = [] then some (.nat (valueOf whole), left)
              else some (.number (String.ofList (sign ++ whole ++ fraction ++ exponent)), left)

/-- The object with the given fields, as far as all keys are texts. -/
def ofFields (fields : List (Option String × Json)) : Json :=
  match fields.mapM fun f => f.1.map fun k => (k, f.2) with
  | some fields => .obj fields
  | none => .unpaired

mutual

/-- A value. The first argument bounds the depth. -/
def readValue : Nat → List Char → Option (Json × List Char)
  | 0, _ => none
  | depth + 1, cs =>
      match skipGap cs with
      | [] => none
      | c :: rest =>
          if c = '"' then
            (readString rest).map fun (s, left) => (s.elim .unpaired .str, left)
          else if c = '[' then
            match skipGap rest with
            | ']' :: left => some (.arr [], left)
            | _ => (readItems depth rest).map fun (items, left) => (.arr items, left)
          else if c = '\x7b' then
            match skipGap rest with
            | '\x7d' :: left => some (.obj [], left)
            | _ => (readFields depth rest).map fun (fields, left) => (ofFields fields, left)
          else if c = 'n' then
            match rest with
            | 'u' :: 'l' :: 'l' :: left => some (.null, left)
            | _ => none
          else if c = 't' then
            match rest with
            | 'r' :: 'u' :: 'e' :: left => some (.bool true, left)
            | _ => none
          else if c = 'f' then
            match rest with
            | 'a' :: 'l' :: 's' :: 'e' :: left => some (.bool false, left)
            | _ => none
          else readNumber (c :: rest)

def readItems : Nat → List Char → Option (List Json × List Char)
  | 0, _ => none
  | depth + 1, cs =>
      match readValue depth cs with
      | none => none
      | some (v, afterValue) =>
          match skipGap afterValue with
          | ',' :: rest => (readItems depth rest).map fun (items, left) => (v :: items, left)
          | ']' :: left => some ([v], left)
          | _ => none

def readFields : Nat → List Char → Option (List (Option String × Json) × List Char)
  | 0, _ => none
  | depth + 1, cs =>
      match skipGap cs with
      | '"' :: rest =>
          match readString rest with
          | none => none
          | some (key, afterKey) =>
              match skipGap afterKey with
              | ':' :: afterColon =>
                  match readValue depth afterColon with
                  | none => none
                  | some (v, afterValue) =>
                      match skipGap afterValue with
                      | ',' :: rest =>
                          (readFields depth rest).map fun (fields, left) =>
                            ((key, v) :: fields, left)
                      | '\x7d' :: left => some ([(key, v)], left)
                      | _ => none
              | _ => none
      | _ => none

end

/-- The value that a text spells. Nothing but blanks may follow it. -/
def parse? (text : String) : Option Json :=
  let cs := text.toList
  match readValue (2 * cs.length + 2) cs with
  | none => none
  | some (v, left) => if skipGap left = [] then some v else none

end JavaOutline.Json
