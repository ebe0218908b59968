import JavaOutline.Exclusion.Glob
import JavaOutline.Text.Blank
import JavaOutline.Text.Lines

/-!
Sets of files to leave out, given by patterns.
-/

namespace JavaOutline

structure ExclusionSet where
  patterns : List (List Glob.Token)
  deriving DecidableEq, Repr

/-- A pattern that cannot be read, with the reason. -/
structure BadPattern where
  pattern : String
  fault : Glob.Fault
  deriving DecidableEq, Repr

namespace ExclusionSet

/-- The patterns that an entry stands for. An entry with a slash at its end stands for everything in
a directory of that name at any depth. -/
def expand (raw : String) : List String :=
  if raw.toList.getLast? = some '/' then
    let directory := String.ofList raw.toList.dropLast
    [directory ++ "/*", "*/" ++ directory ++ "/*"]
  else [raw]

def readAll (raw : String) : List String → Except BadPattern (List (List Glob.Token))
  | [] => .ok []
  | p :: rest =>
      match Glob.parse p with
      | .error fault => .error ⟨raw, fault⟩
      | .ok tokens =>
          match readAll raw rest with
          | .error e => .error e
          | .ok others => .ok (tokens :: others)

/-- The set that a list of entries describes. The first bad entry is reported. -/
def ofEntries : List String → Except BadPattern ExclusionSet
  | [] => .ok ⟨[]⟩
  | raw :: rest =>
      match readAll raw (expand raw) with
      | .error e => .error e
      | .ok patterns =>
          match ofEntries rest with
          | .error e => .error e
          | .ok others => .ok ⟨patterns ++ others.patterns⟩

def isEmpty (s : ExclusionSet) : Bool := s.patterns.isEmpty

def excludes (s : ExclusionSet) (path : String) : Bool :=
  s.patterns.any fun p => Glob.isMatch p path

end ExclusionSet

/-- The entries in the text of an ignore file: its lines without the blanks around them, apart from
empty ones and comments. -/
def ignoreEntries (text : String) : List String :=
  (Text.splitLines text.toList).filterMap fun line =>
    let entry := Text.trimChars line
    if entry = [] ∨ entry.head? = some '#' then none else some (String.ofList entry)

end JavaOutline
