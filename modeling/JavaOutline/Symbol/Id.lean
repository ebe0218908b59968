/-!
Ids of symbols.

An id is the path of the file followed by the qualified name of the symbol. Where this occurs again
in a file, the number of the occurrence follows.
-/

namespace JavaOutline.Id

/-- What an id begins with: the path of the file and the name. -/
def base (path name : String) : String := path ++ "::" ++ name

/-- The id of the `n`-th occurrence of a name in a file. -/
def ofOccurrence (path name : String) (n : Nat) : String :=
  if n ≤ 1 then base path name else base path name ++ "#" ++ toString n

/-- The ids of names. `seen` are the paths and names that have been counted before. -/
def assignAfter (path : String) : List String → List String → List String
  | _, [] => []
  | seen, name :: rest =>
      let counted := base path name
      ofOccurrence path name (seen.count counted + 1) :: assignAfter path (counted :: seen) rest

/-- The ids of the names of a file in order. -/
def assign (path : String) (names : List String) : List String := assignAfter path [] names

end JavaOutline.Id
