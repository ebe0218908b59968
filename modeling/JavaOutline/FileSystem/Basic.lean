import JavaOutline.Path

/-!
File systems.

A file system is a tree of directories with files and links at its leaves. A location is the list
of names that leads from the top to an entry without passing a link.
-/

namespace JavaOutline

abbrev Name := List UInt8

/-- Why a file cannot be reached or read. -/
inductive FileFault where
  | notFound
  | notDirectory
  | isDirectory
  | tooManyLinks
  | nameTooLong
  | containsNul
  | denied
  | ioError
  | notText
  deriving DecidableEq, Repr

def FileFault.message : FileFault → String
  | .notFound => "No such file or directory (os error 2)"
  | .notDirectory => "Not a directory (os error 20)"
  | .isDirectory => "Is a directory (os error 21)"
  | .tooManyLinks => "Too many levels of symbolic links (os error 40)"
  | .nameTooLong => "File name too long (os error 36)"
  | .containsNul => "file name contained an unexpected NUL byte"
  | .denied => "Permission denied (os error 13)"
  | .ioError => "Input/output error (os error 5)"
  | .notText => "stream did not contain valid UTF-8"

/-- An entry of a file system. A file that cannot be opened has the fault in place of its bytes, and
a directory that cannot be opened is sealed: it is there, and nothing in it can be reached. -/
inductive Entry where
  | regular (content : Except FileFault (List UInt8))
  | directory (children : List (Name × Entry))
  | sealed (fault : FileFault)
  | link (target : List UInt8)
  deriving Inhabited

namespace Entry

@[match_pattern]
abbrev file (content : List UInt8) : Entry := .regular (.ok content)

/-- The entries of a directory; nothing else has any. -/
def children : Entry → List (Name × Entry)
  | .directory cs => cs
  | _ => []

def isDirectory : Entry → Bool
  | .directory _ => true
  | .sealed _ => true
  | _ => false

def isFile : Entry → Bool
  | .regular _ => true
  | _ => false

def child? (e : Entry) (name : Name) : Option Entry := e.children.lookup name

/-- The entry at a location below this one. -/
def at? : Entry → List Name → Option Entry
  | e, [] => some e
  | e, name :: rest => (e.child? name).bind fun c => c.at? rest

/-- Put an entry of the given name into a list of entries; one of that name is replaced. -/
def putIn (name : Name) (entry : Entry) : List (Name × Entry) → List (Name × Entry)
  | [] => [(name, entry)]
  | (n, e) :: rest => if n = name then (n, entry) :: rest else (n, e) :: putIn name entry rest

/-- Put an entry into the directory at a location below this one. -/
def put (new : Entry) (name : Name) : List Name → Entry → Entry
  | [], .directory cs => .directory (putIn name new cs)
  | step :: rest, .directory cs =>
      match cs.lookup step with
      | some c => .directory (putIn step (put new name rest c) cs)
      | none => .directory cs
  | _, e => e

mutual

/-- How many directories that can be opened there are in an entry. -/
def directoryCount : Entry → Nat
  | .directory cs => 1 + directoryCountIn cs
  | _ => 0

def directoryCountIn : List (Name × Entry) → Nat
  | [] => 0
  | (_, e) :: rest => directoryCount e + directoryCountIn rest

end

end Entry

/-- A file system with a directory from which relative paths start. -/
structure FileSystem where
  root : Entry
  current : List Name
  deriving Inhabited

end JavaOutline
