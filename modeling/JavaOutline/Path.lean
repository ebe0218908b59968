import JavaOutline.Text.Utf8

/-!
Paths of files.

A path is any sequence of bytes. It is read as components divided by slashes: repeated slashes and
`.` do not count, apart from a `.` at the very beginning. Since a component knows where it stands,
a part of a path can be cut out as it was written.
-/

namespace JavaOutline

/-- A path as it was written. -/
structure Path where
  bytes : List UInt8
  deriving DecidableEq, Repr, Inhabited

namespace Path

def slash : UInt8 := 0x2F

/-- The byte before an extension. -/
def dot : UInt8 := 0x2E

def ofString (s : String) : Path := ⟨Text.encode s⟩

/-- The path as a text, if it is one. -/
def text? (p : Path) : Option String := Text.decode? p.bytes

/-- The path as it is shown, with U+FFFD for what is no text. -/
def display (p : Path) : String := Text.decodeLenient p.bytes

/-- The stretches between the slashes of a path, with the offset at which each begins. -/
def segments : Nat → List UInt8 → List (Nat × List UInt8)
  | offset, [] => [(offset, [])]
  | offset, b :: rest =>
      if b = slash then (offset, []) :: segments (offset + 1) rest
      else
        match segments (offset + 1) rest with
        | [] => [(offset, [b])]
        | (_, segment) :: others => (offset, b :: segment) :: others

inductive Component where
  | root
  | current
  | parent
  | name (bytes : List UInt8)
  deriving DecidableEq, Repr

/-- A component with the offsets at which it begins and ends. -/
structure Located where
  component : Component
  start : Nat
  stop : Nat
  deriving DecidableEq, Repr

/-- The component that a segment is. Empty segments and `.` do not count. -/
def inner? (segment : Nat × List UInt8) : Option Located :=
  let stop := segment.1 + segment.2.length
  if segment.2 = [] ∨ segment.2 = [dot] then none
  else if segment.2 = [dot, dot] then some ⟨.parent, segment.1, stop⟩
  else some ⟨.name segment.2, segment.1, stop⟩

def located (p : Path) : List Located :=
  match segments 0 p.bytes with
  | [] => []
  | first :: rest =>
      let inner := rest.filterMap inner?
      if first.2 = [] then
        if rest = [] then [] else ⟨.root, 0, 1⟩ :: inner
      else if first.2 = [dot] then ⟨.current, 0, 1⟩ :: inner
      else (inner? first).toList ++ inner

def components (p : Path) : List Component := p.located.map Located.component

/-- The last component, if it is a name. -/
def fileName? (p : Path) : Option (List UInt8) :=
  match p.components.getLast? with
  | some (.name bytes) => some bytes
  | _ => none

/-- A file name divided at its last dot. A dot at the beginning does not divide it. -/
def splitName (name : List UInt8) : List UInt8 × Option (List UInt8) :=
  let after := (name.reverse.takeWhile fun b => b != dot).reverse
  let before := (name.reverse.dropWhile fun b => b != dot).tail.reverse
  if before = [] then (name, none) else (before, some after)

def stem? (p : Path) : Option (List UInt8) := p.fileName?.map fun n => (splitName n).1

def extension? (p : Path) : Option (List UInt8) := p.fileName?.bind fun n => (splitName n).2

def hasExtension (p : Path) (extension : String) : Bool :=
  match p.extension? with
  | some bytes => Text.decode? bytes == some extension
  | none => false

/-- The path of a file in a directory. -/
def join (p : Path) (name : List UInt8) : Path :=
  match p.bytes.getLast? with
  | none => ⟨name⟩
  | some b => if b = slash then ⟨p.bytes ++ name⟩ else ⟨p.bytes ++ slash :: name⟩

/-- The path up to its last component. -/
def parent (p : Path) : Path :=
  match p.located.dropLast.getLast? with
  | none => ⟨[]⟩
  | some l => ⟨p.bytes.take l.stop⟩

/-- The path with another file name; if it has none, the name is added. -/
def withFileName (p : Path) (name : List UInt8) : Path :=
  match p.fileName? with
  | some _ => p.parent.join name
  | none => p.join name

/-- The components left after those of another path, if they begin with these. -/
def dropComponents? : List Located → List Component → Option (List Located)
  | ls, [] => some ls
  | [], _ :: _ => none
  | l :: ls, c :: cs => if l.component = c then dropComponents? ls cs else none

/-- The stretch of a path that some of its components cover. -/
def covering (p : Path) (ls : List Located) : Path :=
  match ls.head?, ls.getLast? with
  | some first, some last => ⟨(p.bytes.take last.stop).drop first.start⟩
  | _, _ => ⟨[]⟩

/-- The rest of a path after a root, if it lies below that root. -/
def stripPrefix? (p root : Path) : Option Path :=
  (dropComponents? p.located root.components).map p.covering

/-- Why a path has no text relative to a root. -/
inductive RelativeError where
  | outside (path root : Path)
  | notText
  deriving DecidableEq, Repr

def RelativeError.message : RelativeError → String
  | .outside path root =>
      s!"File path '{path.display}' is not within root '{root.display}': prefix not found"
  | .notText => "Path contains invalid UTF-8"

/-- The text of a path relative to a root. -/
def relativeTo (p root : Path) : Except RelativeError String :=
  match p.stripPrefix? root with
  | none => .error (.outside p root)
  | some rest =>
      match rest.text? with
      | none => .error .notText
      | some s => .ok s

/-- What is put behind the name of a documented copy. -/
def commentedSuffix : String := "_commented"

/-- The path of the documented copy of a file. -/
def commentedCopy (p : Path) : Path :=
  let stem := match p.stem? with
    | some bytes => Text.decodeLenient bytes
    | none => ""
  let name := match p.extension? with
    | some bytes => stem ++ commentedSuffix ++ "." ++ Text.decodeLenient bytes
    | none => stem ++ commentedSuffix
  p.withFileName (Text.encode name)

end Path

end JavaOutline
