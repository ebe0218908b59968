import JavaOutline.FileSystem.Basic

/-!
Following paths and links.
-/

namespace JavaOutline.FileSystem

def linkLimit : Nat := 40

/-- How many bytes a name may have. -/
def nameLimit : Nat := 255

def pathLimit : Nat := 4095

/-- Why a path cannot lead anywhere whatever there is, if that is so. -/
def pathFault? (p : Path) : Option FileFault :=
  if 0 ∈ p.bytes then some .containsNul
  else if p.bytes.length > pathLimit then some .nameTooLong
  else none

/-- The names to follow for a path. A slash at the end asks for a directory, as `.` does. -/
def stepsOf (bytes : List UInt8) : List Name :=
  let segments := (Path.segments 0 bytes).map fun s => s.2
  let last := match segments.getLast? with
    | some [] => [Path.dot]
    | some s => s
    | none => []
  segments.dropLast.filter (fun s => !s.isEmpty) ++ [last]

def isAbsolute (bytes : List UInt8) : Bool := bytes.head? == some Path.slash

/-- Where a path starts that is met at a location. -/
def startOf (location : List Name) (bytes : List UInt8) : List Name :=
  if isAbsolute bytes then [] else location

/-- Where following steps leads: to a location, or to a link that stands at `location` and has to be
followed before the steps that are left. -/
inductive Stop where
  | arrived (location : List Name)
  | atLink (location : List Name) (target : List UInt8) (left : List Name)
  deriving DecidableEq, Repr

/-- Follow steps from a location up to the first link. -/
def follow (root : Entry) (location : List Name) : List Name → Except FileFault Stop
  | [] => .ok (.arrived location)
  | step :: rest =>
      match root.at? location with
      | some (.directory cs) =>
          if step = [Path.dot] then follow root location rest
          else if step = [Path.dot, Path.dot] then follow root location.dropLast rest
          else if step.length > nameLimit then .error .nameTooLong
          else
            match cs.lookup step with
            | none => .error .notFound
            | some (.link target) => .ok (.atLink location target rest)
            | some _ => follow root (location ++ [step]) rest
      | some (.sealed fault) => .error fault
      | _ => .error .notDirectory

/-- Follow steps and at most `budget` links. -/
def resolveSteps (root : Entry) : Nat → List Name → List Name → Except FileFault (List Name)
  | budget, location, steps =>
      match follow root location steps with
      | .error f => .error f
      | .ok (.arrived l) => .ok l
      | .ok (.atLink l target left) =>
          match budget with
          | 0 => .error .tooManyLinks
          | budget + 1 =>
              resolveSteps root budget (startOf l target) (stepsOf target ++ left)

/-- The location that a path leads to, however long it is. -/
def locate (fs : FileSystem) (p : Path) : Except FileFault (List Name) :=
  if p.bytes = [] then .error .notFound
  else resolveSteps fs.root linkLimit (startOf fs.current p.bytes) (stepsOf p.bytes)

def resolve (fs : FileSystem) (p : Path) : Except FileFault (List Name) :=
  match pathFault? p with
  | some f => .error f
  | none => fs.locate p

def entry? (fs : FileSystem) (p : Path) : Option Entry :=
  match fs.resolve p with
  | .ok l => fs.root.at? l
  | .error _ => none

def fileExists (fs : FileSystem) (p : Path) : Bool := (fs.entry? p).isSome

def isDirectory (fs : FileSystem) (p : Path) : Bool :=
  match fs.entry? p with
  | some e => e.isDirectory
  | none => false

def isFile (fs : FileSystem) (p : Path) : Bool :=
  match fs.entry? p with
  | some e => e.isFile
  | none => false

def read (fs : FileSystem) (p : Path) : Except FileFault (List UInt8) :=
  match fs.resolve p with
  | .error f => .error f
  | .ok l =>
      match fs.root.at? l with
      | some (.regular content) => content
      | some (.directory _) => .error .isDirectory
      | some (.sealed fault) => .error fault
      | _ => .error .notFound

/-- The name under which the directory of a project goes: that of the location its path leads to, or
if it leads nowhere that of the path itself. The path is followed step by step, so its length does
not matter. -/
def namespaceOf (fs : FileSystem) (p : Path) : Option String :=
  let name := match fs.locate p with
    | .ok l => l.getLast?
    | .error _ => p.fileName?
  name.bind Text.decode?

/-- The names to follow for a path to a file that is to be written. A slash at the end asks for a
directory, whatever stands before it. -/
def writeStepsOf (bytes : List UInt8) : List Name :=
  let names := ((Path.segments 0 bytes).map fun s => s.2).filter fun s => !s.isEmpty
  if bytes.getLast? = some Path.slash then names.dropLast ++ [[Path.dot]] else names

/-- Where a file would be written: the location of its directory, and its name there. A link at the
end is followed too. A directory cannot be written, and a file that cannot be opened neither. -/
def writeTarget (root : Entry) : Nat → List Name → List Name →
    Except FileFault (List Name × Name)
  | budget, location, steps =>
      match follow root location steps.dropLast with
      | .error f => .error f
      | .ok (.atLink l target left) =>
          match budget with
          | 0 => .error .tooManyLinks
          | budget + 1 =>
              writeTarget root budget (startOf l target)
                (stepsOf target ++ left ++ steps.getLast?.toList)
      | .ok (.arrived l) =>
          match root.at? l, steps.getLast? with
          | some (.directory cs), some name =>
              if name = [Path.dot] ∨ name = [Path.dot, Path.dot] then .error .isDirectory
              else if name.length > nameLimit then .error .nameTooLong
              else
                match cs.lookup name with
                | some (.directory _) => .error .isDirectory
                | some (.sealed _) => .error .isDirectory
                | some (.regular (.error fault)) => .error fault
                | some (.link target) =>
                    match budget with
                    | 0 => .error .tooManyLinks
                    | budget + 1 =>
                        writeTarget root budget (startOf l target) (writeStepsOf target)
                | _ => .ok (l, name)
          | some (.sealed fault), _ => .error fault
          | _, _ => .error .notDirectory

/-- Write a file, which is created if its directory exists. -/
def write (fs : FileSystem) (p : Path) (content : List UInt8) : Except FileFault FileSystem :=
  match pathFault? p with
  | some f => .error f
  | none =>
      if p.bytes = [] then .error .notFound
      else
        match writeTarget fs.root linkLimit (startOf fs.current p.bytes)
            (writeStepsOf p.bytes) with
        | .error f => .error f
        | .ok (l, name) => .ok { fs with root := Entry.put (.file content) name l fs.root }

/-- Put an entry where a path says, creating the directories on the way that do not exist yet. -/
def install (entry : Entry) : List Name → Name → List Name → FileSystem → FileSystem
  | location, name, [], fs => { fs with root := Entry.put entry name location fs.root }
  | location, name, next :: rest, fs =>
      match resolveSteps fs.root linkLimit location [name] with
      | .ok l => install entry l next rest fs
      | .error _ =>
          install entry (location ++ [name]) next rest
            { fs with root := Entry.put (.directory []) name location fs.root }

/-- Put an entry at a relative path, creating the directories on the way. A directory that exists
already is kept. -/
def create (fs : FileSystem) (p : Path) (entry : Entry) : FileSystem :=
  if entry.isDirectory && fs.isDirectory p then fs
  else
    match stepsOf p.bytes with
    | [] => fs
    | name :: rest => install entry fs.current name rest fs

end JavaOutline.FileSystem
