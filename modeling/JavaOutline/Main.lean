import JavaOutline.Command.Run

/-!
The command line.

What the command needs of the disk is read beforehand, and what it prints or writes is put out
afterwards; everything in between is `JavaOutline.Command`.
-/

namespace JavaOutline.Disk

/-- No path is longer than this, so no directory is deeper. -/
def deepest : Nat := 4096

/-- A directory on the way to an entry: where it really is, and where it is taken to be. -/
structure Ancestor where
  realPath : String
  takenPath : String

/-- Whether the bytes of a file can matter. -/
def isWanted (name : String) : Bool :=
  (Path.ofString name).isSupported || name == ignoreFileName

/-- The fault that the system reports by a number, which some of its calls negate. -/
def faultOfCode? (number : UInt32) : Option FileFault :=
  let code := if number > 0x7FFFFFFF then 0 - number else number
  if code = 2 then some .notFound
  else if code = 5 then some .ioError
  else if code = 13 then some .denied
  else if code = 20 then some .notDirectory
  else if code = 21 then some .isDirectory
  else if code = 36 then some .nameTooLong
  else if code = 40 then some .tooManyLinks
  else none

def faultOf? : IO.Error → Option FileFault
  | .noFileOrDirectory _ code _ => faultOfCode? code
  | .inappropriateType _ code _ => faultOfCode? code
  | .invalidArgument _ code _ => faultOfCode? code
  | .permissionDenied _ code _ => faultOfCode? code
  | .hardwareFault code _ => faultOfCode? code
  | _ => none

/-- The fault because of which something cannot be opened. What the system reports otherwise is
taken for a fault of the device. -/
def openingFault (e : IO.Error) : FileFault := (faultOf? e).getD .ioError

/-- The place, which nothing on a disk has, of a directory that cannot be opened. Links that lead
to such a directory lead there instead. -/
def sealedName (fault : FileFault) : Name := 0 :: Text.encode fault.message

/-- A directory with nothing in it but those that cannot be opened. -/
def sealedOnly : Entry :=
  .directory ([.denied, .ioError].map fun fault => (sealedName fault, .sealed fault))

/-- A target for the link of the given name that leads to the given fault. -/
def deadEnd (name : Name) : Option FileFault → List UInt8
  | some .tooManyLinks => name
  | some .denied => Path.slash :: sealedName .denied ++ [Path.slash, Path.dot]
  | some .nameTooLong => List.replicate (FileSystem.nameLimit + 1) Path.dot
  | _ => [0]

/-- What an access to the disk gives, or the fault with which it fails. -/
def attempt {α : Type} (access : IO α) : IO (Except FileFault α) := do
  try return .ok (← access)
  catch e => return .error (openingFault e)

def bytesOf (path : String) : IO (List UInt8) := return (← IO.FS.readBinFile path).toList

/-- The entries of a directory, the last of the ancestors. A link to an ancestor stays a link; any
other link is taken for what it leads to. What cannot be opened is kept with the fault. -/
def entries : Nat → List Ancestor → List IO.FS.DirEntry → IO (List (Name × Entry))
  | 0, _, _ => return []
  | _, [], _ => return []
  | depth + 1, here :: above, found =>
      found.mapM fun e => do
        let name := Text.encode e.fileName
        let taken := here.takenPath ++ "/" ++ e.fileName
        let inside (realPath : String) (found : Array IO.FS.DirEntry) : IO Entry :=
          return .directory (← entries depth (⟨realPath, taken⟩ :: here :: above) found.toList)
        match ← attempt e.path.symlinkMetadata with
        | .error fault => return (name, .regular (.error fault))
        | .ok data =>
            match data.type with
            | .dir =>
                match ← attempt e.path.readDir with
                | .ok found => return (name, ← inside (here.realPath ++ "/" ++ e.fileName) found)
                | .error fault => return (name, .sealed fault)
            | .symlink =>
                try
                  let kind := (← e.path.metadata).type
                  let target ← IO.FS.realPath e.path
                  match kind with
                  | .dir =>
                      match (here :: above).find? fun a => a.realPath == target.toString with
                      | some a => return (name, .link (Text.encode a.takenPath))
                      | none =>
                          match ← attempt target.readDir with
                          | .ok found => return (name, ← inside target.toString found)
                          | .error fault => return (name, .link (Path.slash :: sealedName fault))
                  | _ => return (name, .regular (← attempt (bytesOf target.toString)))
                catch e => return (name, .link (deadEnd name (faultOf? e)))
            | _ =>
                if isWanted e.fileName then
                  return (name, .regular (← attempt (bytesOf e.path.toString)))
                else return (name, .file [])

/-- Every path that leads on the way to a path, itself included. -/
def waysTo (path : String) : List String :=
  let parts := path.splitOn "/"
  (List.range parts.length).map fun i => "/".intercalate (parts.take (i + 1))

def stepsOf (path : String) : List Name :=
  (path.splitOn "/").filterMap fun s => if s == "" then none else some (Text.encode s)

/-- Make the place known to which a path on the way to the input really leads. -/
def addWay (fs : FileSystem) (way : String) : IO FileSystem := do
  try
    let real ← IO.FS.realPath way
    let entry : Entry := match (← real.metadata).type with
      | .dir => .directory []
      | _ => .file []
    return { fs with current := [] }.create (Path.ofString real.toString) entry
  catch _ => return fs

/-- Let a path on the way to the input lead where it really leads. -/
def linkWay (current : List Name) (fs : FileSystem) (way : String) : IO FileSystem := do
  let fs := { fs with current }
  try
    let real := (← IO.FS.realPath way).toString
    if fs.fileExists (Path.ofString way) || way == "" then return fs
    else
      let base := FileSystem.startOf current (Text.encode way)
      return { fs with current := base }.create (Path.ofString way) (.link (Text.encode real))
  catch _ => return fs

/-- The part of the disk that a directory on it consists of. -/
def load (inputDir : String) : IO FileSystem := do
  let current := stepsOf (← IO.currentDir).toString
  let top : FileSystem := ⟨sealedOnly, []⟩
  let start := top.create (Path.ofString (← IO.currentDir).toString) (.directory [])
  let fs ← (waysTo inputDir).foldlM addWay start
  let fs ← (waysTo inputDir).foldlM (linkWay current) fs
  try
    let real ← IO.FS.realPath inputDir
    match (← real.metadata).type with
    | .dir =>
        let location := stepsOf real.toString
        let root ← match ← attempt real.readDir, location.getLast? with
          | .ok found, _ =>
              let inside ← entries deepest [⟨real.toString, real.toString⟩] found.toList
              pure (inside.foldl (fun root (name, e) => Entry.put e name location root) fs.root)
          | .error fault, some name =>
              pure (Entry.put (.sealed fault) name location.dropLast fs.root)
          | .error fault, none => pure (.sealed fault)
        return ⟨root, current⟩
    | _ => return { fs with current }
  catch _ => return { fs with current }

end JavaOutline.Disk

namespace JavaOutline.Command

/-- Print what a run without an output file comes to. -/
def finish (o : Outcome) : IO UInt32 := do
  IO.print o.stdout
  match o.stderr with
  | some report => IO.eprint report
  | none => pure ()
  return o.exitCode.toUInt32

def writeOutput (path text : String) : IO UInt32 := do
  try
    IO.FS.writeFile path text
    return 0
  catch e =>
    let cause := match Disk.faultOf? e with
      | some fault => fault.message
      | none => toString e
    IO.eprint (Failure.ofWriting path cause).report
    return 1

end JavaOutline.Command

open JavaOutline in
def main (args : List String) : IO UInt32 := do
  match Command.Options.ofArguments args with
  | .error _ => Command.finish (Command.run ⟨.directory [], []⟩ args)
  | .ok o =>
      let fs ← Disk.load o.inputDir
      match o.output, o.check with
      | some path, false =>
          match Command.outputText fs o with
          | .ok text => Command.writeOutput path text
          | .error failure => Command.finish ⟨1, "", some failure.report, fs⟩
      | _, _ => Command.finish (Command.runWith fs o)
