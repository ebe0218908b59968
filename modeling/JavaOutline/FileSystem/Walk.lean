import JavaOutline.FileSystem.Resolve

/-!
Walking through a directory.

The files below a directory are visited with links followed. The entries of a directory come in the
order of their names, and what is in a directory comes where the directory does. A link to a
directory that is being walked through already would never end, so it is reported instead, as is a
link that leads nowhere or a directory that cannot be opened. Before a link to a directory is
followed, that directory is opened to look for a loop; if this fails, the path of the link is not
reported.
-/

namespace JavaOutline

/-- Why something below a directory cannot be visited. What is unopened is behind a link, and is
known by the root of the walk alone. -/
inductive WalkFault where
  | unreachable (path : Path) (fault : FileFault)
  | unopened (root : Path) (fault : FileFault)
  | loop (path ancestor : Path)
  deriving DecidableEq, Repr

namespace WalkFault

def path : WalkFault → Path
  | .unreachable p _ => p
  | .unopened root _ => root
  | .loop p _ => p

def message : WalkFault → String
  | .unreachable p f => s!"IO error for operation on {p.display}: {f.message}"
  | .unopened _ f => f.message
  | .loop p ancestor =>
      s!"File system loop found: {p.display} points to an ancestor {ancestor.display}"

end WalkFault

inductive Found where
  | file (path : Path)
  | failure (fault : WalkFault)
  deriving DecidableEq, Repr

/-- A directory that is being walked through: where it is, and by which path it was reached. -/
structure Visit where
  location : List Name
  path : Path
  deriving DecidableEq, Repr

namespace Walk

/-- The order of names: byte by byte. -/
def nameLe (a b : Name) : Bool := decide (a ≤ b)

/-- What is met in a directory, name by name, put into the order of the names. -/
def inOrder (groups : List (Name × List Found)) : List Found :=
  (groups.mergeSort fun a b => nameLe a.1 b.1).flatMap fun g => g.2

/-- The path from which the directories being walked through were reached. -/
def rootOf (visits : List Visit) (path : Path) : Path :=
  match visits.getLast? with
  | some visit => visit.path
  | none => path

/-- What is met through the link at a path. `visits` are the directories being walked through, the
innermost first, and `enter` walks through a directory. -/
def throughLink (fs : FileSystem) (enter : List Visit → List (Name × Entry) → List Found)
    (visits : List Visit) (path : Path) : List Found :=
  match fs.resolve path with
  | .error f => [.failure (.unreachable path f)]
  | .ok l =>
      match fs.root.at? l with
      | some (.regular _) => [.file path]
      | some (.directory cs) =>
          match visits.find? fun v => v.location = l with
          | some v => [.failure (.loop path v.path)]
          | none => enter (⟨l, path⟩ :: visits) cs
      | some (.sealed fault) => [.failure (.unopened (rootOf visits path) fault)]
      | _ => [.failure (.unreachable path .notFound)]

mutual

/-- What is met at an entry of the directory visited last. -/
def entry (fs : FileSystem) (enter : List Visit → List (Name × Entry) → List Found)
    (visits : List Visit) (location : List Name) (path : Path) (name : Name) :
    Entry → List Found
  | .regular _ => [.file (path.join name)]
  | .directory cs =>
      let here : Visit := ⟨location ++ [name], path.join name⟩
      match FileSystem.pathFault? here.path with
      | some fault => [.failure (.unreachable here.path fault)]
      | none => inOrder (entries fs enter (here :: visits) here.location here.path cs)
  | .sealed fault =>
      let here := path.join name
      [.failure (.unreachable here ((FileSystem.pathFault? here).getD fault))]
  | .link _ => throughLink fs enter visits (path.join name)

def entries (fs : FileSystem) (enter : List Visit → List (Name × Entry) → List Found)
    (visits : List Visit) (location : List Name) (path : Path) :
    List (Name × Entry) → List (Name × List Found)
  | [] => []
  | (name, e) :: rest =>
      (name, entry fs enter visits location path name e) ::
        entries fs enter visits location path rest

end

/-- Walk through the directory visited last, entering at most `budget` directories through links one
inside another. -/
def directory (fs : FileSystem) : Nat → List Visit → List (Name × Entry) → List Found
  | 0, _, _ => []
  | _, [], _ => []
  | budget + 1, visit :: visits, cs =>
      inOrder (entries fs (directory fs budget) (visit :: visits) visit.location visit.path cs)

end Walk

/-- Whether the last name of a path is that of a link. -/
def FileSystem.endsInLink (fs : FileSystem) (p : Path) : Bool :=
  let steps := stepsOf p.bytes
  match resolveSteps fs.root linkLimit (startOf fs.current p.bytes) steps.dropLast,
      steps.getLast? with
  | .ok l, some name =>
      match fs.root.at? (l ++ [name]) with
      | some (.link _) => true
      | _ => false
  | _, _ => false

/-- Walk through the directory that a path leads to. Directories entered through links one inside
another are all different, so their number is bounded by that of the directories. -/
def FileSystem.walk (fs : FileSystem) (p : Path) : List Found :=
  match fs.resolve p with
  | .error _ => []
  | .ok l =>
      match fs.root.at? l with
      | some (.directory cs) => Walk.directory fs (fs.root.directoryCount + 1) [⟨l, p⟩] cs
      | some (.sealed fault) =>
          if fs.endsInLink p then [.failure (.unopened p fault)]
          else [.failure (.unreachable p fault)]
      | _ => []

end JavaOutline
