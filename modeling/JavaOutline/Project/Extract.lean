import JavaOutline.Project.Discover

/-!
The symbols of a project.
-/

namespace JavaOutline

/-- The symbols of a project, and the files that had to be skipped. -/
structure Extraction where
  symbols : Store
  skipped : List Skipped
  deriving DecidableEq, Repr

def Extraction.describe (e : Extraction) : String :=
  s!"SymbolStore(symbols={e.symbols.size}, skipped={e.skipped.length})"

namespace Project

def extractFile (fs : FileSystem) (path : Path) : Except Error (List Symbol) :=
  match path.text? with
  | none => .error (.pathNotText path)
  | some name =>
      match readText fs path with
      | .error e => .error e
      | .ok text => outline name text

/-- Collect the results of files one after another. An error that concerns the whole project ends
the collection; any other only skips its file. -/
def collect : List (Path × Except Error (List Symbol)) → Extraction → Except Error Extraction
  | [], acc => .ok acc
  | (_, .ok symbols) :: rest, acc =>
      collect rest { acc with symbols := acc.symbols.extend symbols }
  | (path, .error e) :: rest, acc =>
      if e.isFatal then .error e
      else collect rest { acc with skipped := acc.skipped ++ [⟨path, e⟩] }

def extract (fs : FileSystem) (p : Project) : Except Error Extraction :=
  match p.discover fs with
  | .error e => .error e
  | .ok (files, skipped) =>
      collect (files.map fun path => (path, extractFile fs path)) ⟨Store.empty, skipped⟩

end Project

end JavaOutline
