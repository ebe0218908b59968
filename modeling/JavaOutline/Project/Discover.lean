import JavaOutline.Project.Basic

/-!
Finding the files of a project.
-/

namespace JavaOutline.Project

def exclusions (fs : FileSystem) (p : Project) : Except Error ExclusionSet :=
  let entries : Except Error (List String) :=
    if p.config.useIgnoreFile then
      (loadIgnoreFile fs p.root).map fun more => p.config.exclude ++ more
    else .ok p.config.exclude
  match entries with
  | .error e => .error e
  | .ok entries =>
      match ExclusionSet.ofEntries entries with
      | .error bad => .error (.pattern bad)
      | .ok set => .ok set

/-- Whether a file is to be left out. A file whose path below the root is no text never is. -/
def isExcluded (p : Project) (set : ExclusionSet) (path : Path) : Bool :=
  match path.relativeTo p.root with
  | .ok relative => set.excludes relative
  | .error _ => false

/-- The file of the project that was met, if it is one. -/
def wanted? (p : Project) (set : ExclusionSet) : Found → Option Path
  | .file path =>
      if path.hasExtension p.config.extension && !p.isExcluded set path then some path else none
  | .failure _ => none

/-- What has to be skipped because it cannot be visited. -/
def unreachable? : Found → Option Skipped
  | .file _ => none
  | .failure fault => some ⟨fault.path, .walk fault⟩

/-- The files of a project, and what cannot be visited. -/
def discover (fs : FileSystem) (p : Project) : Except Error (List Path × List Skipped) :=
  if !fs.fileExists p.root then .error (.rootNotFound p.root)
  else if !fs.isDirectory p.root then .error (.rootNotDirectory p.root)
  else
    match p.exclusions fs with
    | .error e => .error e
    | .ok set =>
        let found := fs.walk p.root
        .ok (found.filterMap (p.wanted? set), found.filterMap unreachable?)

def discoverFiles (fs : FileSystem) (p : Project) : Except Error (List Path) :=
  (p.discover fs).map Prod.fst

end JavaOutline.Project
