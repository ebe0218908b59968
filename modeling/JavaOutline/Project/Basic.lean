import JavaOutline.Language
import JavaOutline.Symbol.Store

/-!
Projects: directories of programs.
-/

namespace JavaOutline

/-- Which files of a directory belong to a project. -/
structure ProjectConfig where
  extension : String
  exclude : List String
  useIgnoreFile : Bool
  /-- Whether files may be read side by side; the result is the same either way. -/
  parallel : Bool
  deriving DecidableEq, Repr

/-- What is assumed of a project of which nothing else is said: documented copies are left out. -/
def ProjectConfig.standard : ProjectConfig :=
  { extension := Language.java.extension
    exclude := ["*" ++ Path.commentedSuffix ++ "." ++ Language.java.extension]
    useIgnoreFile := true
    parallel := true }

structure Project where
  root : Path
  config : ProjectConfig
  deriving DecidableEq, Repr

/-- A file that had to be left out, with the reason. -/
structure Skipped where
  path : Path
  error : Error
  deriving DecidableEq, Repr

def Skipped.reason (s : Skipped) : String := s.error.message

/-- The name of the file that lists what to leave out. -/
def ignoreFileName : String := ".comprehenderignore"

/-- The entries of the ignore file of a directory; without such a file there are none. -/
def loadIgnoreFile (fs : FileSystem) (root : Path) : Except Error (List String) :=
  let path := root.join (Text.encode ignoreFileName)
  if fs.isFile path then
    match fs.read path with
    | .error f => .error (.read path f)
    | .ok bytes =>
        match Text.decode? bytes with
        | none => .error (.read path .notText)
        | some text => .ok (ignoreEntries text)
  else .ok []

def readText (fs : FileSystem) (path : Path) : Except Error String :=
  match fs.read path with
  | .error f => .error (.read path f)
  | .ok bytes =>
      match Text.decode? bytes with
      | none => .error (.decode path)
      | some text => .ok text

end JavaOutline
