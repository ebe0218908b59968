import JavaOutline.Exclusion.Set
import JavaOutline.FileSystem.Walk

/-!
What can go wrong.

Some errors concern a whole project and end its extraction; the others concern one file, which is
then skipped.
-/

namespace JavaOutline

inductive Error where
  | rootNotFound (root : Path)
  | rootNotDirectory (root : Path)
  | read (path : Path) (fault : FileFault)
  | decode (path : Path)
  | pathNotText (path : Path)
  | noTree (path : String)
  | unsupportedLanguage (name : String)
  | walk (fault : WalkFault)
  | pattern (bad : BadPattern)
  | syntaxErrors (lines : List UInt32)
  deriving DecidableEq, Repr

namespace Error

/-- Numbers in brackets, divided by commas. -/
def listOf (lines : List UInt32) : String :=
  "[" ++ ", ".intercalate (lines.map fun l => Nat.repr l.toNat) ++ "]"

def message : Error → String
  | rootNotFound root => s!"project root '{root.display}' does not exist"
  | rootNotDirectory root => s!"project root '{root.display}' is not a directory"
  | read path fault => s!"failed to read '{path.display}': {fault.message}"
  | decode path => s!"'{path.display}' is not valid UTF-8 text"
  | pathNotText path => s!"path '{path.display}' is not valid UTF-8"
  | noTree path => s!"parser produced no syntax tree for '{path}'"
  | unsupportedLanguage name =>
      s!"unsupported language: '{name}'. Supported languages: java"
  | walk fault => s!"failed to scan '{fault.path.display}': {fault.message}"
  | pattern bad => s!"invalid exclusion pattern '{bad.pattern}': {bad.fault.message}"
  | syntaxErrors lines => s!"source has syntax errors on line(s) {listOf lines}"

/-- What lies behind an error, if that is an error of its own. -/
def cause? : Error → Option String
  | read _ fault => some fault.message
  | walk fault => some fault.message
  | pattern bad => some bad.fault.message
  | _ => none

/-- Whether an error ends the extraction of a project. -/
def isFatal : Error → Bool
  | rootNotFound _ => true
  | rootNotDirectory _ => true
  | pattern _ => true
  | unsupportedLanguage _ => true
  | _ => false

end Error

end JavaOutline
