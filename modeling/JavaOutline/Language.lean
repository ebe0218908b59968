import JavaOutline.Error
import JavaOutline.Symbol.Outline
import JavaOutline.Syntax.Java

/-!
Reading the files of a language. Java is the only one.
-/

namespace JavaOutline

inductive Language where
  | java
  deriving DecidableEq, Repr

namespace Language

def name : Language → String
  | java => "java"

def all : List Language := [java]

def extension : Language → String
  | java => "java"

def ofName (name : String) : Except Error Language :=
  if name = java.name then .ok java else .error (.unsupportedLanguage name)

def ofExtension? (extension : String) : Option Language :=
  if extension = java.extension then some java else none

/-- The language that the extension of a path tells. -/
def ofPath? (p : Path) : Option Language :=
  ofExtension? ((p.extension?.bind Text.decode?).getD "")

end Language

def Path.isSupported (p : Path) : Bool := p.hasExtension Language.java.extension

def parseSource (path text : String) : Except Error Syntax.Node :=
  (Syntax.Java.parse text).elim (.error (.noTree path)) .ok

/-- The symbols of a text from the given file. A text with mistakes has symbols too. -/
def outline (path text : String) : Except Error (List Symbol) :=
  (parseSource path text).map fun root => symbolsOf path text root

def checkSyntax (text : String) : Except Error Syntax.Report :=
  (parseSource "<source>" text).map Syntax.Node.report

end JavaOutline
