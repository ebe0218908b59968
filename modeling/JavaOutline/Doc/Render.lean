import JavaOutline.Doc.Insert
import JavaOutline.Language

/-!
Documented copies of programs.
-/

namespace JavaOutline.Doc

/-- Put comments into a program. The result must be free of mistakes. -/
def render (source : String) (insertions : List Insertion) : Except Error String :=
  let rendered := insert source insertions
  (checkSyntax rendered).bind fun report =>
    if report.hasErrors then .error (.syntaxErrors report.errorLines) else .ok rendered

end JavaOutline.Doc
