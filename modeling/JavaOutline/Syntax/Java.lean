import JavaOutline.Grammar.Java
import JavaOutline.Syntax.Mistake
import JavaOutline.Syntax.OfSubtree

/-!
The syntax of Java.
-/

namespace JavaOutline.Syntax.Java

open Grammar Automaton Parsing

def table : Table := Table.ofProductions (Productions.ofGrammar Grammar.java)

/-- The syntax tree of a text. Mistakes in the text show in the tree, so there always is one. -/
def parse (text : String) : Option Node := some (Node.ofSubtree table (Parse.run table text))

end JavaOutline.Syntax.Java
