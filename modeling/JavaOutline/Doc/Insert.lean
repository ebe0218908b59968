import JavaOutline.Doc.Comment
import JavaOutline.Symbol.Basic

/-!
Putting comments above the lines of a program.
-/

namespace JavaOutline.Doc

/-- What has to be known of a symbol to document it. -/
structure Target where
  code : String
  kind : SymbolKind
  name : String
  filePath : String
  startLine : UInt32
  indent : UInt32
  deriving DecidableEq, Repr

def Target.ofSymbol (s : Symbol) : Target :=
  ⟨s.code, s.kind, s.name, s.filePath, s.startLine, s.indent⟩

/-- A comment with the line above which it goes and its indentation. -/
structure Insertion where
  line : UInt32
  indent : UInt32
  text : String
  deriving DecidableEq, Repr

def Insertion.above (t : Target) (text : String) : Insertion := ⟨t.startLine, t.indent, text⟩

/-- The insertions for the symbols for which there is a comment, in order. -/
def Insertion.forSymbols (comment : Symbol → Option String) (symbols : List Symbol) :
    List Insertion :=
  symbols.filterMap fun s => (comment s).map (Insertion.above (Target.ofSymbol s))

def endLastLine (lines : List (List Char)) : List (List Char) :=
  match lines.getLast? with
  | none => lines
  | some last =>
      if last.getLast? = some '\n' then lines else lines.dropLast ++ [last ++ ['\n']]

/-- Put one comment above its line, or at the end if there are not so many lines. -/
def insertOne (lines : List (List Char)) (i : Insertion) : List (List Char) :=
  let index := min (i.line.toNat - 1) lines.length
  let lines := if index = lines.length then endLastLine lines else lines
  lines.take index ++ blockLines i.text.toList i.indent.toNat ++ lines.drop index

/-- The insertions with those for later lines first; those for one line stay in order. -/
def laterFirst (insertions : List Insertion) : List Insertion :=
  insertions.mergeSort fun a b => decide (b.line ≤ a.line)

/-- Put comments into a program, those for later lines first. -/
def insert (source : String) (insertions : List Insertion) : String :=
  String.ofList ((laterFirst insertions).foldl insertOne (Text.pieces source.toList)).flatten

end JavaOutline.Doc
