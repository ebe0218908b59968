import JavaOutline.Proofs.Doc.Placement
import JavaOutline.Proofs.Syntax.Nesting
import JavaOutline.Proofs.Text.LineStart

/-! Comments and tokens. A comment goes to the beginning of the line on which a declaration starts.
If a token that began on an earlier line ends on this line, the comment goes into the token, and
there is no other way for a comment to get into one. -/
namespace JavaOutline

open Syntax

namespace Syntax.Node

/-- Whether a place in the text is inside a node, and at neither of its ends. -/
def Straddles (n : Node) (byte : Nat) : Prop := n.info.start.byte < byte ∧ byte < n.info.stop.byte

instance (n : Node) (byte : Nat) : Decidable (n.Straddles byte) :=
  inferInstanceAs (Decidable (n.info.start.byte < byte ∧ byte < n.info.stop.byte))

/-- Whether a node that starts on an earlier line ends on the given line, and not at its
beginning. -/
def RunsInto (n : Node) (row : Nat) : Prop :=
  n.info.start.row < row ∧ n.info.stop.row = row ∧ 0 < n.info.stop.column

instance (n : Node) (row : Nat) : Decidable (n.RunsInto row) :=
  inferInstanceAs (Decidable (n.info.start.row < row ∧ n.info.stop.row = row ∧
    0 < n.info.stop.column))

/-- The beginning of a line is inside a node that comes before another one on the line exactly if
the node runs into the line. -/
theorem straddles_lineStart_iff {content : List UInt8} {leaf n : Node} (hLeaf : leaf.IsIn content)
    (hn : n.IsIn content)
    (hBefore : leaf.info.start.byte < n.info.start.byte →
      leaf.info.stop.byte ≤ n.info.start.byte) :
    leaf.Straddles (n.info.start.byte - n.info.start.column) ↔ leaf.RunsInto n.info.start.row := by
  have hEarlier := Text.lt_lineStart_iff (j := leaf.info.start.byte) hn.start.inside
  rw [← hn.start.column, ← hLeaf.start.row, ← hn.start.row] at hEarlier
  have hOnLine (h : leaf.info.start.byte < n.info.start.byte - n.info.start.column) :=
    Text.lineStart_lt_iff (hBefore (by omega)) hn.start.inside
  rw [← hn.start.column, ← hLeaf.stop.row, ← hLeaf.stop.column, ← hn.start.row] at hOnLine
  constructor
  · rintro ⟨hStart, hStop⟩
    exact ⟨hEarlier.mp hStart, (hOnLine hStart).mp hStop⟩
  · rintro ⟨hStart, hStop⟩
    have hLess := hEarlier.mpr hStart
    exact ⟨hLess, (hOnLine hLess).mpr hStop⟩

end Syntax.Node

namespace Doc

/-- How many bytes of a program come before a line, where lines are counted from one. -/
def lineStart (source : String) (line : Nat) : Nat :=
  (Text.bytesOf ((Text.pieces source.toList).take (line - 1)).flatten).length

/-- Whether a block of lines stands whole in a layout after the given number of bytes of the
program. -/
def StandsAt (layout : List Line) (block : List (List Char)) (offset : Nat) : Prop :=
  ∃ before after, layout = before ++ block.map .inserted ++ after ∧
    (Text.bytesOf (before.filterMap Line.kept?).flatten).length = offset

section Tree

variable {path source : String} {root n : Node} {s : Symbol} {a : Address}

/-- The line that a symbol names begins as many bytes before its declaration as the declaration is
indented by. -/
theorem lineStart_startLine (hBy : s.DeclaredBy (Text.encode source) n)
    (hNode : n.IsIn (Text.encode source)) :
    lineStart source s.startLine.toNat = n.info.start.byte - n.info.start.column := by
  obtain ⟨line, -, hStart, -⟩ := exists_line_of_declaredBy hBy hNode
  obtain ⟨hLine, hIndent⟩ := hBy.place hNode
  rw [lineStart, hLine, Nat.add_sub_cancel, ← hIndent]
  omega

/-- A block that stands above the line of a byte stands at the beginning of that line. -/
theorem StandsAbove.standsAt {layout : List Line} {block : List (List Char)} {byte column : Nat}
    (h : StandsAbove layout block byte column) : StandsAt layout block (byte - column) := by
  obtain ⟨before, between, line, after, hLayout, -, hByte, -⟩ := h
  exact ⟨before, between ++ .kept line :: after, by rw [hLayout, List.append_assoc], by omega⟩

/-- A comment for a symbol goes into a token exactly if the token runs into the line on which the
declaration starts; then the token ends before the declaration. -/
theorem straddles_lineStart_startLine_iff (hTree : root.IsTreeOf (Text.encode source))
    (hNested : root.IsNested) (hn : root.at? a = some n)
    (hBy : s.DeclaredBy (Text.encode source) n) {b : Address} {leaf : Node}
    (hLeaf : root.at? b = some leaf) (hNone : leaf.children = []) :
    (leaf.Straddles (lineStart source s.startLine.toNat) ↔ leaf.RunsInto n.info.start.row) ∧
      (leaf.RunsInto n.info.start.row → leaf.info.stop.byte ≤ n.info.start.byte) := by
  have hNode := hTree a n hn
  have hBefore := hNested.leaf_stop_le hn hLeaf hNone
  have hIff := Node.straddles_lineStart_iff (hTree b leaf hLeaf) hNode hBefore
  rw [lineStart_startLine hBy hNode]
  refine ⟨hIff, fun hRuns => hBefore ?_⟩
  have hStart := (hIff.mpr hRuns).1
  omega

/-- Comments for symbols stand in the program at the beginnings of the lines that the symbols name.
Such a place is inside a token exactly if the token starts on an earlier line and ends on the line
on which the declaration of the symbol starts, before the declaration and not at the beginning of
the line. -/
theorem insert_commentsFor_straddles_iff (hTree : root.IsTreeOf (Text.encode source))
    (hNested : root.IsNested) {chosen : List (Symbol × String)}
    (hChosen : ∀ x ∈ chosen, x.1 ∈ symbolsOf path source root) :
    ∃ lines : List Line,
      Text.pieces (insert source (commentsFor chosen)).toList = lines.map Line.text ∧
      lines.filterMap Line.kept? = Text.pieces source.toList ∧
      ∀ x ∈ chosen, ∃ a n, root.at? a = some n ∧ x.1.DeclaredBy (Text.encode source) n ∧
        StandsAt lines (blockLines x.2.toList x.1.indent.toNat)
          (lineStart source x.1.startLine.toNat) ∧
        ∀ b leaf, root.at? b = some leaf → leaf.children = [] →
          (leaf.Straddles (lineStart source x.1.startLine.toNat) ↔
            leaf.RunsInto n.info.start.row) ∧
          (leaf.RunsInto n.info.start.row → leaf.info.stop.byte ≤ n.info.start.byte) := by
  have hInside := allInside_commentsFor hTree hChosen
  refine ⟨layout source (commentsFor chosen), pieces_insert hInside,
    filterMap_kept?_layoutFrom _ _ _, fun x hx => ?_⟩
  obtain ⟨a, n, hn, hBy, hStands⟩ := standsAbove_of_mem hTree hx (hChosen x hx)
  refine ⟨a, n, hn, hBy, ?_, fun b leaf hLeaf hNone =>
    straddles_lineStart_startLine_iff hTree hNested hn hBy hLeaf hNone⟩
  rw [lineStart_startLine hBy (hTree a n hn), ← (hBy.place (hTree a n hn)).2]
  exact hStands.standsAt

end Tree

/-- A program in which a method starts on the line on which a text of two lines ends. -/
def textBlock : String := "class A\x7bString s=\"\"\"\nx\"\"\";void f();\x7d"

def soundNode (kind : String) (isName : Bool) (start stop : Place) (children : List Node) : Node :=
  .mk ⟨kind, isName, start, stop, false, false, false⟩ children

def textFragment : Node := soundNode "multiline_string_fragment" false ⟨20, 0, 20⟩ ⟨22, 1, 1⟩ []

def textField : Node :=
  soundNode "field_declaration" false ⟨8, 0, 8⟩ ⟨26, 1, 5⟩
    [soundNode "type_identifier" false ⟨8, 0, 8⟩ ⟨14, 0, 14⟩ [],
      soundNode "variable_declarator" false ⟨15, 0, 15⟩ ⟨25, 1, 4⟩
        [soundNode "identifier" true ⟨15, 0, 15⟩ ⟨16, 0, 16⟩ [],
          soundNode "=" false ⟨16, 0, 16⟩ ⟨17, 0, 17⟩ [],
          soundNode "string_literal" false ⟨17, 0, 17⟩ ⟨25, 1, 4⟩
            [soundNode "\"\"\"" false ⟨17, 0, 17⟩ ⟨20, 0, 20⟩ [],
              textFragment,
              soundNode "\"\"\"" false ⟨22, 1, 1⟩ ⟨25, 1, 4⟩ []]],
      soundNode ";" false ⟨25, 1, 4⟩ ⟨26, 1, 5⟩ []]

def methodAfterText : Node :=
  soundNode methodKind false ⟨26, 1, 5⟩ ⟨35, 1, 14⟩
    [soundNode "void_type" false ⟨26, 1, 5⟩ ⟨30, 1, 9⟩ [],
      soundNode "identifier" true ⟨31, 1, 10⟩ ⟨32, 1, 11⟩ [],
      soundNode "formal_parameters" false ⟨32, 1, 11⟩ ⟨34, 1, 13⟩
        [soundNode "(" false ⟨32, 1, 11⟩ ⟨33, 1, 12⟩ [],
          soundNode ")" false ⟨33, 1, 12⟩ ⟨34, 1, 13⟩ []],
      soundNode ";" false ⟨34, 1, 13⟩ ⟨35, 1, 14⟩ []]

def textBlockTree : Node :=
  soundNode "program" false ⟨0, 0, 0⟩ ⟨36, 1, 15⟩
    [soundNode classKind false ⟨0, 0, 0⟩ ⟨36, 1, 15⟩
      [soundNode "class" false ⟨0, 0, 0⟩ ⟨5, 0, 5⟩ [],
        soundNode "identifier" true ⟨6, 0, 6⟩ ⟨7, 0, 7⟩ [],
        soundNode "class_body" false ⟨7, 0, 7⟩ ⟨36, 1, 15⟩
          [soundNode "\x7b" false ⟨7, 0, 7⟩ ⟨8, 0, 8⟩ [],
            textField,
            methodAfterText,
            soundNode "\x7d" false ⟨35, 1, 14⟩ ⟨36, 1, 15⟩ []]]]

theorem isTreeOf_textBlockTree : textBlockTree.IsTreeOf (Text.encode textBlock) := by
  decide +kernel

theorem isNested_textBlockTree : textBlockTree.IsNested := by decide +kernel

theorem at?_textFragment : textBlockTree.at? [0, 2, 1, 1, 2, 1] = some textFragment := rfl

theorem insert_commentsFor_straddles_iff_textBlock :
    textBlockTree.IsTreeOf (Text.encode textBlock) ∧ textBlockTree.IsNested ∧
      ∃ lines : List Line,
        Text.pieces (insert textBlock (commentsFor ((symbolsOf "A.java" textBlock
          textBlockTree).map fun s => (s, "/** " ++ s.name ++ " */")))).toList =
            lines.map Line.text ∧
        ∀ s ∈ symbolsOf "A.java" textBlock textBlockTree,
          ∃ a n, textBlockTree.at? a = some n ∧
            StandsAt lines (blockLines ("/** " ++ s.name ++ " */").toList s.indent.toNat)
              (lineStart textBlock s.startLine.toNat) ∧
            (textFragment.Straddles (lineStart textBlock s.startLine.toNat) ↔
              textFragment.RunsInto n.info.start.row) := by
  have hChosen : ∀ x ∈ (symbolsOf "A.java" textBlock textBlockTree).map
      fun s => (s, "/** " ++ s.name ++ " */"),
      x.1 ∈ symbolsOf "A.java" textBlock textBlockTree := by
    intro x hx
    obtain ⟨s, hs, rfl⟩ := List.mem_map.mp hx
    exact hs
  obtain ⟨lines, hLines, -, hAll⟩ :=
    insert_commentsFor_straddles_iff isTreeOf_textBlockTree isNested_textBlockTree hChosen
  refine ⟨isTreeOf_textBlockTree, isNested_textBlockTree, lines, hLines, fun s hs => ?_⟩
  obtain ⟨a, n, hn, -, hStands, hLeaves⟩ := hAll _ (List.mem_map.mpr ⟨s, hs, rfl⟩)
  exact ⟨a, n, hn, hStands, (hLeaves _ _ at?_textFragment rfl).1⟩

/-- The comment for the method of that program goes into the text, which is another text then. -/
theorem straddles_textFragment :
    textBlockTree.IsTreeOf (Text.encode textBlock) ∧ textBlockTree.IsNested ∧
      ∃ s ∈ symbolsOf "A.java" textBlock textBlockTree, ∃ b leaf,
        textBlockTree.at? b = some leaf ∧ leaf.children = [] ∧
        leaf.Straddles (lineStart textBlock s.startLine.toNat) ∧
        insert textBlock [Insertion.above (Target.ofSymbol s) "/** f */"] =
          "class A\x7bString s=\"\"\"\n     /** f */\nx\"\"\";void f();\x7d" := by
  obtain ⟨s, hs, hLine, hIndent⟩ : ∃ s ∈ symbolsOf "A.java" textBlock textBlockTree,
      s.startLine = 2 ∧ s.indent = 5 := by decide +kernel
  refine ⟨isTreeOf_textBlockTree, isNested_textBlockTree, s, hs, _, _, at?_textFragment, rfl, ?_,
    ?_⟩
  · rw [hLine]
    decide +kernel
  · rw [Insertion.above, Target.ofSymbol, hLine, hIndent]
    cbv

end Doc

end JavaOutline
