import Mathlib.Algebra.Group.Nat.Defs
import JavaOutline.Doc.Render
import JavaOutline.Proofs.Doc.Layout
import JavaOutline.Proofs.Outline.Naming

/-! Comments for the symbols of a tree. If the places in the tree are places of the program, a
symbol names the line on which its declaration starts, so a comment for it goes above that line and
is indented as the declaration is. -/
namespace JavaOutline

open Syntax

namespace Syntax

/-- Whether a place is one of a text: it lies inside, its row and column count the line breaks
before it and the bytes since the last of them, and it can be told in 32 bits. -/
structure Place.IsIn (p : Place) (content : List UInt8) : Prop where
  inside : p.byte ≤ content.length
  fits : p.byte < 2 ^ 32
  row : p.row = (content.take p.byte).count Text.newline
  column : p.column = Text.columnAfter (content.take p.byte)

instance (p : Place) (content : List UInt8) : Decidable (p.IsIn content) :=
  decidable_of_iff (p.byte ≤ content.length ∧ p.byte < 2 ^ 32 ∧
      p.row = (content.take p.byte).count Text.newline ∧
      p.column = Text.columnAfter (content.take p.byte))
    ⟨fun ⟨h₁, h₂, h₃, h₄⟩ => ⟨h₁, h₂, h₃, h₄⟩, fun h => ⟨h.inside, h.fits, h.row, h.column⟩⟩

/-- Whether a node has the places of a stretch of a text, which is not empty if the node is a
declaration. -/
structure Node.IsIn (n : Node) (content : List UInt8) : Prop where
  start : n.info.start.IsIn content
  stop : n.info.stop.IsIn content
  nonempty : n.kind = classKind ∨ n.kind = methodKind → n.info.start.byte < n.info.stop.byte

instance (n : Node) (content : List UInt8) : Decidable (n.IsIn content) :=
  decidable_of_iff (n.info.start.IsIn content ∧ n.info.stop.IsIn content ∧
      (n.kind = classKind ∨ n.kind = methodKind → n.info.start.byte < n.info.stop.byte))
    ⟨fun ⟨h₁, h₂, h₃⟩ => ⟨h₁, h₂, h₃⟩, fun h => ⟨h.start, h.stop, h.nonempty⟩⟩

/-- Whether a tree is one of a text: all its nodes are. -/
def Node.IsTreeOf (root : Node) (content : List UInt8) : Prop :=
  ∀ a n, root.at? a = some n → n.IsIn content

/-- The nodes of a tree can be checked one after another. -/
theorem Node.isTreeOf_iff {root : Node} {content : List UInt8} :
    root.IsTreeOf content ↔ ∀ n ∈ root.postorder.filterMap root.at?, n.IsIn content :=
  Node.forall_at?_iff

instance (root : Node) (content : List UInt8) : Decidable (root.IsTreeOf content) :=
  decidable_of_iff _ Node.isTreeOf_iff.symm

/-- There are no more line breaks before a place than bytes. -/
theorem Place.IsIn.row_le {p : Place} {content : List UInt8} (h : p.IsIn content) :
    p.row ≤ p.byte := by
  rw [h.row]
  exact List.count_le_length.trans (List.length_take_le _ _)

/-- There are no more bytes in a line before a place than there are altogether. -/
theorem Place.IsIn.column_le {p : Place} {content : List UInt8} (h : p.IsIn content) :
    p.column ≤ p.byte := by
  rw [h.column]
  exact Text.columnAfter_take_le content p.byte

end Syntax

/-- A symbol tells the line and the column at which its declaration starts. -/
theorem Symbol.DeclaredBy.place {content : List UInt8} {n : Node} {s : Symbol}
    (h : s.DeclaredBy content n) (hNode : n.IsIn content) :
    s.startLine.toNat = n.info.start.row + 1 ∧ s.indent.toNat = n.info.start.column := by
  have hKind : n.kind = classKind ∨ n.kind = methodKind := h.kind.imp And.left And.left
  have hLess := hNode.nonempty hKind
  have hFits := hNode.stop.fits
  have hRow := hNode.start.row_le
  have hColumn := hNode.start.column_le
  constructor
  · rw [h.startLine, lineNumber, Nat.toUInt32, UInt32.toNat_ofNat']
    exact Nat.mod_eq_of_lt (by omega)
  · rw [h.indent, Nat.toUInt32, UInt32.toNat_ofNat']
    exact Nat.mod_eq_of_lt (by omega)

/-- The line of a program on which a declaration starts: what is before it, and where in it the
declaration starts. -/
theorem exists_line_of_declaredBy {source : String} {n : Node} {s : Symbol}
    (h : s.DeclaredBy (Text.encode source) n) (hNode : n.IsIn (Text.encode source)) :
    ∃ line, (Text.pieces source.toList)[n.info.start.row]? = some line ∧
      (Text.bytesOf ((Text.pieces source.toList).take n.info.start.row).flatten).length +
        s.indent.toNat = n.info.start.byte ∧
      s.indent.toNat < (Text.bytesOf line).length := by
  have hKind : n.kind = classKind ∨ n.kind = methodKind := h.kind.imp And.left And.left
  have hLess := hNode.nonempty hKind
  have hStop := hNode.stop.inside
  have hByte : n.info.start.byte < (Text.bytesOf source.toList).length :=
    Nat.lt_of_lt_of_le hLess hStop
  obtain ⟨line, hLine, hStart, hColumn⟩ := Text.exists_line_of_byte source.toList hByte
  have hRow : n.info.start.row =
      ((Text.bytesOf source.toList).take n.info.start.byte).count Text.newline := hNode.start.row
  have hIndent : s.indent.toNat =
      Text.columnAfter ((Text.bytesOf source.toList).take n.info.start.byte) :=
    (h.place hNode).2.trans hNode.start.column
  rw [← hRow, ← hIndent] at hStart
  rw [← hRow] at hLine
  rw [← hIndent] at hColumn
  exact ⟨line, hLine, hStart, hColumn⟩

/-- Every symbol of a tree is declared by one of its nodes. -/
theorem exists_node_of_mem_symbolsOf {path content : String} {root : Node} {s : Symbol}
    (h : s ∈ symbolsOf path content root) :
    ∃ a n, root.at? a = some n ∧ s.DeclaredBy (Text.encode content) n := by
  obtain ⟨i, a, ha, hs⟩ := exists_declaration_of_mem_symbolsOf h
  obtain ⟨n, hn, hBy⟩ := Symbol.declaredBy_of_ofAddress? (List.mem_of_getElem? ha)
    (ofAddress?_of_getElem? ha hs)
  exact ⟨a, n, hn, hBy⟩

namespace Doc

def commentsFor (chosen : List (Symbol × String)) : List Insertion :=
  chosen.map fun x => Insertion.above (Target.ofSymbol x.1) x.2

/-- Whether a block of lines stands whole in a layout above the line of the program in which the
given byte lies, with only lines of comments in between. The byte follows as many bytes of its line
as are given. -/
def StandsAbove (layout : List Line) (block : List (List Char)) (byte column : Nat) : Prop :=
  ∃ before between line after,
    layout = before ++ block.map .inserted ++ between ++ .kept line :: after ∧
    between.filterMap Line.kept? = [] ∧
    (Text.bytesOf (before.filterMap Line.kept?).flatten).length + column = byte ∧
    column < (Text.bytesOf line).length

/-- What is rendered is free of mistakes. -/
theorem render_eq_ok {source text : String} {insertions : List Insertion}
    (h : render source insertions = .ok text) :
    text = insert source insertions ∧
      ∃ report, checkSyntax text = .ok report ∧ report.hasErrors = false := by
  unfold render at h
  dsimp only at h
  cases hReport : checkSyntax (insert source insertions) with
  | error e =>
      rw [hReport] at h
      cases h
  | ok report =>
      rw [hReport] at h
      dsimp only [Except.bind] at h
      split_ifs at h with hErrors
      rw [Except.ok.injEq] at h
      subst h
      exact ⟨rfl, report, hReport, Bool.not_eq_true _ ▸ hErrors⟩

section Tree

variable {path source : String} {root : Node}

/-- A comment above a symbol of a text is for a line that the text has. -/
theorem allInside_commentsFor (hTree : root.IsTreeOf (Text.encode source))
    {chosen : List (Symbol × String)}
    (hChosen : ∀ x ∈ chosen, x.1 ∈ symbolsOf path source root) :
    AllInside source (commentsFor chosen) := by
  intro i hi
  obtain ⟨x, hx, rfl⟩ := List.mem_map.mp hi
  obtain ⟨a, n, hn, hBy⟩ := exists_node_of_mem_symbolsOf (hChosen x hx)
  have hNode := hTree a n hn
  obtain ⟨line, hLine, -, -⟩ := exists_line_of_declaredBy hBy hNode
  obtain ⟨hLess, -⟩ := List.getElem?_eq_some_iff.mp hLine
  have hStart : (Insertion.above (Target.ofSymbol x.1) x.2).line.toNat = n.info.start.row + 1 :=
    (hBy.place hNode).1
  omega

/-- The comment for a symbol stands above the line on which the declaration of the symbol starts. -/
theorem standsAbove_of_mem (hTree : root.IsTreeOf (Text.encode source))
    {chosen : List (Symbol × String)} {x : Symbol × String} (hx : x ∈ chosen)
    (hSymbol : x.1 ∈ symbolsOf path source root) :
    ∃ a n, root.at? a = some n ∧ x.1.DeclaredBy (Text.encode source) n ∧
      StandsAbove (layout source (commentsFor chosen))
        (blockLines x.2.toList x.1.indent.toNat) n.info.start.byte x.1.indent.toNat := by
  obtain ⟨a, n, hn, hBy⟩ := exists_node_of_mem_symbolsOf hSymbol
  have hNode := hTree a n hn
  obtain ⟨line, hLine, hStart, hColumn⟩ := exists_line_of_declaredBy hBy hNode
  have hMem : Insertion.above (Target.ofSymbol x.1) x.2 ∈ commentsFor chosen :=
    List.mem_map.mpr ⟨x, hx, rfl⟩
  obtain ⟨before, between, after, hLayout, hBefore, hBetween⟩ :=
    exists_block_of_mem hMem (hBy.place hNode).1 hLine
  refine ⟨a, n, hn, hBy, before, between, line, after, hLayout, hBetween, ?_, hColumn⟩
  rw [hBefore, hStart]

/-- Let the places of a tree be places of a program. Then comments for any of the symbols of the
tree are all for lines of the program. The lines of the commented program are those of the program,
as they were and in order, and the lines of the comments, each comment once. Each comment stands
whole, indented like the declaration of its symbol, above the line on which the declaration starts,
with only lines of comments in between. A commented program that is rendered is this one, and it has
no mistakes. -/
theorem insert_commentsFor (hTree : root.IsTreeOf (Text.encode source))
    {chosen : List (Symbol × String)}
    (hChosen : ∀ x ∈ chosen, x.1 ∈ symbolsOf path source root) :
    (∀ i ∈ commentsFor chosen,
      1 ≤ i.line.toNat ∧ i.line.toNat ≤ (Text.pieces source.toList).length) ∧
    (∃ lines : List Line,
      Text.pieces (insert source (commentsFor chosen)).toList = lines.map Line.text ∧
      lines.filterMap Line.kept? = Text.pieces source.toList ∧
      (lines.filterMap Line.kept?).flatten = source.toList ∧
      (lines.filterMap Line.inserted?).Perm
        (chosen.flatMap fun x => blockLines x.2.toList x.1.indent.toNat) ∧
      ∀ x ∈ chosen,
        (∀ line ∈ blockLines x.2.toList x.1.indent.toNat,
          ∃ text, line = List.replicate x.1.indent.toNat ' ' ++ text ++ ['\n'] ∧ '\n' ∉ text ∧
            Text.trimChars text = text) ∧
        ∃ a n, root.at? a = some n ∧ x.1.DeclaredBy (Text.encode source) n ∧
          StandsAbove lines (blockLines x.2.toList x.1.indent.toNat) n.info.start.byte
            x.1.indent.toNat) ∧
    ∀ text, render source (commentsFor chosen) = .ok text →
      text = insert source (commentsFor chosen) ∧
        ∃ report, checkSyntax text = .ok report ∧ report.hasErrors = false := by
  have hInside := allInside_commentsFor hTree hChosen
  refine ⟨hInside, ⟨layout source (commentsFor chosen), pieces_insert hInside, ?_, ?_, ?_, ?_⟩,
    fun text h => render_eq_ok h⟩
  · exact filterMap_kept?_layoutFrom _ _ _
  · rw [layout, filterMap_kept?_layoutFrom, Text.flatten_pieces]
  · have hPerm := filterMap_inserted?_layoutFrom (commentsFor chosen) 1
      (Text.pieces source.toList) fun i hi => by
        have := hInside i hi
        omega
    rwa [commentsFor, List.flatMap_map] at hPerm
  · intro x hx
    exact ⟨fun line hLine => mem_blockLines hLine, standsAbove_of_mem hTree hx (hChosen x hx)⟩

end Tree

/-- A program of two lines, of which the last has no end. -/
def twoLines : String := "class A \x7b void f();\r\n  int g(); \x7d"

def twoLinesTree : Node :=
  let node (kind : String) (isName : Bool) (start stop : Place) (children : List Node) : Node :=
    .mk ⟨kind, isName, start, stop, false, false, false⟩ children
  let method (start stop name nameEnd : Place) : Node :=
    node methodKind false start stop [node "identifier" true name nameEnd []]
  node "program" false ⟨0, 0, 0⟩ ⟨33, 1, 12⟩
    [node classKind false ⟨0, 0, 0⟩ ⟨33, 1, 12⟩
      [node "identifier" true ⟨6, 0, 6⟩ ⟨7, 0, 7⟩ [],
        method ⟨10, 0, 10⟩ ⟨19, 0, 19⟩ ⟨15, 0, 15⟩ ⟨16, 0, 16⟩,
        method ⟨23, 1, 2⟩ ⟨31, 1, 10⟩ ⟨27, 1, 6⟩ ⟨28, 1, 7⟩]]

def twoLinesComments : List (Symbol × String) :=
  (symbolsOf "A.java" twoLines twoLinesTree).map fun s => (s, "/**\n * " ++ s.name ++ " */")

theorem insert_commentsFor_twoLines :
    twoLinesTree.IsTreeOf (Text.encode twoLines) ∧
      twoLinesComments.map (fun x => x.1.name) = ["f", "g", "A"] ∧
      ∃ lines : List Line,
        Text.pieces (insert twoLines (commentsFor twoLinesComments)).toList =
          lines.map Line.text ∧
        lines.filterMap Line.kept? = Text.pieces twoLines.toList ∧
        ∀ x ∈ twoLinesComments, ∃ a n, twoLinesTree.at? a = some n ∧
          StandsAbove lines (blockLines x.2.toList x.1.indent.toNat) n.info.start.byte
            x.1.indent.toNat := by
  have hTree : twoLinesTree.IsTreeOf (Text.encode twoLines) := by decide +kernel
  have hChosen : ∀ x ∈ twoLinesComments, x.1 ∈ symbolsOf "A.java" twoLines twoLinesTree := by
    intro x hx
    obtain ⟨s, hs, rfl⟩ := List.mem_map.mp hx
    exact hs
  obtain ⟨-, ⟨lines, hLines, hKept, -, -, hBlocks⟩, -⟩ := insert_commentsFor hTree hChosen
  refine ⟨hTree, by decide +kernel, lines, hLines, hKept, fun x hx => ?_⟩
  obtain ⟨-, a, n, hn, -, hStands⟩ := hBlocks x hx
  exact ⟨a, n, hn, hStands⟩

end Doc

end JavaOutline
