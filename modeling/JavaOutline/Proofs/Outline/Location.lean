import JavaOutline.Proofs.Outline.Emission
import JavaOutline.Proofs.Text.Stretch

/-! Where a declaration is in its program. A node covers characters, and its row and column count
lines and bytes, so the first line and the indentation of a symbol lead to its code, and the lines
of the code are those up to the last line of the symbol. -/
namespace JavaOutline

namespace Syntax

/-- Whether a place lies between characters of a program and has their row and column. Line numbers
and columns have 32 bits. -/
structure Place.Marks (p : Place) (source : String) : Prop where
  between : (⟨p.byte⟩ : String.Pos.Raw).IsValid source
  row : p.row = ((Text.encode source).take p.byte).count Text.newline
  column : p.column = Text.columnAfter ((Text.encode source).take p.byte)
  line_lt : p.row + 1 < UInt32.size
  column_lt : p.column < UInt32.size

instance (p : Place) (source : String) : Decidable (p.Marks source) :=
  decidable_of_iff ((⟨p.byte⟩ : String.Pos.Raw).IsValid source ∧
      p.row = ((Text.encode source).take p.byte).count Text.newline ∧
      p.column = Text.columnAfter ((Text.encode source).take p.byte) ∧
      p.row + 1 < UInt32.size ∧ p.column < UInt32.size)
    ⟨fun ⟨h₁, h₂, h₃, h₄, h₅⟩ => ⟨h₁, h₂, h₃, h₄, h₅⟩,
      fun h => ⟨h.between, h.row, h.column, h.line_lt, h.column_lt⟩⟩

/-- Whether a node covers characters of a program, perhaps none. -/
structure Node.Covers (n : Node) (source : String) : Prop where
  start : n.info.start.Marks source
  stop : n.info.stop.Marks source
  le : n.info.start.byte ≤ n.info.stop.byte

instance (n : Node) (source : String) : Decidable (n.Covers source) :=
  decidable_of_iff (n.info.start.Marks source ∧ n.info.stop.Marks source ∧
      n.info.start.byte ≤ n.info.stop.byte)
    ⟨fun ⟨h₁, h₂, h₃⟩ => ⟨h₁, h₂, h₃⟩, fun h => ⟨h.start, h.stop, h.le⟩⟩

/-- Whether all nodes of a tree cover characters of a program. -/
def Node.IsTreeOver (root : Node) (source : String) : Prop :=
  ∀ a n, root.at? a = some n → n.Covers source

instance (root : Node) (source : String) : Decidable (root.IsTreeOver source) :=
  decidable_of_iff _ (Node.forall_at?_iff (p := fun n => n.Covers source)).symm

/-- A place counts the line breaks of the text before it, and the bytes of its line. -/
theorem Place.Marks.counts {p : Place} {before after : String} (h : p.Marks (before ++ after))
    (hByte : (Text.encode before).length = p.byte) :
    p.row = (Text.encode before).count Text.newline ∧
      p.column = Text.columnAfter (Text.encode before) := by
  have hTake : (Text.encode (before ++ after)).take p.byte = Text.encode before := by
    rw [Text.encode_append, List.take_left' hByte]
  rw [h.row, h.column, hTake]
  exact ⟨rfl, rfl⟩

end Syntax

open Syntax

/-- The program around a declaration: what is before it, its code, and what is after it. -/
theorem Symbol.DeclaredBy.exists_stretch {source : String} {n : Node} {s : Symbol}
    (h : s.DeclaredBy (Text.encode source) n) (hNode : n.Covers source) :
    ∃ before after, source = before ++ s.code ++ after ∧
      s.startLine.toNat = (Text.encode before).count Text.newline + 1 ∧
      s.endLine.toNat = (Text.encode (before ++ s.code)).count Text.newline + 1 ∧
      s.indent.toNat = Text.columnAfter (Text.encode before) := by
  obtain ⟨before, inside, after, rfl, hStart, hStop⟩ :=
    Text.exists_stretch hNode.start.between hNode.stop.between hNode.le
  have hCode : s.code = inside := by
    rw [h.code, Draft.textOf, ← hStart, ← hStop, Text.slice_stretch]
  have hFrom : n.info.start.Marks (before ++ (inside ++ after)) := by
    rw [← String.append_assoc]
    exact hNode.start
  obtain ⟨hStartRow, hColumn⟩ := hFrom.counts hStart
  obtain ⟨hStopRow, -⟩ := hNode.stop.counts hStop
  refine ⟨before, after, by rw [hCode], ?_, ?_, ?_⟩
  · rw [h.startLine, toNat_lineNumber hNode.start.line_lt, hStartRow]
  · rw [h.endLine, toNat_lineNumber hNode.stop.line_lt, hStopRow, hCode]
  · rw [h.indent, ← hColumn]
    exact UInt32.toNat_ofNat_of_lt hNode.start.column_lt

/-- Let all nodes of a tree cover characters of a program, with the rows and columns of these. Then
every symbol of the tree tells where its code is: skipping the lines before its first one and then
as many bytes as it is indented by leaves a text that begins with the code, and the code has a line
break for each of its lines but the last. -/
theorem symbolsOf_located (path : String) {source : String} {root : Node}
    (hTree : root.IsTreeOver source) :
    ∀ s ∈ symbolsOf path source root,
      (∃ left rest, Text.skipLines (s.startLine.toNat - 1) (Text.encode source) = some left ∧
        s.indent.toNat ≤ left.length ∧
        left.drop s.indent.toNat = Text.encode (s.code ++ rest)) ∧
      s.code.toList.count '\n' = s.endLine.toNat - s.startLine.toNat ∧
      1 ≤ s.startLine.toNat ∧ s.startLine.toNat ≤ s.endLine.toNat := by
  intro s hs
  obtain ⟨i, hi⟩ := List.mem_iff_getElem?.mp hs
  obtain ⟨a, n, -, hn, hBy⟩ := exists_declaredBy_of_getElem? hi
  obtain ⟨before, after, hSource, hFirst, hLast, hIndent⟩ := hBy.exists_stretch (hTree a n hn)
  have hLines : s.endLine.toNat = s.startLine.toNat + s.code.toList.count '\n' := by
    have hCode : (Text.encode s.code).count Text.newline = s.code.toList.count '\n' :=
      Text.count_newline_bytesOf s.code.toList
    rw [hLast, hFirst, Text.encode_append, List.count_append, hCode]
    omega
  refine ⟨?_, by omega, by omega, by omega⟩
  obtain ⟨left, hLeft, hLength, hRest⟩ :=
    Text.exists_skipLines (Text.encode before) (Text.encode (s.code ++ after))
  refine ⟨left, after, ?_, ?_, ?_⟩
  · rw [hFirst, Nat.add_sub_cancel, ← hLeft, ← Text.encode_append, ← String.append_assoc, hSource]
  · rw [hIndent]
    exact hLength
  · rw [hIndent, hRest]

/-- A program with characters of two bytes and with two kinds of line ends, the last line not
ended. -/
def mixedLines : String := "/*é*/ class A \x7b\r\n void ü() \x7b\r\n \x7d\n\x7d"

def mixedLinesTree : Node :=
  let node (kind : String) (isName : Bool) (start stop : Place) (children : List Node) : Node :=
    .mk ⟨kind, isName, start, stop, false, false, false⟩ children
  node "program" false ⟨0, 0, 0⟩ ⟨36, 3, 1⟩
    [node "block_comment" false ⟨0, 0, 0⟩ ⟨6, 0, 6⟩ [],
      node classKind false ⟨7, 0, 7⟩ ⟨36, 3, 1⟩
        [node "identifier" true ⟨13, 0, 13⟩ ⟨14, 0, 14⟩ [],
          node methodKind false ⟨19, 1, 1⟩ ⟨34, 2, 2⟩
            [node "identifier" true ⟨24, 1, 6⟩ ⟨26, 1, 8⟩ []]],
      node methodKind false ⟨36, 3, 1⟩ ⟨36, 3, 1⟩ []]

theorem symbolsOf_located_mixedLines :
    mixedLinesTree.IsTreeOver mixedLines ∧
      (symbolsOf "A.java" mixedLines mixedLinesTree).map
        (fun s => (s.name, s.startLine, s.endLine, s.indent)) =
          [("ü", 2, 3, 1), ("A", 1, 4, 7), ("", 4, 4, 1)] ∧
      ∀ s ∈ symbolsOf "A.java" mixedLines mixedLinesTree,
        (∃ left rest, Text.skipLines (s.startLine.toNat - 1) (Text.encode mixedLines) = some left ∧
          left.drop s.indent.toNat = Text.encode (s.code ++ rest)) ∧
        s.code.toList.count '\n' = s.endLine.toNat - s.startLine.toNat := by
  have hTree : mixedLinesTree.IsTreeOver mixedLines := by decide +kernel
  refine ⟨hTree, by decide +kernel, ?_⟩
  intro s hs
  obtain ⟨⟨left, rest, hLeft, -, hRest⟩, hBreaks, -, -⟩ := symbolsOf_located _ hTree s hs
  exact ⟨⟨left, rest, hLeft, hRest⟩, hBreaks⟩

end JavaOutline
