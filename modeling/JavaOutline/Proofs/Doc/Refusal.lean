import JavaOutline.Doc.Render
import JavaOutline.Proofs.Syntax.Mistake

/-! Commented programs that are refused. What is put into a program must leave it free of mistakes,
and a refusal names the lines of those it has. -/
namespace JavaOutline.Doc

open Syntax

/-- A commented program is refused with the lines of its mistakes if its tree is flagged. -/
theorem render_eq {source : String} {insertions : List Insertion} {root : Node}
    (hTree : parseSource "<source>" (insert source insertions) = .ok root) :
    render source insertions =
      if root.hasMistakes then .error (.syntaxErrors root.errorLines)
      else .ok (insert source insertions) := by
  rw [render, checkSyntax, hTree]
  rfl

/-- Let each node of a tree be flagged exactly if it is a mistake or has one below it. Then the
lines reported for the tree are, in ascending order and each once, the lines of all its mistakes,
wherever they are, and the tree is flagged exactly if there is such a line. So a commented program
with this tree is refused exactly if there is one, and with these lines, never with none. -/
theorem errorLines_eq_mistakes {root : Node} (hFlags : root.FlagsMistakes) :
    root.errorLines.Pairwise (· < ·) ∧
    (∀ line, line ∈ root.errorLines ↔
      ∃ a n, root.at? a = some n ∧ n.isMistake = true ∧ line = lineNumber n.info.start.row) ∧
    ((∀ a n, root.at? a = some n → n.isMistake = true → n.info.start.row + 1 < UInt32.size) →
      ∀ line, line ∈ root.errorLines.map UInt32.toNat ↔
        ∃ a n, root.at? a = some n ∧ n.isMistake = true ∧ line = n.info.start.row + 1) ∧
    (root.hasMistakes = true ↔ root.errorLines ≠ []) ∧
    ∀ source insertions, parseSource "<source>" (insert source insertions) = .ok root →
      render source insertions =
          (if root.errorLines = [] then .ok (insert source insertions)
          else .error (.syntaxErrors root.errorLines)) ∧
        render source insertions ≠ .error (.syntaxErrors []) := by
  have hReported := hFlags.flagsOutside.hasMistakes_iff_errorLines
  refine ⟨root.pairwise_errorLines, fun line => hFlags.mem_errorLines_iff,
    fun hFits line => hFlags.mem_map_toNat_errorLines_iff hFits, hReported, ?_⟩
  intro source insertions hTree
  rw [render_eq hTree]
  by_cases hNone : root.errorLines = []
  · have hSound : ¬ root.hasMistakes = true := fun h => hReported.mp h hNone
    rw [if_neg hSound, if_pos hNone]
    exact ⟨rfl, nofun⟩
  · rw [if_pos (hReported.mpr hNone), if_neg hNone]
    refine ⟨rfl, ?_⟩
    intro hEmpty
    rw [Except.error.injEq, Error.syntaxErrors.injEq] at hEmpty
    exact hNone hEmpty

/-- A tree whose root is a mistake, with a mistake in it that contains nothing but sound nodes, and
with a missing token beside sound nodes. -/
def brokenTree : Node :=
  let sound (kind : String) (start stop : Place) : Node :=
    .mk ⟨kind, false, start, stop, false, false, false⟩ []
  .mk ⟨"ERROR", false, ⟨0, 0, 0⟩, ⟨19, 3, 1⟩, true, false, true⟩
    [sound "(" ⟨6, 0, 6⟩ ⟨7, 0, 7⟩,
      .mk ⟨"ERROR", false, ⟨8, 1, 0⟩, ⟨9, 1, 1⟩, true, false, true⟩
        [sound "[" ⟨8, 1, 0⟩ ⟨9, 1, 1⟩],
      .mk ⟨"field_declaration", false, ⟨16, 2, 0⟩, ⟨19, 3, 1⟩, false, false, true⟩
        [sound "identifier" ⟨16, 2, 0⟩ ⟨17, 2, 1⟩,
          sound "identifier" ⟨18, 3, 0⟩ ⟨19, 3, 1⟩,
          .mk ⟨";", false, ⟨19, 3, 1⟩, ⟨19, 3, 1⟩, false, true, true⟩ []]]

theorem errorLines_eq_mistakes_brokenTree :
    brokenTree.FlagsMistakes ∧ brokenTree.hasMistakes = true ∧
      brokenTree.errorLines = [1, 2, 4] ∧
      (∀ line, line ∈ brokenTree.errorLines ↔
        ∃ a n, brokenTree.at? a = some n ∧ n.isMistake = true ∧
          line = lineNumber n.info.start.row) ∧
      ∀ source insertions, parseSource "<source>" (insert source insertions) = .ok brokenTree →
        render source insertions = .error (.syntaxErrors [1, 2, 4]) := by
  have hFlags : brokenTree.FlagsMistakes := by decide +kernel
  have hFound : brokenTree.mistakeLines = [1, 2, 4] := by
    simp [brokenTree, Node.mistakeLines, Node.mistakeLinesOf, lineNumber]
  have hLines : brokenTree.errorLines = [1, 2, 4] := by
    rw [Node.errorLines, hFound, List.mergeSort_of_pairwise (by decide)]
    rfl
  obtain ⟨-, hMistakes, -, hReported, hRefused⟩ := errorLines_eq_mistakes hFlags
  refine ⟨hFlags, rfl, hLines, hMistakes, ?_⟩
  intro source insertions hTree
  obtain ⟨hRender, -⟩ := hRefused source insertions hTree
  rw [hRender, hLines, if_neg (List.cons_ne_nil _ _)]

end JavaOutline.Doc
