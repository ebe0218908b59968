import JavaOutline.Proofs.Doc.Layout

/-! Comments for lines that a program does not have. They gather after its last line, which is ended
first. Each is put in as a block, at a place that is counted in lines and not in comments. -/
namespace JavaOutline.Doc

namespace Insertion

/-- The number of the line above which a comment goes. Zero also means the first line. -/
def target (i : Insertion) : Nat := max i.line.toNat 1

theorem one_le_target (i : Insertion) : 1 ≤ i.target := le_max_right _ _

def height (i : Insertion) : Nat := (Text.trimChars i.text.toList).count '\n' + 1

/-- A comment for the first line under the number one. -/
def raised (i : Insertion) : Insertion := { i with line := if i.line = 0 then 1 else i.line }

theorem line_raised (i : Insertion) : i.raised.line.toNat = i.target := by
  rw [raised, target]
  by_cases hZero : i.line = 0
  · rw [if_pos hZero, hZero]
    rfl
  · rw [if_neg hZero]
    have hLine : i.line.toNat ≠ 0 := fun h => hZero (UInt32.toNat_inj.mp h)
    exact (max_eq_left (Nat.one_le_iff_ne_zero.mpr hLine)).symm

@[simp] theorem lines_raised (i : Insertion) : i.raised.lines = i.lines := rfl

theorem length_lines (i : Insertion) : i.lines.length = i.height := by
  rw [lines, blockLines, List.length_map, Text.length_splitLines, height]

end Insertion

def heights : List Insertion → Nat
  | [] => 0
  | i :: comments => i.height + heights comments

@[simp] theorem heights_nil : heights [] = 0 := rfl

@[simp] theorem heights_cons (i : Insertion) (comments : List Insertion) :
    heights (i :: comments) = i.height + heights comments := rfl

theorem length_flatMap_lines (comments : List Insertion) :
    (comments.flatMap Insertion.lines).length = heights comments := by
  induction comments with
  | nil => rfl
  | cons i comments ih =>
      rw [List.flatMap_cons, List.length_append, Insertion.length_lines, ih, heights_cons]

@[simp] theorem heights_append (first second : List Insertion) :
    heights (first ++ second) = heights first + heights second := by
  simp only [← length_flatMap_lines, List.flatMap_append, List.length_append]

/-- The order of comments does not matter for their height. -/
theorem heights_eq_of_perm {first second : List Insertion} (h : first.Perm second) :
    heights first = heights second := by
  rw [← length_flatMap_lines, ← length_flatMap_lines]
  exact (h.flatMap_right _).length_eq

def endText (cs : List Char) : List Char :=
  if cs = [] ∨ cs.getLast? = some '\n' then cs else cs ++ ['\n']

/-- Put lines in after the first `k` of the others, or after all of them if they are fewer. -/
def splice (k : Nat) (block lines : List (List Char)) : List (List Char) :=
  lines.take k ++ block ++ lines.drop k

/-- The lines after those of a program of `n` lines. -/
def tailLines (n : Nat) (comments : List Insertion) : List (List Char) :=
  comments.foldl (fun tail i => splice (i.target - 1 - n) i.lines tail) []

section EndLastLine

/-- Only the last line is ended. -/
theorem endLastLine_append (first : List (List Char)) {last : List (List Char)} (h : last ≠ []) :
    endLastLine (first ++ last) = first ++ endLastLine last := by
  obtain ⟨before, line, rfl⟩ := (List.eq_nil_or_concat' last).resolve_left h
  rw [endLastLine, endLastLine, ← List.append_assoc, List.getLast?_concat, List.getLast?_concat]
  dsimp only
  split_ifs with hEnded
  · rw [List.append_assoc]
  · rw [List.dropLast_concat, List.dropLast_concat, List.append_assoc]

theorem endLastLine_of_ended {lines : List (List Char)} (h : ∀ line ∈ lines, IsEnded line) :
    endLastLine lines = lines := by
  rw [endLastLine]
  cases hLast : lines.getLast? with
  | none => rfl
  | some line =>
      obtain ⟨text, -, rfl⟩ := h line (List.mem_of_getLast? hLast)
      exact if_pos List.getLast?_concat

@[simp] theorem length_endLastLine (lines : List (List Char)) :
    (endLastLine lines).length = lines.length := by
  rcases List.eq_nil_or_concat' lines with rfl | ⟨before, line, rfl⟩
  · rfl
  · rw [endLastLine_append before (by simp), List.length_append, List.length_append, endLastLine]
    simp only [List.getLast?_singleton]
    split_ifs <;> rfl

theorem getLast?_append_newline_cons (line : List Char) {rest : List Char} (h : rest ≠ []) :
    (line ++ '\n' :: rest).getLast? = rest.getLast? := by
  rw [List.getLast?_append_of_ne_nil _ (by simp), List.getLast?_cons_of_ne_nil h]

/-- To end the last line of a text is to end the last of its lines. -/
theorem endLastLine_pieces (cs : List Char) :
    endLastLine (Text.pieces cs) = Text.pieces (endText cs) := by
  induction cs using Text.lines_induct with
  | nil => rfl
  | last line hLine h =>
      have hOpen : line.getLast? ≠ some '\n' := fun hLast => h (List.mem_of_getLast? hLast)
      rw [endText, if_neg (by simp [hLine, hOpen]), Text.pieces_ended h, Text.pieces_last hLine h,
        endLastLine]
      simp [hOpen, Text.pieces]
  | ended line rest h ih =>
      by_cases hRest : rest = []
      · subst hRest
        rw [endText, if_pos (.inr (by simp)), Text.pieces_ended h, endLastLine]
        simp [Text.pieces]
      · have hEnd : endText (line ++ '\n' :: rest) = line ++ '\n' :: endText rest := by
          rw [endText, endText, getLast?_append_newline_cons line hRest]
          simp only [List.append_eq_nil_iff, reduceCtorEq, and_false, hRest, false_or]
          split_ifs <;> simp
        have hPieces : Text.pieces rest ≠ [] := by
          intro hNone
          apply hRest
          rw [← Text.flatten_pieces rest, hNone]
          rfl
        rw [hEnd, Text.pieces_ended h, Text.pieces_ended h, ← ih, ← List.singleton_append,
          endLastLine_append _ hPieces, List.singleton_append]

/-- A text with its last line ended is empty or ends in a line break. -/
theorem endText_ended (cs : List Char) : endText cs = [] ∨ (endText cs).getLast? = some '\n' := by
  rw [endText]
  split_ifs with hEnded
  · exact hEnded
  · exact .inr List.getLast?_concat

/-- In a text that is ended, every line is. -/
theorem ended_of_mem_pieces {cs : List Char} (h : cs = [] ∨ cs.getLast? = some '\n') :
    ∀ line ∈ Text.pieces cs, IsEnded line := by
  induction cs using Text.lines_induct with
  | nil => simp [Text.pieces]
  | last line hLine hOpen =>
      exact (hOpen (List.mem_of_getLast? (h.resolve_left hLine))).elim
  | ended line rest hLine ih =>
      have hRest : rest = [] ∨ rest.getLast? = some '\n' := by
        by_cases hNone : rest = []
        · exact .inl hNone
        · exact .inr (getLast?_append_newline_cons line hNone ▸ h.resolve_left (by simp))
      rw [Text.pieces_ended hLine]
      exact List.forall_mem_cons.mpr ⟨⟨line, hLine, rfl⟩, ih hRest⟩

end EndLastLine

section Splice

/-- Lines that are put in far enough leave the beginning as it is. -/
theorem splice_append (first : List (List Char)) {k : Nat} (hk : first.length ≤ k)
    (block second : List (List Char)) :
    splice k block (first ++ second) = first ++ splice (k - first.length) block second := by
  rw [splice, splice, List.take_append, List.drop_append, List.take_of_length_le hk,
    List.drop_of_length_le hk]
  simp only [List.append_assoc, List.nil_append]

/-- Putting lines in loses no line. -/
theorem perm_splice (k : Nat) (block lines : List (List Char)) :
    (splice k block lines).Perm (lines ++ block) := by
  have hSplit : (lines.take k ++ (block ++ lines.drop k)).Perm
      (lines.take k ++ (lines.drop k ++ block)) := List.perm_append_comm.append_left _
  rwa [← List.append_assoc, ← List.append_assoc, List.take_append_drop] at hSplit

/-- A comment is put in as a block, after its line number less one lines or at the end. -/
theorem insertOne_eq_splice (lines : List (List Char)) (i : Insertion) :
    insertOne lines i = splice (i.target - 1) i.lines
      (if lines.length < i.target then endLastLine lines else lines) := by
  have hTarget : i.line.toNat - 1 = i.target - 1 := by
    rw [Insertion.target]
    omega
  rw [insertOne, hTarget]
  by_cases hEnd : lines.length < i.target
  · have hIndex : min (i.target - 1) lines.length = lines.length := by omega
    have hLength := length_endLastLine lines
    rw [hIndex, if_pos rfl, if_pos hEnd, splice, List.take_of_length_le hLength.le,
      List.take_of_length_le (by omega), List.drop_of_length_le hLength.le,
      List.drop_of_length_le (by omega)]
    rfl
  · have hIndex : min (i.target - 1) lines.length = i.target - 1 := by omega
    have hPositive := i.one_le_target
    rw [hIndex, if_neg (by omega), if_neg hEnd]
    rfl

/-- A comment for line zero goes where one for line one goes. -/
theorem insertOne_raised (lines : List (List Char)) (i : Insertion) :
    insertOne lines i.raised = insertOne lines i := by
  have hTarget : i.raised.target = i.target := by
    have hLine := i.line_raised
    have hPositive := i.one_le_target
    rw [Insertion.target, hLine]
    omega
  rw [insertOne_eq_splice, insertOne_eq_splice, hTarget, Insertion.lines_raised]

end Splice

section Tail

variable {n : Nat}

/-- The comment put in last goes to its place among the lines after the program, as far as there are
any. -/
theorem tailLines_concat (comments : List Insertion) (i : Insertion) :
    tailLines n (comments ++ [i]) = splice (i.target - 1 - n) i.lines (tailLines n comments) := by
  rw [tailLines, List.foldl_concat]
  rfl

/-- The comments after the last line are all there, each line once. -/
theorem perm_tailLines (comments : List Insertion) :
    (tailLines n comments).Perm (comments.flatMap Insertion.lines) := by
  induction comments using List.reverseRecOn with
  | nil => rfl
  | append_singleton comments i ih =>
      rw [tailLines_concat, List.flatMap_append, List.flatMap_singleton]
      exact (perm_splice _ _ _).trans (ih.append_right _)

/-- The lines after the program are ended, since those of a block are. -/
theorem ended_of_mem_tailLines (comments : List Insertion) :
    ∀ line ∈ tailLines n comments, IsEnded line := by
  intro line hLine
  obtain ⟨i, -, hMem⟩ := List.mem_flatMap.mp ((perm_tailLines comments).mem_iff.mp hLine)
  exact Insertion.mem_lines hMem

/-- A comment takes at least one line. -/
theorem tailLines_ne_nil {comments : List Insertion} (h : comments ≠ []) :
    tailLines n comments ≠ [] := by
  intro hNone
  have hLength := (perm_tailLines (n := n) comments).length_eq
  obtain ⟨i, hi⟩ := List.exists_mem_of_ne_nil comments h
  obtain ⟨before, after, rfl⟩ := List.append_of_mem hi
  rw [hNone, length_flatMap_lines, heights_append, heights_cons, Insertion.height] at hLength
  simp only [List.length_nil] at hLength
  omega

/-- A run over comments for which the program has no line: they gather after its last line, which
is ended first. -/
theorem foldl_insertOne_past (lines : List (List Char)) {comments : List Insertion}
    (hPast : ∀ i ∈ comments, lines.length < i.target) (hSome : comments ≠ []) :
    comments.foldl insertOne lines =
      endLastLine lines ++ tailLines lines.length comments := by
  induction comments using List.reverseRecOn with
  | nil => exact (hSome rfl).elim
  | append_singleton comments i ih =>
      have hTarget := hPast i (by simp)
      have hPlace : (endLastLine lines).length ≤ i.target - 1 := by
        rw [length_endLastLine]
        omega
      rw [List.foldl_concat, tailLines_concat, insertOne_eq_splice]
      by_cases hFirst : comments = []
      · subst hFirst
        have hSplice := splice_append (endLastLine lines) hPlace i.lines []
        rw [List.append_nil, length_endLastLine] at hSplice
        rw [List.foldl_nil, if_pos hTarget, hSplice]
        rfl
      · -- Some comments are there, so the last line is one of theirs and is ended.
        have hNotNil := tailLines_ne_nil (n := lines.length) hFirst
        have hEnded : endLastLine (endLastLine lines ++ tailLines lines.length comments) =
            endLastLine lines ++ tailLines lines.length comments := by
          rw [endLastLine_append _ hNotNil, endLastLine_of_ended (ended_of_mem_tailLines comments)]
        rw [ih (fun j hj => hPast j (by simp [hj])) hFirst, hEnded, ite_self,
          splice_append _ hPlace, length_endLastLine]

/-- Comments for the line right after the last one all go in front of those that are there. -/
theorem tailLines_of_target_eq {n : Nat} {comments : List Insertion}
    (h : ∀ i ∈ comments, i.target = n + 1) :
    tailLines n comments = comments.reverse.flatMap Insertion.lines := by
  induction comments using List.reverseRecOn with
  | nil => rfl
  | append_singleton comments i ih =>
      have hFront : i.target - 1 - n = 0 := by
        rw [h i (by simp)]
        omega
      rw [tailLines_concat, ih fun j hj => h j (by simp [hj]), hFront, splice,
        List.reverse_append, List.reverse_singleton, List.singleton_append, List.flatMap_cons]
      rfl

end Tail

end JavaOutline.Doc
