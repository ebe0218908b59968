import JavaOutline.Proofs.Doc.Tail

/-! Where all comments go. The comments for lines that the program has stand above their lines; all
others gather after its last line. As later lines come first, the comments after the last line are
in place before any line of the program moves. -/
namespace JavaOutline.Doc

/-- A line of a program, or a whole comment. -/
inductive Part where
  | line (text : List Char)
  | comment (i : Insertion)
  deriving DecidableEq, Repr

namespace Part

def lines : Part → List (List Char)
  | line text => [text]
  | comment i => i.lines

def line? : Part → Option (List Char)
  | line text => some text
  | comment _ => none

def comment? : Part → Option Insertion
  | line _ => none
  | comment i => some i

@[simp] theorem flatMap_lines_comment (comments : List Insertion) :
    (comments.map comment).flatMap lines = comments.flatMap Insertion.lines := by
  rw [List.flatMap_map]
  rfl

@[simp] theorem filterMap_line?_comment (comments : List Insertion) :
    (comments.map comment).filterMap line? = [] := by
  rw [List.filterMap_map, List.filterMap_eq_nil_iff]
  exact fun _ _ => rfl

@[simp] theorem filterMap_comment?_comment (comments : List Insertion) :
    (comments.map comment).filterMap comment? = comments := by
  rw [List.filterMap_map]
  exact List.filterMap_some

end Part

/-- The comments that go right above a line. Of several comments for a line the one that was given
last comes first, and those for line zero come before all for line one. -/
def commentsBefore (insertions : List Insertion) (n : Nat) : List Insertion :=
  (if n = 1 then insertions.reverse.filter fun i => i.line.toNat == 0 else []) ++
    insertions.reverse.filter fun i => i.line.toNat == n

/-- The lines of a program, each after the comments for it, where the first line has the given
number. -/
def partsFrom (insertions : List Insertion) : Nat → List (List Char) → List Part
  | _, [] => []
  | n, line :: rest =>
      (commentsBefore insertions n).map .comment ++ .line line :: partsFrom insertions (n + 1) rest

/-- The comments for which a program of `n` lines has no line, in the order in which they are put
in. -/
def pastEnd (n : Nat) (insertions : List Insertion) : List Insertion :=
  (laterFirst insertions).filter fun i => n < i.target

/-- The comments for lines that a program of `n` lines has, in the order in which they are put
in. -/
def inside (n : Nat) (insertions : List Insertion) : List Insertion :=
  (laterFirst insertions).filter fun i => !decide (n < i.target)

/-- The text of which the lines are kept: if comments go after its last line, that line is ended. -/
def keptText (source : String) (insertions : List Insertion) : List Char :=
  if ∃ i ∈ insertions, (Text.pieces source.toList).length < i.target then endText source.toList
  else source.toList

/-- The lines of a program, each after the comments for it, and then the comments for the line after
the last. -/
def arrangement (source : String) (insertions : List Insertion) : List Part :=
  partsFrom insertions 1 (Text.pieces (keptText source insertions)) ++
    (commentsBefore insertions ((Text.pieces source.toList).length + 1)).map .comment

section Order

variable (insertions : List Insertion)

/-- Where all that pass a test come first, a list falls into those and the others. -/
theorem filter_append_filter_not {α : Type} {p : α → Bool} {l : List α}
    (h : l.Pairwise fun a b => p b = true → p a = true) :
    l.filter p ++ l.filter (fun a => !p a) = l := by
  induction l with
  | nil => rfl
  | cons a l ih =>
      obtain ⟨hFirst, hRest⟩ := List.pairwise_cons.mp h
      cases ha : p a with
      | true =>
          rw [List.filter_cons_of_pos ha, List.filter_cons_of_neg (by simp [ha]), List.cons_append,
            ih hRest]
      | false =>
          have hNone (b : α) (hb : b ∈ l) : p b = false := by
            rw [Bool.eq_false_iff]
            exact fun hPasses => Bool.eq_false_iff.mp ha (hFirst b hb hPasses)
          rw [List.filter_cons_of_neg (by simp [ha]), List.filter_cons_of_pos (by simp [ha]),
            List.filter_eq_nil_iff.mpr fun b hb => by simp [hNone b hb],
            List.filter_eq_self.mpr fun b hb => by simp [hNone b hb], List.nil_append]

/-- The comments that a program has no line for are put in before all others. -/
theorem laterFirst_eq_append (n : Nat) :
    laterFirst insertions = pastEnd n insertions ++ inside n insertions := by
  have hSorted : (laterFirst insertions).Pairwise
      fun a b => decide (n < b.target) = true → decide (n < a.target) = true := by
    refine (pairwise_laterFirst insertions).imp fun {a b} hLine hPast => ?_
    rw [decide_eq_true_eq, Insertion.target] at hPast ⊢
    omega
  exact (filter_append_filter_not hSorted).symm

/-- A comment goes past the end if its line is after the last one. -/
theorem mem_pastEnd {n : Nat} {i : Insertion} :
    i ∈ pastEnd n insertions ↔ i ∈ insertions ∧ n < i.target := by
  rw [pastEnd, List.mem_filter, laterFirst, List.mem_mergeSort, decide_eq_true_eq]

/-- Each comment for a line after the last one is put in once. -/
theorem perm_pastEnd (n : Nat) :
    (pastEnd n insertions).Perm (insertions.filter fun i => n < i.target) :=
  (List.mergeSort_perm insertions _).filter _

/-- For the first line, comments under the number one are put in before those under zero. -/
theorem filter_laterFirst_one :
    ((laterFirst insertions).filter fun i => i.target == 1) =
      (insertions.filter fun i => i.line.toNat == 1) ++
        insertions.filter fun i => i.line.toNat == 0 := by
  have hSorted : ((laterFirst insertions).filter fun i => i.target == 1).Pairwise
      fun a b => (b.line.toNat == 1) = true → (a.line.toNat == 1) = true := by
    refine List.Pairwise.imp_of_mem ?_ ((pairwise_laterFirst insertions).filter _)
    intro a b ha _ hLine hOne
    have hTarget := (List.mem_filter.mp ha).2
    simp only [beq_iff_eq, Insertion.target] at hOne hTarget ⊢
    omega
  rw [← filter_append_filter_not hSorted, List.filter_filter, List.filter_filter,
    ← filter_laterFirst insertions 1, ← filter_laterFirst insertions 0]
  congr 1
  · refine List.filter_congr fun i _ => ?_
    rw [Bool.eq_iff_iff, Bool.and_eq_true, beq_iff_eq, beq_iff_eq, Insertion.target]
    omega
  · refine List.filter_congr fun i _ => ?_
    rw [Bool.eq_iff_iff, Bool.and_eq_true, Bool.not_eq_true', beq_eq_false_iff_ne, beq_iff_eq,
      beq_iff_eq, Insertion.target]
    omega

/-- The comments with one target are put in in the reverse of the order in which they stand. -/
theorem reverse_filter_laterFirst {n : Nat} (hn : 1 ≤ n) :
    ((laterFirst insertions).filter fun i => i.target == n).reverse =
      commentsBefore insertions n := by
  rw [commentsBefore, List.filter_reverse, List.filter_reverse]
  by_cases hOne : n = 1
  · rw [if_pos hOne, hOne, filter_laterFirst_one, List.reverse_append]
  · rw [if_neg hOne, List.nil_append, ← filter_laterFirst insertions n]
    congr 1
    refine List.filter_congr fun i _ => ?_
    rw [Bool.eq_iff_iff, beq_iff_eq, beq_iff_eq, Insertion.target]
    omega

end Order

section Parts

variable (insertions : List Insertion)

/-- The lines above a line of the program are those of the comments for it, whichever other comments
there are. -/
theorem linesAbove_inside {n m : Nat} (hFirst : 1 ≤ m) (hLast : m ≤ n) :
    linesAbove ((inside n insertions).map .raised) m =
      (commentsBefore insertions m).flatMap Insertion.lines := by
  have hFilter : ((inside n insertions).filter fun i => i.raised.line.toNat == m) =
      (laterFirst insertions).filter fun i => i.target == m := by
    rw [inside, List.filter_filter]
    refine List.filter_congr fun i _ => ?_
    rw [Insertion.line_raised, Bool.eq_iff_iff, Bool.and_eq_true, Bool.not_eq_true',
      decide_eq_false_iff_not, beq_iff_eq]
    omega
  rw [linesAbove, ← List.map_reverse, List.filter_map, List.flatMap_map, ← reverse_filter_laterFirst
    insertions hFirst, ← hFilter, List.filter_reverse]
  rfl

/-- Of the comments for lines that there are, the layout and the parts have the same lines. -/
theorem map_text_layoutFrom_inside {n m : Nat} (hFirst : 1 ≤ m) {lines : List (List Char)}
    (hLast : m + lines.length ≤ n + 1) :
    (layoutFrom ((inside n insertions).map .raised) m lines).map Line.text =
      (partsFrom insertions m lines).flatMap Part.lines := by
  induction lines generalizing m with
  | nil => rfl
  | cons line lines ih =>
      rw [List.length_cons] at hLast
      rw [layoutFrom, partsFrom, linesAbove_inside insertions hFirst (by omega), List.map_append,
        List.flatMap_append, Line.map_text_inserted, Part.flatMap_lines_comment, List.map_cons,
        ih (by omega) (by omega)]
      rfl

/-- A run over comments for lines of the program: they go above their lines, whatever comes after
the program. -/
theorem foldl_insertOne_inside {n : Nat} {lines : List (List Char)} (hn : lines.length = n)
    (tail : List (List Char)) :
    (inside n insertions).foldl insertOne (lines ++ tail) =
      (partsFrom insertions 1 lines).flatMap Part.lines ++ tail := by
  have hTarget : ∀ i ∈ (inside n insertions).map Insertion.raised,
      1 ≤ i.line.toNat ∧ i.line.toNat ≤ n := by
    intro i hi
    obtain ⟨j, hj, rfl⟩ := List.mem_map.mp hi
    have hInside := (List.mem_filter.mp hj).2
    have hPositive := j.one_le_target
    rw [Bool.not_eq_true', decide_eq_false_iff_not] at hInside
    rw [Insertion.line_raised]
    omega
  have hSorted : ((inside n insertions).map Insertion.raised).Pairwise
      fun a b => b.line.toNat ≤ a.line.toNat := by
    rw [List.pairwise_map]
    refine ((pairwise_laterFirst insertions).filter _).imp fun {a b} hLine => ?_
    rw [Insertion.line_raised, Insertion.line_raised, Insertion.target, Insertion.target]
    omega
  have hRun := @foldl_insertOne_layout [] (lines ++ tail) ((inside n insertions).map .raised)
    (fun i hi => by
      have := hTarget i hi
      rw [List.length_append]
      omega)
    hSorted
  -- No comment is for a line after those of the program.
  have hNone (m : Nat) (hm : 1 + lines.length ≤ m) :
      linesAbove ((inside n insertions).map .raised) m = linesAbove [] m :=
    linesAbove_eq_nil fun i hi => by
      have := hTarget i hi
      omega
  have hTail : layoutFrom ((inside n insertions).map .raised) (1 + lines.length) tail =
      tail.map .kept := by
    rw [layoutFrom_congr fun m hm _ => hNone m hm]
    exact layoutFrom_eq_kept (by simp)
  rw [layoutFrom_eq_kept (by simp), Line.map_text_kept, List.nil_append, layoutFrom_append, hTail,
    List.map_append, Line.map_text_kept,
    map_text_layoutFrom_inside insertions le_rfl (by omega), List.foldl_map] at hRun
  simpa only [insertOne_raised] using hRun

end Parts

section Insert

variable (source : String) (insertions : List Insertion)

theorem pastEnd_eq_nil_iff {n : Nat} :
    pastEnd n insertions = [] ↔ ¬∃ i ∈ insertions, n < i.target := by
  rw [List.eq_nil_iff_forall_not_mem]
  simp only [mem_pastEnd, not_exists]

/-- Ending the last line makes no new line. -/
@[simp] theorem length_pieces_keptText :
    (Text.pieces (keptText source insertions)).length = (Text.pieces source.toList).length := by
  rw [keptText]
  split_ifs
  · rw [← endLastLine_pieces, length_endLastLine]
  · rfl

/-- The whole run: the lines of the program, each after its comments, then all other comments. -/
theorem foldl_insertOne_laterFirst {n : Nat} (hn : (Text.pieces source.toList).length = n) :
    (laterFirst insertions).foldl insertOne (Text.pieces source.toList) =
      (partsFrom insertions 1 (Text.pieces (keptText source insertions))).flatMap Part.lines ++
        tailLines n (pastEnd n insertions) := by
  have hKept : (Text.pieces (keptText source insertions)).length = n := by simp [hn]
  have hPast : (pastEnd n insertions).foldl insertOne (Text.pieces source.toList) =
      Text.pieces (keptText source insertions) ++ tailLines n (pastEnd n insertions) := by
    by_cases hNone : pastEnd n insertions = []
    · rw [keptText, hn, if_neg ((pastEnd_eq_nil_iff insertions).mp hNone), hNone]
      exact (List.append_nil _).symm
    · have hSome : ∃ i ∈ insertions, n < i.target :=
        not_not.mp fun h => hNone ((pastEnd_eq_nil_iff insertions).mpr h)
      have hAll : ∀ i ∈ pastEnd n insertions, (Text.pieces source.toList).length < i.target :=
        fun i hi => hn ▸ ((mem_pastEnd insertions).mp hi).2
      rw [foldl_insertOne_past _ hAll hNone, endLastLine_pieces, keptText, hn, if_pos hSome]
  rw [laterFirst_eq_append insertions n, List.foldl_append, hPast]
  exact foldl_insertOne_inside insertions hKept _

/-- A program with comments is made of its lines after their comments, and of the comments past its
end. -/
theorem toList_insert_eq {n : Nat} (hn : (Text.pieces source.toList).length = n) :
    (insert source insertions).toList =
      ((partsFrom insertions 1 (Text.pieces (keptText source insertions))).flatMap Part.lines ++
        tailLines n (pastEnd n insertions)).flatten := by
  rw [insert, String.toList_ofList, foldl_insertOne_laterFirst source insertions hn]

/-- All lines of the parts are ended if those of the program are. -/
theorem ended_of_mem_partsFrom {n : Nat} {lines : List (List Char)}
    (h : ∀ line ∈ lines, IsEnded line) :
    ∀ line ∈ (partsFrom insertions n lines).flatMap Part.lines, IsEnded line := by
  induction lines generalizing n with
  | nil => simp [partsFrom]
  | cons line lines ih =>
      obtain ⟨hFirst, hRest⟩ := List.forall_mem_cons.mp h
      intro other hOther
      rw [partsFrom, List.flatMap_append, Part.flatMap_lines_comment, List.flatMap_cons,
        List.mem_append, List.mem_append] at hOther
      rcases hOther with hComment | hLine | hOther
      · obtain ⟨i, -, hMem⟩ := List.mem_flatMap.mp hComment
        exact Insertion.mem_lines hMem
      · rw [List.mem_singleton.mp hLine]
        exact hFirst
      · exact ih hRest other hOther

/-- The lines of a program with comments in it. -/
theorem pieces_insert_eq {n : Nat} (hn : (Text.pieces source.toList).length = n) :
    Text.pieces (insert source insertions).toList =
      (partsFrom insertions 1 (Text.pieces (keptText source insertions))).flatMap Part.lines ++
        tailLines n (pastEnd n insertions) := by
  have hKept : (Text.pieces (keptText source insertions)).length = n := by simp [hn]
  rw [toList_insert_eq source insertions hn]
  by_cases hNone : pastEnd n insertions = []
  · have hLayout : (layoutFrom ((inside n insertions).map .raised) 1
        (Text.pieces (keptText source insertions))).map Line.text = _ :=
      map_text_layoutFrom_inside insertions le_rfl (by omega)
    rw [hNone, tailLines, List.foldl_nil, List.append_nil, ← hLayout]
    exact pieces_layoutFrom _ 1 _
  · -- With comments after the last line, every line is ended.
    have hSome := not_not.mp fun h => hNone ((pastEnd_eq_nil_iff insertions).mpr h)
    have hLines : ∀ line ∈ Text.pieces (keptText source insertions), IsEnded line := by
      rw [keptText, hn, if_pos hSome]
      exact ended_of_mem_pieces (endText_ended _)
    have hAll : ∀ line ∈ (partsFrom insertions 1
        (Text.pieces (keptText source insertions))).flatMap Part.lines ++
          tailLines n (pastEnd n insertions), IsEnded line := by
      intro line hLine
      rcases List.mem_append.mp hLine with hPart | hTail
      · exact ended_of_mem_partsFrom insertions hLines line hPart
      · exact ended_of_mem_tailLines _ line hTail
    simpa [Text.pieces] using pieces_flatten_append [] hAll

end Insert

section Landing

variable (insertions : List Insertion)

theorem partsFrom_append (n : Nat) (first second : List (List Char)) :
    partsFrom insertions n (first ++ second) =
      partsFrom insertions n first ++ partsFrom insertions (n + first.length) second := by
  induction first generalizing n with
  | nil => rfl
  | cons line first ih =>
      rw [List.cons_append, partsFrom, partsFrom, ih, List.length_cons, List.append_assoc,
        List.cons_append, Nat.add_right_comm, Nat.add_assoc]

/-- The lines of the program stay as they are and in their order. -/
theorem filterMap_line?_partsFrom (n : Nat) (lines : List (List Char)) :
    (partsFrom insertions n lines).filterMap Part.line? = lines := by
  induction lines generalizing n with
  | nil => rfl
  | cons line lines ih =>
      have hLine : Part.line? (.line line) = some line := rfl
      rw [partsFrom, List.filterMap_append, Part.filterMap_line?_comment, List.nil_append,
        List.filterMap_cons_some hLine, ih]

/-- The comments add as many lines as they are high. -/
theorem length_flatMap_partsFrom (n : Nat) (lines : List (List Char)) :
    ((partsFrom insertions n lines).flatMap Part.lines).length =
      lines.length + heights ((partsFrom insertions n lines).filterMap Part.comment?) := by
  induction lines generalizing n with
  | nil => rfl
  | cons line lines ih =>
      rw [partsFrom, List.flatMap_append, List.flatMap_cons, List.length_append, List.length_append,
        Part.flatMap_lines_comment, length_flatMap_lines, ih, List.filterMap_append,
        Part.filterMap_comment?_comment, List.filterMap_cons_none rfl, heights_append]
      simp only [Part.lines, List.length_cons, List.length_nil]
      omega

/-- The comments above a line are all those for it. -/
theorem perm_commentsBefore {n : Nat} (hn : 1 ≤ n) :
    (commentsBefore insertions n).Perm (insertions.filter fun i => i.target == n) := by
  rw [← reverse_filter_laterFirst insertions hn]
  exact (List.reverse_perm _).trans ((List.mergeSort_perm insertions _).filter _)

/-- The comments above some lines are those for these lines. -/
theorem perm_filterMap_comment?_partsFrom {n : Nat} (hn : 1 ≤ n) (lines : List (List Char)) :
    ((partsFrom insertions n lines).filterMap Part.comment?).Perm
      (insertions.filter fun i => n ≤ i.target ∧ i.target < n + lines.length) := by
  induction lines generalizing n with
  | nil =>
      have hNone : (insertions.filter fun i => n ≤ i.target ∧ i.target < n + 0) = [] := by
        refine List.filter_eq_nil_iff.mpr fun i _ => ?_
        rw [decide_eq_true_eq]
        omega
      exact hNone ▸ .nil
  | cons line lines ih =>
      rw [partsFrom, List.filterMap_append, Part.filterMap_comment?_comment,
        List.filterMap_cons_none rfl]
      refine ((perm_commentsBefore insertions hn).append (ih (by omega))).trans ?_
      have hSplit := List.filter_append_perm (fun i : Insertion => i.target == n)
        (insertions.filter fun i => n ≤ i.target ∧ i.target < n + (line :: lines).length)
      rw [List.filter_filter, List.filter_filter] at hSplit
      refine List.Perm.trans (.of_eq ?_) hSplit
      congr 1
      · refine List.filter_congr fun i _ => ?_
        rw [Bool.eq_iff_iff, Bool.and_eq_true, beq_iff_eq, decide_eq_true_eq, List.length_cons]
        omega
      · refine List.filter_congr fun i _ => ?_
        rw [Bool.eq_iff_iff, Bool.and_eq_true, Bool.not_eq_true', beq_eq_false_iff_ne,
          decide_eq_true_eq, decide_eq_true_eq, List.length_cons]
        omega

/-- A line of the program moves down by the height of all comments for it and for earlier lines. -/
theorem getElem?_flatMap_partsFrom {lines : List (List Char)} {k : Nat} {line : List Char}
    (h : lines[k]? = some line) :
    ((partsFrom insertions 1 lines).flatMap Part.lines)[k +
      heights (insertions.filter fun i => i.target ≤ k + 1)]? = some line := by
  obtain ⟨hk, rfl⟩ := List.getElem?_eq_some_iff.mp h
  have hTake : lines.take (k + 1) = lines.take k ++ [lines[k]] :=
    List.take_succ_eq_append_getElem hk
  have hLength : (lines.take (k + 1)).length = k + 1 := List.length_take_of_le hk
  -- Up to the line itself there are `k + 1` lines of the program and the comments for them.
  have hUpTo := length_flatMap_partsFrom insertions 1 (lines.take (k + 1))
  have hPerm := perm_filterMap_comment?_partsFrom insertions le_rfl (lines.take (k + 1))
  have hComments : (insertions.filter fun i => 1 ≤ i.target ∧ i.target < 1 + (k + 1)) =
      insertions.filter fun i => i.target ≤ k + 1 := by
    refine List.filter_congr fun i _ => ?_
    have hPositive := i.one_le_target
    rw [Bool.eq_iff_iff, decide_eq_true_eq, decide_eq_true_eq]
    omega
  rw [hLength, hComments] at hPerm
  rw [hLength, heights_eq_of_perm hPerm] at hUpTo
  obtain ⟨before, hBefore⟩ : ∃ before,
      (partsFrom insertions 1 (lines.take (k + 1))).flatMap Part.lines = before ++ [lines[k]] := by
    rw [hTake, partsFrom_append, List.flatMap_append, partsFrom, List.flatMap_append]
    exact ⟨_, (List.append_assoc _ _ _).symm⟩
  rw [hBefore, List.length_append, List.length_singleton] at hUpTo
  have hPlace : k + heights (insertions.filter fun i => i.target ≤ k + 1) = before.length := by
    omega
  conv_lhs => rw [← List.take_append_drop (k + 1) lines]
  rw [partsFrom_append, List.flatMap_append, hBefore, hPlace, List.append_assoc,
    List.getElem?_append_right le_rfl, Nat.sub_self]
  rfl

end Landing

/-- If no comment is for a later line than the one after the last, those past the end stand like
comments above a line. -/
theorem tailLines_pastEnd {insertions : List Insertion} {n : Nat}
    (h : ∀ i ∈ insertions, i.line.toNat ≤ n + 1) :
    tailLines n (pastEnd n insertions) =
      (commentsBefore insertions (n + 1)).flatMap Insertion.lines := by
  have hTarget (i : Insertion) (hi : i ∈ insertions) : n < i.target ↔ i.target = n + 1 := by
    have := h i hi
    rw [Insertion.target]
    omega
  have hFilter : pastEnd n insertions =
      (laterFirst insertions).filter fun i => i.target == n + 1 := by
    refine List.filter_congr fun i hi => ?_
    rw [Bool.eq_iff_iff, decide_eq_true_eq, beq_iff_eq]
    exact hTarget i (List.mem_mergeSort.mp hi)
  rw [← reverse_filter_laterFirst insertions (by omega), ← hFilter]
  refine tailLines_of_target_eq fun i hi => ?_
  obtain ⟨hMem, hPast⟩ := (mem_pastEnd insertions).mp hi
  exact (hTarget i hMem).mp hPast

/-- Let no comment be for a line further down than the one after the last. Then the program with its
comments is, line by line, the comments for the line and the line, and at the end the comments for
the line after the last. The lines are as they were, but the last one is ended if there are comments
after it. Each line moves down by the height of the comments for it and for the lines before it. -/
theorem insert_eq_arrangement {source : String} {insertions : List Insertion} {n : Nat}
    (hn : (Text.pieces source.toList).length = n)
    (h : ∀ i ∈ insertions, i.line.toNat ≤ n + 1) :
    insert source insertions = String.ofList
        ((arrangement source insertions).flatMap Part.lines).flatten ∧
      Text.pieces (insert source insertions).toList =
        (arrangement source insertions).flatMap Part.lines ∧
      (Text.pieces (keptText source insertions)).length = n ∧
      keptText source insertions =
        (if ∃ i ∈ insertions, i.target = n + 1 then endText source.toList else source.toList) ∧
      ∀ (k : Nat) (line : List Char),
        (Text.pieces (keptText source insertions))[k]? = some line →
          (Text.pieces (insert source insertions).toList)[k +
            heights (insertions.filter fun i => i.target ≤ k + 1)]? = some line := by
  have hPieces := pieces_insert_eq source insertions hn
  have hParts : Text.pieces (insert source insertions).toList =
      (arrangement source insertions).flatMap Part.lines := by
    rw [hPieces, tailLines_pastEnd h, arrangement, hn, List.flatMap_append,
      Part.flatMap_lines_comment]
  refine ⟨?_, hParts, by simp [hn], ?_, ?_⟩
  · rw [← hParts, Text.flatten_pieces, String.ofList_toList]
  · have hTarget : (∃ i ∈ insertions, n < i.target) ↔ ∃ i ∈ insertions, i.target = n + 1 := by
      refine exists_congr fun i => and_congr_right fun hi => ?_
      have := h i hi
      rw [Insertion.target]
      omega
    rw [keptText, hn]
    simp only [hTarget]
  · intro k line hLine
    have hPlace := getElem?_flatMap_partsFrom insertions hLine
    obtain ⟨hLess, -⟩ := List.getElem?_eq_some_iff.mp hPlace
    rw [hPieces, List.getElem?_append_left hLess, hPlace]

/-- Comments for a program of two lines: two of them go after its last line, and one is for line
zero. -/
def sixComments : List Insertion :=
  [⟨1, 0, "// x\n  // y "⟩, ⟨3, 2, "// end"⟩, ⟨0, 0, "// top"⟩, ⟨1, 0, "// z"⟩, ⟨3, 0, "// last"⟩,
    ⟨2, 4, "// b"⟩]

theorem insert_eq_arrangement_sixComments :
    (Text.pieces "a;\nb;".toList).length = 2 ∧ (∀ i ∈ sixComments, i.line.toNat ≤ 2 + 1) ∧
      insert "a;\nb;" sixComments =
        "// top\n// z\n// x\n// y\na;\n    // b\nb;\n// last\n  // end\n" := by
  have hLength : (Text.pieces "a;\nb;".toList).length = 2 := by decide +kernel
  have hLines : ∀ i ∈ sixComments, i.line.toNat ≤ 2 + 1 := by decide
  refine ⟨hLength, hLines, ?_⟩
  rw [(insert_eq_arrangement hLength hLines).1]
  decide +kernel

end JavaOutline.Doc
