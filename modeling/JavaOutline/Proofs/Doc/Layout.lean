import JavaOutline.Doc.Insert
import JavaOutline.Proofs.Doc.Block
import Mathlib.Data.List.Perm.Basic

/-! What a program with comments in it looks like line by line. The comments for a line stand right
above it, and the lines of the program itself stay as they are. Comments are put in from the last
line up, so the numbers of the lines that are still to be treated do not change. -/
namespace JavaOutline.Doc

/-- A line of a program with comments in it. -/
inductive Line where
  | kept (text : List Char)
  | inserted (text : List Char)
  deriving DecidableEq, Repr

namespace Line

def text : Line → List Char
  | kept t => t
  | inserted t => t

def kept? : Line → Option (List Char)
  | kept t => some t
  | inserted _ => none

def inserted? : Line → Option (List Char)
  | kept _ => none
  | inserted t => some t

@[simp] theorem map_text_kept (texts : List (List Char)) : (texts.map kept).map text = texts := by
  rw [List.map_map]
  exact List.map_id _

@[simp] theorem map_text_inserted (texts : List (List Char)) :
    (texts.map inserted).map text = texts := by
  rw [List.map_map]
  exact List.map_id _

@[simp] theorem filterMap_kept?_inserted (texts : List (List Char)) :
    (texts.map inserted).filterMap kept? = [] := by
  rw [List.filterMap_map, List.filterMap_eq_nil_iff]
  exact fun _ _ => rfl

@[simp] theorem filterMap_inserted?_inserted (texts : List (List Char)) :
    (texts.map inserted).filterMap inserted? = texts := by
  rw [List.filterMap_map]
  exact List.filterMap_some

end Line

def Insertion.lines (i : Insertion) : List (List Char) :=
  blockLines i.text.toList i.indent.toNat

/-- The lines of the comments for a line of the program. Of several comments the one that was given
last comes first. -/
def linesAbove (insertions : List Insertion) (n : Nat) : List (List Char) :=
  (insertions.reverse.filter fun i => i.line.toNat == n).flatMap Insertion.lines

/-- The lines of a program with its comments, where the first line has the given number. -/
def layoutFrom (insertions : List Insertion) : Nat → List (List Char) → List Line
  | _, [] => []
  | n, line :: rest =>
      (linesAbove insertions n).map .inserted ++ .kept line :: layoutFrom insertions (n + 1) rest

def layout (source : String) (insertions : List Insertion) : List Line :=
  layoutFrom insertions 1 (Text.pieces source.toList)

/-- The comment given last comes first. -/
theorem linesAbove_concat (insertions : List Insertion) (i : Insertion) (n : Nat) :
    linesAbove (insertions ++ [i]) n =
      (if i.line.toNat = n then i.lines else []) ++ linesAbove insertions n := by
  rw [linesAbove, List.reverse_append, List.reverse_singleton, List.singleton_append,
    List.filter_cons]
  by_cases hLine : i.line.toNat = n
  · rw [if_pos (by simpa using hLine), if_pos hLine, List.flatMap_cons]
    rfl
  · rw [if_neg (by simpa using hLine), if_neg hLine]
    rfl

theorem linesAbove_eq_nil {insertions : List Insertion} {n : Nat}
    (h : ∀ i ∈ insertions, i.line.toNat ≠ n) : linesAbove insertions n = [] := by
  have hNone : (insertions.reverse.filter fun i => i.line.toNat == n) = [] := by
    refine List.filter_eq_nil_iff.mpr fun i hi => ?_
    simpa using h i (List.mem_reverse.mp hi)
  rw [linesAbove, hNone]
  rfl

section Layout

variable {insertions : List Insertion}

theorem layoutFrom_append (n : Nat) (first second : List (List Char)) :
    layoutFrom insertions n (first ++ second) =
      layoutFrom insertions n first ++ layoutFrom insertions (n + first.length) second := by
  induction first generalizing n with
  | nil => rfl
  | cons line first ih =>
      rw [List.cons_append, layoutFrom, layoutFrom, ih, List.length_cons, List.append_assoc,
        List.cons_append, Nat.add_right_comm, Nat.add_assoc]

/-- Only the comments for the lines of a layout matter. -/
theorem layoutFrom_congr {others : List Insertion} {n : Nat} {lines : List (List Char)}
    (h : ∀ m, n ≤ m → m < n + lines.length → linesAbove insertions m = linesAbove others m) :
    layoutFrom insertions n lines = layoutFrom others n lines := by
  induction lines generalizing n with
  | nil => rfl
  | cons line lines ih =>
      rw [List.length_cons] at h
      rw [layoutFrom, layoutFrom, h n (le_refl n) (by omega),
        ih fun m hm hm' => h m (by omega) (by omega)]

/-- Above the first line that gets a comment, the program is as it was. -/
theorem layoutFrom_eq_kept {n : Nat} {lines : List (List Char)}
    (h : ∀ i ∈ insertions, n + lines.length ≤ i.line.toNat) :
    layoutFrom insertions n lines = lines.map .kept := by
  induction lines generalizing n with
  | nil => rfl
  | cons line lines ih =>
      have hAbove : linesAbove insertions n = [] := linesAbove_eq_nil fun i hi => by
        have := h i hi
        simp only [List.length_cons] at this
        omega
      have hRest : layoutFrom insertions (n + 1) lines = lines.map .kept := ih fun i hi => by
        have := h i hi
        simp only [List.length_cons] at this
        omega
      rw [layoutFrom, hAbove, hRest]
      rfl

/-- A further comment for an earlier line changes nothing below that line. -/
theorem layoutFrom_concat_of_lt (i : Insertion) {n : Nat} (h : i.line.toNat < n)
    (lines : List (List Char)) :
    layoutFrom (insertions ++ [i]) n lines = layoutFrom insertions n lines := by
  refine layoutFrom_congr fun m hm _ => ?_
  rw [linesAbove_concat, if_neg (by omega), List.nil_append]

/-- To put a comment above a line is to put it before the layout from that line on. -/
theorem layoutFrom_concat_self (i : Insertion) {line : List Char} {lines : List (List Char)} :
    layoutFrom (insertions ++ [i]) i.line.toNat (line :: lines) =
      i.lines.map .inserted ++ layoutFrom insertions i.line.toNat (line :: lines) := by
  rw [layoutFrom, layoutFrom, linesAbove_concat, if_pos rfl,
    layoutFrom_concat_of_lt i (by omega), List.map_append, List.append_assoc]

/-- One step: a comment for a line above all those treated goes right above its line. -/
theorem insertOne_layout {lines : List (List Char)} {i : Insertion} (hFirst : 1 ≤ i.line.toNat)
    (hLast : i.line.toNat ≤ lines.length)
    (hLater : ∀ j ∈ insertions, i.line.toNat ≤ j.line.toNat) :
    insertOne ((layoutFrom insertions 1 lines).map Line.text) i =
      (layoutFrom (insertions ++ [i]) 1 lines).map Line.text := by
  obtain ⟨k, hk⟩ : ∃ k, i.line.toNat = k + 1 := ⟨i.line.toNat - 1, by omega⟩
  have hLess : k < lines.length := by omega
  -- The lines before the comment's line are split off; no comment is among them yet.
  have hTake : (lines.take k).length = k := List.length_take_of_le hLess.le
  have hSplit : lines = lines.take k ++ lines[k] :: lines.drop (k + 1) := by simp
  have hBefore (more : List Insertion) (hMore : ∀ j ∈ more, i.line.toNat ≤ j.line.toNat) :
      layoutFrom more 1 lines = (lines.take k).map .kept ++
        layoutFrom more i.line.toNat (lines[k] :: lines.drop (k + 1)) := by
    conv_lhs => rw [hSplit]
    rw [layoutFrom_append, hTake, hk, Nat.add_comm 1 k]
    rw [layoutFrom_eq_kept fun j hj => by have := hMore j hj; omega]
  have hAll : ∀ j ∈ insertions ++ [i], i.line.toNat ≤ j.line.toNat := by
    intro j hj
    rcases List.mem_append.mp hj with hOld | hNew
    · exact hLater j hOld
    · rw [List.mem_singleton.mp hNew]
  rw [hBefore _ hLater, hBefore _ hAll, layoutFrom_concat_self, List.map_append, List.map_append,
    List.map_append, Line.map_text_kept, Line.map_text_inserted]
  generalize hTail : (layoutFrom insertions i.line.toNat (lines[k] :: lines.drop (k + 1))).map
    Line.text = tail
  have hTailLength : 1 ≤ tail.length := by
    rw [← hTail, layoutFrom]
    simp only [List.length_map, List.length_append, List.length_cons]
    omega
  have hIndex : min (i.line.toNat - 1) (lines.take k ++ tail).length = k := by
    rw [List.length_append, hTake]
    omega
  have hNotEnd : k ≠ (lines.take k ++ tail).length := by
    rw [List.length_append, hTake]
    omega
  simp only [insertOne, hIndex, if_neg hNotEnd]
  rw [List.take_left' hTake, List.drop_left' hTake, List.append_assoc]
  rfl

/-- A whole run: comments that come in the order of descending lines are all put above their
lines. -/
theorem foldl_insertOne_layout {lines : List (List Char)} {rest : List Insertion}
    (hInside : ∀ i ∈ rest, 1 ≤ i.line.toNat ∧ i.line.toNat ≤ lines.length)
    (hSorted : (insertions ++ rest).Pairwise fun a b => b.line.toNat ≤ a.line.toNat) :
    rest.foldl insertOne ((layoutFrom insertions 1 lines).map Line.text) =
      (layoutFrom (insertions ++ rest) 1 lines).map Line.text := by
  induction rest generalizing insertions with
  | nil => simp
  | cons i rest ih =>
      obtain ⟨hFirst, hLast⟩ := hInside i List.mem_cons_self
      have hLater : ∀ j ∈ insertions, i.line.toNat ≤ j.line.toNat := fun j hj =>
        (List.pairwise_append.mp hSorted).2.2 j hj i List.mem_cons_self
      rw [List.foldl_cons, insertOne_layout hFirst hLast hLater]
      rw [ih (fun j hj => hInside j (List.mem_cons_of_mem _ hj)) (by simpa using hSorted)]
      simp

end Layout

theorem laterFirst_trans (a b c : Insertion) (hab : decide (b.line ≤ a.line) = true)
    (hbc : decide (c.line ≤ b.line) = true) : decide (c.line ≤ a.line) = true := by
  simp only [decide_eq_true_eq, UInt32.le_iff_toNat_le] at *
  omega

theorem laterFirst_total (a b : Insertion) :
    (decide (b.line ≤ a.line) || decide (a.line ≤ b.line)) = true := by
  simp only [Bool.or_eq_true, decide_eq_true_eq, UInt32.le_iff_toNat_le]
  omega

/-- In this order no comment is for a later line than one before it. -/
theorem pairwise_laterFirst (insertions : List Insertion) :
    (laterFirst insertions).Pairwise fun a b => b.line.toNat ≤ a.line.toNat := by
  refine (List.pairwise_mergeSort laterFirst_trans laterFirst_total insertions).imp fun h => ?_
  simpa only [decide_eq_true_eq, UInt32.le_iff_toNat_le] using h

/-- Comments that are in this order stay as they are. -/
theorem laterFirst_of_pairwise {insertions : List Insertion}
    (h : insertions.Pairwise fun a b => b.line ≤ a.line) : laterFirst insertions = insertions :=
  List.mergeSort_of_pairwise (h.imp decide_eq_true)

/-- Sorting does not change the order of the comments for one line. -/
theorem filter_laterFirst (insertions : List Insertion) (n : Nat) :
    ((laterFirst insertions).filter fun i => i.line.toNat == n) =
      insertions.filter fun i => i.line.toNat == n := by
  have hSame : (insertions.filter fun i => i.line.toNat == n).Pairwise
      fun a b => decide (b.line ≤ a.line) = true := by
    refine List.pairwise_of_forall_mem_list fun a ha b hb => ?_
    have hLineA := (List.mem_filter.mp ha).2
    have hLineB := (List.mem_filter.mp hb).2
    simp only [beq_iff_eq] at hLineA hLineB
    simp only [decide_eq_true_eq, UInt32.le_iff_toNat_le]
    omega
  have hSublist := (List.sublist_mergeSort laterFirst_trans laterFirst_total hSame
    List.filter_sublist).filter
    fun i => i.line.toNat == n
  rw [List.filter_filter] at hSublist
  simp only [Bool.and_self] at hSublist
  refine (hSublist.eq_of_length ?_).symm
  exact ((List.mergeSort_perm insertions _).filter _).length_eq.symm

/-- The order in which comments are put in does not change what stands above a line. -/
theorem linesAbove_laterFirst (insertions : List Insertion) (n : Nat) :
    linesAbove (laterFirst insertions) n = linesAbove insertions n := by
  rw [linesAbove, linesAbove, List.filter_reverse, List.filter_reverse, filter_laterFirst]

/-- Whether every comment is for a line that the program has. -/
def AllInside (source : String) (insertions : List Insertion) : Prop :=
  ∀ i ∈ insertions, 1 ≤ i.line.toNat ∧ i.line.toNat ≤ (Text.pieces source.toList).length

/-- Where all comments are for lines that there are, the program is laid out with each above its
line. -/
theorem toList_insert {source : String} {insertions : List Insertion}
    (h : AllInside source insertions) :
    (insert source insertions).toList = ((layout source insertions).map Line.text).flatten := by
  have hInside : ∀ i ∈ laterFirst insertions,
      1 ≤ i.line.toNat ∧ i.line.toNat ≤ (Text.pieces source.toList).length := fun i hi =>
    h i ((List.mergeSort_perm insertions _).mem_iff.mp hi)
  have hRun := @foldl_insertOne_layout [] _ _ hInside
    (by simpa using pairwise_laterFirst insertions)
  have hStart : (layoutFrom [] 1 (Text.pieces source.toList)).map Line.text =
      Text.pieces source.toList := by
    rw [layoutFrom_eq_kept (by simp), Line.map_text_kept]
  rw [hStart, List.nil_append,
    layoutFrom_congr fun n _ _ => linesAbove_laterFirst insertions n] at hRun
  rw [insert, String.toList_ofList, hRun, layout]

/-- Without the lines of the comments the program is as it was. -/
theorem filterMap_kept?_layoutFrom (insertions : List Insertion) (n : Nat)
    (lines : List (List Char)) :
    (layoutFrom insertions n lines).filterMap Line.kept? = lines := by
  induction lines generalizing n with
  | nil => rfl
  | cons line lines ih =>
      have hKept : Line.kept? (.kept line) = some line := rfl
      rw [layoutFrom, List.filterMap_append, Line.filterMap_kept?_inserted, List.nil_append,
        List.filterMap_cons_some hKept, ih]

/-- Without the lines of the program each comment is there once. -/
theorem filterMap_inserted?_layoutFrom (insertions : List Insertion) (n : Nat)
    (lines : List (List Char))
    (h : ∀ i ∈ insertions, n ≤ i.line.toNat ∧ i.line.toNat < n + lines.length) :
    ((layoutFrom insertions n lines).filterMap Line.inserted?).Perm
      (insertions.flatMap Insertion.lines) := by
  induction lines generalizing n insertions with
  | nil =>
      cases insertions with
      | nil => rfl
      | cons i insertions =>
          have := h i List.mem_cons_self
          simp only [List.length_nil] at this
          omega
  | cons line lines ih =>
      -- The comments for the first line stand above it, and all others below it.
      have hHere : (linesAbove insertions n).Perm
          ((insertions.filter fun i => i.line.toNat == n).flatMap Insertion.lines) := by
        rw [linesAbove, List.filter_reverse]
        exact (List.reverse_perm _).flatMap_right _
      have hBelow := ih (insertions.filter fun i => !(i.line.toNat == n)) (n + 1) fun i hi => by
        obtain ⟨hMem, hLine⟩ := List.mem_filter.mp hi
        have := h i hMem
        simp only [Bool.not_eq_true', beq_eq_false_iff_ne, List.length_cons] at *
        omega
      have hOthers : layoutFrom (insertions.filter fun i => !(i.line.toNat == n)) (n + 1) lines =
          layoutFrom insertions (n + 1) lines := by
        refine layoutFrom_congr fun m hm _ => ?_
        rw [linesAbove, linesAbove, ← List.filter_reverse, List.filter_filter]
        congr 1
        refine List.filter_congr fun i _ => ?_
        by_cases hLine : i.line.toNat = m
        · have : i.line.toNat ≠ n := by omega
          simp [hLine, show m ≠ n by omega]
        · simp [hLine]
      rw [hOthers] at hBelow
      rw [layoutFrom, List.filterMap_append, Line.filterMap_inserted?_inserted,
        List.filterMap_cons_none rfl]
      refine (hHere.append hBelow).trans ?_
      rw [← List.flatMap_append]
      exact (List.filter_append_perm _ insertions).flatMap_right _

/-- Whether characters are one line with its end. -/
def IsEnded (line : List Char) : Prop := ∃ text, '\n' ∉ text ∧ line = text ++ ['\n']

/-- Every line of a comment is a line of its own. -/
theorem Insertion.mem_lines {i : Insertion} {line : List Char} (h : line ∈ i.lines) :
    IsEnded line := by
  obtain ⟨text, rfl, hText, -⟩ := mem_blockLines h
  refine ⟨_, fun hMem => ?_, rfl⟩
  rcases List.mem_append.mp hMem with hPadding | hOwn
  · simp at hPadding
  · exact hText hOwn

/-- Ended lines are the first pieces of a text that begins with them. -/
theorem pieces_flatten_append {texts : List (List Char)} (rest : List Char)
    (h : ∀ line ∈ texts, IsEnded line) :
    Text.pieces (texts.flatten ++ rest) = texts ++ Text.pieces rest := by
  induction texts with
  | nil => rfl
  | cons line texts ih =>
      obtain ⟨text, hText, rfl⟩ := h line List.mem_cons_self
      have hRest := ih fun other hOther => h other (List.mem_cons_of_mem _ hOther)
      rw [List.flatten_cons, List.append_assoc, List.append_assoc, List.singleton_append,
        Text.pieces_ended hText, hRest, List.cons_append]

theorem linesAbove_ended (insertions : List Insertion) (n : Nat) :
    ∀ line ∈ linesAbove insertions n, IsEnded line := by
  intro line hLine
  obtain ⟨i, -, hMem⟩ := List.mem_flatMap.mp hLine
  exact Insertion.mem_lines hMem

/-- The lines of a laid out program are those of the layout. -/
theorem pieces_layoutFrom (insertions : List Insertion) (n : Nat) (cs : List Char) :
    Text.pieces ((layoutFrom insertions n (Text.pieces cs)).map Line.text).flatten =
      (layoutFrom insertions n (Text.pieces cs)).map Line.text := by
  have hAbove (m : Nat) (rest : List Char) :
      Text.pieces ((linesAbove insertions m).flatten ++ rest) =
        linesAbove insertions m ++ Text.pieces rest :=
    pieces_flatten_append rest (linesAbove_ended insertions m)
  induction cs using Text.lines_induct generalizing n with
  | nil => rfl
  | last line hLine h =>
      rw [Text.pieces_last hLine h, layoutFrom, layoutFrom, List.map_append,
        Line.map_text_inserted, List.flatten_append, hAbove]
      simp [Line.text, Text.pieces_last hLine h]
  | ended line rest h ih =>
      rw [Text.pieces_ended h, layoutFrom, List.map_append, Line.map_text_inserted,
        List.flatten_append, hAbove, List.map_cons, List.flatten_cons, Line.text, List.append_assoc,
        List.singleton_append, Text.pieces_ended h, ih]

/-- If every comment is for a line that there is, the lines of the result are those of the
layout. -/
theorem pieces_insert {source : String} {insertions : List Insertion}
    (h : AllInside source insertions) :
    Text.pieces (insert source insertions).toList =
      (layout source insertions).map Line.text := by
  rw [toList_insert h]
  exact pieces_layoutFrom insertions 1 source.toList

/-- A comment stands whole above its line, with only lines of other comments in between. -/
theorem exists_block_of_mem {insertions : List Insertion} {i : Insertion} {k : Nat}
    {lines : List (List Char)} {line : List Char} (hMem : i ∈ insertions)
    (hLine : i.line.toNat = k + 1) (hk : lines[k]? = some line) :
    ∃ before between after, layoutFrom insertions 1 lines =
        before ++ i.lines.map .inserted ++ between ++ .kept line :: after ∧
      before.filterMap Line.kept? = lines.take k ∧ between.filterMap Line.kept? = [] := by
  obtain ⟨hLess, rfl⟩ := List.getElem?_eq_some_iff.mp hk
  have hSplit : lines = lines.take k ++ lines[k] :: lines.drop (k + 1) := by simp
  have hHere : i ∈ insertions.reverse.filter fun j => j.line.toNat == k + 1 :=
    List.mem_filter.mpr ⟨List.mem_reverse.mpr hMem, by simpa using hLine⟩
  obtain ⟨first, second, hAbove⟩ := List.append_of_mem hHere
  have hLines : linesAbove insertions (k + 1) =
      first.flatMap Insertion.lines ++ i.lines ++ second.flatMap Insertion.lines := by
    rw [linesAbove, hAbove, List.flatMap_append, List.flatMap_cons, List.append_assoc]
  refine ⟨layoutFrom insertions 1 (lines.take k) ++ (first.flatMap Insertion.lines).map .inserted,
    (second.flatMap Insertion.lines).map .inserted,
    layoutFrom insertions (k + 2) (lines.drop (k + 1)), ?_, ?_, Line.filterMap_kept?_inserted _⟩
  · conv_lhs => rw [hSplit]
    rw [layoutFrom_append, List.length_take_of_le hLess.le, layoutFrom, Nat.add_comm 1 k, hLines]
    simp only [List.map_append, List.append_assoc]
  · rw [List.filterMap_append, Line.filterMap_kept?_inserted, List.append_nil,
      filterMap_kept?_layoutFrom]

end JavaOutline.Doc
