import JavaOutline.Proofs.Doc.Arrangement

/-! Whether comments stay whole. A comment after the last line of the program goes to the place that
its line number names among the lines that are there by then, and these are lines of other comments.
If the place is between two of them, all comments are whole; otherwise it is inside one, which is
then in two pieces. -/
namespace JavaOutline.Doc

/-- Whether a program with comments in it is made of the lines of the program, each once and in
order, where the last may have been ended, and of whole comments, each once, and whether the
comments for lines that the program does not have come after its last line. -/
def KeepsWhole (source : String) (insertions : List Insertion) : Prop :=
  ∃ (kept : List Char) (parts front back : List Part),
    (kept = source.toList ∨ kept = endText source.toList) ∧
    (insert source insertions).toList = (parts.flatMap Part.lines).flatten ∧
    parts.filterMap Part.line? = Text.pieces kept ∧
    (parts.filterMap Part.comment?).Perm insertions ∧
    parts = front ++ back ∧ back.filterMap Part.line? = [] ∧
    ∀ i ∈ front.filterMap Part.comment?, i.line.toNat ≤ (Text.pieces source.toList).length

/-- How comments that come one after another stand after a program of `n` lines, if each goes
between others or to the end. -/
inductive Gathered (n : Nat) : List Insertion → List Insertion → Prop where
  | nil : Gathered n [] []
  | between {earlier front back : List Insertion} {i : Insertion}
      (prior : Gathered n earlier (front ++ back))
      (place : i.target - 1 - n = heights front ∨
        back = [] ∧ heights front ≤ i.target - 1 - n) :
      Gathered n (earlier ++ [i]) (front ++ i :: back)

section Gathered

variable {n : Nat}

/-- A block goes between comments if it is put in at the end of one of them, or after them all. -/
theorem splice_flatMap {front back : List Insertion} {k : Nat}
    (h : k = heights front ∨ back = [] ∧ heights front ≤ k) (block : List (List Char)) :
    splice k block ((front ++ back).flatMap Insertion.lines) =
      front.flatMap Insertion.lines ++ block ++ back.flatMap Insertion.lines := by
  have hLength := length_flatMap_lines front
  have hLess : (front.flatMap Insertion.lines).length ≤ k := by omega
  rw [List.flatMap_append, splice_append _ hLess, hLength, List.append_assoc, splice]
  rcases h with rfl | ⟨rfl, -⟩
  · rw [Nat.sub_self]
    rfl
  · simp

/-- A place inside a comment: the comment is put in between two pieces of it. -/
theorem splice_flatMap_inside (front back : List Insertion) (split : Insertion) {j : Nat}
    (hj : j ≤ split.height) (block : List (List Char)) :
    splice (heights front + j) block ((front ++ split :: back).flatMap Insertion.lines) =
      front.flatMap Insertion.lines ++ split.lines.take j ++ block ++ split.lines.drop j ++
        back.flatMap Insertion.lines := by
  have hLength := length_flatMap_lines front
  have hSplit := split.length_lines
  rw [List.flatMap_append, List.flatMap_cons, splice_append _ (by omega), hLength,
    Nat.add_sub_cancel_left, splice, List.take_append_of_le_length (by omega),
    List.drop_append_of_le_length (by omega)]
  simp only [List.append_assoc]

/-- Comments that are gathered are whole in the text. -/
theorem Gathered.tailLines_eq {comments order : List Insertion} (h : Gathered n comments order) :
    tailLines n comments = order.flatMap Insertion.lines := by
  induction h with
  | nil => rfl
  | between prior place ih =>
      rw [tailLines_concat, ih, splice_flatMap place, List.flatMap_append, List.flatMap_cons,
        List.append_assoc]

/-- Each comment is gathered once. -/
theorem Gathered.perm {comments order : List Insertion} (h : Gathered n comments order) :
    order.Perm comments := by
  induction h with
  | nil => rfl
  | @between earlier front back i prior place ih =>
      have hFirst : (front ++ i :: back).Perm (i :: earlier) :=
        List.perm_middle.trans (ih.cons i)
      exact hFirst.trans (List.perm_append_singleton i earlier).symm

/-- A number of lines leads between two comments, to the end or inside a comment. -/
theorem between_or_inside (order : List Insertion) (k : Nat) :
    (∃ front back, order = front ++ back ∧
        (k = heights front ∨ back = [] ∧ heights front ≤ k)) ∨
      ∃ front split back j, order = front ++ split :: back ∧ k = heights front + j ∧ 0 < j ∧
        j < split.height := by
  induction order generalizing k with
  | nil => exact .inl ⟨[], [], rfl, .inr ⟨rfl, Nat.zero_le k⟩⟩
  | cons i order ih =>
      rcases Nat.lt_or_ge k i.height with hLess | hGreater
      · cases k with
        | zero => exact .inl ⟨[], i :: order, rfl, .inl rfl⟩
        | succ k => exact .inr ⟨[], i, order, k + 1, rfl, by simp, by omega, hLess⟩
      · rcases ih (k - i.height) with
          ⟨front, back, rfl, hPlace⟩ | ⟨front, split, back, j, rfl, hPlace, hPositive, hj⟩
        · refine .inl ⟨i :: front, back, rfl, ?_⟩
          rw [heights_cons]
          exact hPlace.imp (fun h => by omega) fun h => ⟨h.1, by omega⟩
        · refine .inr ⟨i :: front, split, back, j, rfl, ?_, hPositive, hj⟩
          rw [heights_cons]
          omega

/-- Of comments that come one after another, all go between others or to the end, or there is a
first that goes inside another. -/
theorem gathered_or_inside (comments : List Insertion) :
    (∃ order, Gathered n comments order) ∨
      ∃ earlier i later front split back j, comments = earlier ++ i :: later ∧
        Gathered n earlier (front ++ split :: back) ∧ i.target - 1 - n = heights front + j ∧
        0 < j ∧ j < split.height := by
  induction comments using List.reverseRecOn with
  | nil => exact .inl ⟨[], .nil⟩
  | append_singleton comments i ih =>
      rcases ih with ⟨order, hOrder⟩ |
        ⟨earlier, first, later, front, split, back, j, rfl, hEarlier, hInside⟩
      · rcases between_or_inside order (i.target - 1 - n) with
          ⟨front, back, rfl, hPlace⟩ | ⟨front, split, back, j, rfl, hInside⟩
        · exact .inl ⟨_, .between hOrder hPlace⟩
        · exact .inr ⟨comments, i, [], front, split, back, j, rfl, hOrder, hInside⟩
      · exact .inr ⟨earlier, first, later ++ [i], front, split, back, j, by simp, hEarlier, hInside⟩

end Gathered

section Whole

variable {source : String} {insertions : List Insertion} {n : Nat}

/-- Where the comments after the last line are gathered whole, all comments are whole. -/
theorem keepsWhole_of_gathered (hn : (Text.pieces source.toList).length = n)
    {order : List Insertion} (h : Gathered n (pastEnd n insertions) order) :
    KeepsWhole source insertions := by
  have hKept : (Text.pieces (keptText source insertions)).length = n := by simp [hn]
  have hInside := perm_filterMap_comment?_partsFrom insertions le_rfl
    (Text.pieces (keptText source insertions))
  rw [hKept] at hInside
  refine ⟨keptText source insertions, _,
    partsFrom insertions 1 (Text.pieces (keptText source insertions)), order.map .comment,
    ?_, ?_, ?_, ?_, rfl, Part.filterMap_line?_comment order, ?_⟩
  · rw [keptText]
    split_ifs
    · exact .inr rfl
    · exact .inl rfl
  · rw [toList_insert_eq source insertions hn, h.tailLines_eq, List.flatMap_append,
      Part.flatMap_lines_comment]
  · rw [List.filterMap_append, filterMap_line?_partsFrom, Part.filterMap_line?_comment,
      List.append_nil]
  · rw [List.filterMap_append, Part.filterMap_comment?_comment]
    refine (hInside.append (h.perm.trans (perm_pastEnd insertions n))).trans ?_
    -- A comment is for a line of the program or for none.
    have hOthers : (insertions.filter fun i => n < i.target) =
        insertions.filter fun i => !decide (1 ≤ i.target ∧ i.target < 1 + n) := by
      refine List.filter_congr fun i _ => ?_
      have hPositive := i.one_le_target
      rw [Bool.eq_iff_iff, decide_eq_true_eq, Bool.not_eq_true', decide_eq_false_iff_not]
      omega
    rw [hOthers]
    exact List.filter_append_perm _ insertions
  · intro i hi
    have hLine := (List.mem_filter.mp (hInside.mem_iff.mp hi)).2
    rw [decide_eq_true_eq, Insertion.target] at hLine
    omega

/-- Where all comments are whole, each is somewhere in the text. -/
theorem KeepsWhole.isInfix (h : KeepsWhole source insertions) {i : Insertion}
    (hi : i ∈ insertions) : i.lines.flatten <:+: (insert source insertions).toList := by
  obtain ⟨kept, parts, -, -, -, hText, -, hPerm, -⟩ := h
  obtain ⟨part, hPart, hComment⟩ := List.mem_filterMap.mp (hPerm.mem_iff.mpr hi)
  obtain ⟨before, after, rfl⟩ := List.append_of_mem hPart
  cases part with
  | line text => cases hComment
  | comment j =>
      cases hComment
      refine ⟨(before.flatMap Part.lines).flatten, (after.flatMap Part.lines).flatten, ?_⟩
      rw [hText, List.flatMap_append, List.flatMap_cons, List.flatten_append, List.flatten_append,
        List.append_assoc]
      rfl

/-- The lines of a program with comments are its lines, each after the whole comments for it, and
then lines that are those of all comments for which it has no line. If each of these goes between
others or to the end, all comments are whole. Otherwise there is a first one that goes inside
another, and it comes to stand between two pieces of that one. -/
theorem insert_whole_unless_inside (hn : (Text.pieces source.toList).length = n) :
    (Text.pieces (insert source insertions).toList =
        (partsFrom insertions 1 (Text.pieces (keptText source insertions))).flatMap Part.lines ++
          tailLines n (pastEnd n insertions) ∧
      (tailLines n (pastEnd n insertions)).Perm
        ((pastEnd n insertions).flatMap Insertion.lines) ∧
      ∀ i, i ∈ pastEnd n insertions ↔ i ∈ insertions ∧ n < i.target) ∧
    ((∃ order, Gathered n (pastEnd n insertions) order) → KeepsWhole source insertions) ∧
    ((¬∃ order, Gathered n (pastEnd n insertions) order) →
      ∃ earlier i later front split back j, pastEnd n insertions = earlier ++ i :: later ∧
        Gathered n earlier (front ++ split :: back) ∧ 0 < j ∧ j < split.height ∧
        tailLines n (earlier ++ [i]) =
          front.flatMap Insertion.lines ++ split.lines.take j ++ i.lines ++ split.lines.drop j ++
            back.flatMap Insertion.lines) := by
  refine ⟨⟨pieces_insert_eq source insertions hn, perm_tailLines _,
    fun i => mem_pastEnd insertions⟩, fun ⟨order, h⟩ => keepsWhole_of_gathered hn h, fun h => ?_⟩
  obtain ⟨earlier, i, later, front, split, back, j, hPast, hEarlier, hPlace, hPositive, hj⟩ :=
    (gathered_or_inside (pastEnd n insertions)).resolve_left h
  refine ⟨earlier, i, later, front, split, back, j, hPast, hEarlier, hPositive, hj, ?_⟩
  rw [tailLines_concat, hEarlier.tailLines_eq, hPlace, splice_flatMap_inside _ _ _ hj.le]

end Whole

/-- Comments of which three are for lines after the last of a program of one line. -/
def fourComments : List Insertion :=
  [⟨99, 0, "// far"⟩, ⟨2, 0, "/*\n*/"⟩, ⟨2, 0, "// two"⟩, ⟨0, 0, "// top"⟩]

theorem insert_whole_unless_inside_fourComments :
    (Text.pieces "a;".toList).length = 1 ∧
      Gathered 1 (pastEnd 1 fourComments)
        [⟨2, 0, "// two"⟩, ⟨2, 0, "/*\n*/"⟩, ⟨99, 0, "// far"⟩] ∧
      KeepsWhole "a;" fourComments := by
  have hLength : (Text.pieces "a;".toList).length = 1 := by decide +kernel
  have hPast : pastEnd 1 fourComments =
      [⟨99, 0, "// far"⟩, ⟨2, 0, "/*\n*/"⟩, ⟨2, 0, "// two"⟩] := by
    rw [pastEnd, laterFirst_of_pairwise (by decide)]
    decide
  have hFar : Gathered 1 [⟨99, 0, "// far"⟩] [⟨99, 0, "// far"⟩] :=
    @Gathered.between 1 [] [] [] _ .nil (.inr ⟨rfl, Nat.zero_le _⟩)
  have hBlock : Gathered 1 [⟨99, 0, "// far"⟩, ⟨2, 0, "/*\n*/"⟩]
      [⟨2, 0, "/*\n*/"⟩, ⟨99, 0, "// far"⟩] :=
    @Gathered.between 1 _ [] _ _ hFar (.inl (by decide))
  have hAll : Gathered 1 (pastEnd 1 fourComments)
      [⟨2, 0, "// two"⟩, ⟨2, 0, "/*\n*/"⟩, ⟨99, 0, "// far"⟩] := by
    rw [hPast]
    exact @Gathered.between 1 _ [] _ _ hBlock (.inl (by decide))
  exact ⟨hLength, hAll, (insert_whole_unless_inside hLength).2.1 ⟨_, hAll⟩⟩

/-- A comment of three lines far below a class, and one for a line right below the first of these
lines. -/
def interleaved : List Insertion := [⟨99, 0, "/**\n * End.\n */"⟩, ⟨3, 0, "// b"⟩]

/-- The second comes to stand inside the first. -/
theorem not_keepsWhole_interleaved :
    insert "class A {}\n" interleaved = "class A {}\n/**\n// b\n* End.\n*/\n" ∧
      ¬KeepsWhole "class A {}\n" interleaved := by
  have hText : insert "class A {}\n" interleaved = "class A {}\n/**\n// b\n* End.\n*/\n" := by
    rw [insert, laterFirst_of_pairwise (by decide)]
    decide +kernel
  refine ⟨hText, fun h => ?_⟩
  have hInfix := h.isInfix (i := ⟨99, 0, "/**\n * End.\n */"⟩) (by simp [interleaved])
  rw [hText] at hInfix
  revert hInfix
  decide +kernel

end JavaOutline.Doc
