import JavaOutline.Doc.Comment
import JavaOutline.Proofs.Text.Trim
import Mathlib.Data.List.Flatten

/-! What is left of a generated comment. A run of backticks loses three at a time from its front,
and what follows a run stays apart from the next one, so no fence is left, and none comes about when
lines and blanks are taken away. Tag lines are told by spaces and tabs only, but any blanks are
trimmed at the ends of the text after the tag lines are gone. Trimming can therefore make a tag line
of the first and of the last line that is left, and of no other. -/
namespace JavaOutline.Doc

def fence : List Char := ['\x60', '\x60', '\x60']

def languageTag : List Char := ['j', 'a', 'v', 'a']

def HasFence (text : List Char) : Prop := fence <:+: text

/-- Whether a character belongs to a comment wherever it stands: it is no blank, no backtick and no
letter of the tag. -/
def isContent (c : Char) : Bool := !Text.isBlank c && !(fence ++ languageTag).contains c

/-- A text and what is left of it when its fences are taken away from left to right, each alone or
with a tag. -/
inductive Unfenced : List Char → List Char → Prop
  | nil : Unfenced [] []
  | mark {mark rest left : List Char} (hMark : mark = fence ∨ mark = fence ++ languageTag)
      (hRest : Unfenced rest left) : Unfenced (mark ++ rest) left
  | keep {c : Char} {rest left : List Char} (hc : ¬fence <+: c :: rest)
      (hRest : Unfenced rest left) : Unfenced (c :: rest) (c :: left)

section Fences

/-- The single pass takes each fence with its tag away. -/
theorem unfenced_removeFences (text : List Char) : Unfenced text (removeFences text) := by
  induction text using removeFences.induct with
  | case1 rest ih =>
      rw [removeFences]
      exact ih.mark (.inr rfl)
  | case2 rest hTag ih =>
      rw [removeFences]
      · exact ih.mark (.inl rfl)
      · exact hTag
  | case3 c rest hTagged hPlain ih =>
      rw [removeFences]
      · apply ih.keep
        intro hFence
        obtain ⟨after, hText⟩ := hFence
        obtain ⟨hFirst, hRest⟩ := List.cons_eq_cons.mp hText
        exact hPlain after hFirst.symm hRest.symm
      · exact hTagged
      · exact hPlain
  | case4 => exact .nil

variable {text rest left : List Char}

theorem fence_prefix_of_mark {mark : List Char}
    (h : mark = fence ∨ mark = fence ++ languageTag) (rest : List Char) :
    fence <+: mark ++ rest := by
  rcases h with rfl | rfl
  · exact List.prefix_append fence rest
  · rw [List.append_assoc]
    exact List.prefix_append fence _

/-- Where no fence begins, none begins after fences are taken away from what follows. -/
theorem Unfenced.not_fence_prefix {c : Char} (h : Unfenced rest left)
    (hc : ¬fence <+: c :: rest) : ¬fence <+: c :: left := by
  intro hFence
  obtain ⟨rfl, hSecond⟩ := List.cons_prefix_cons.mp hFence
  -- The backticks that follow are too few for a fence, so they stay where they are.
  cases h with
  | nil => exact hc hFence
  | mark hMark _ =>
      obtain ⟨after, hAfter⟩ := fence_prefix_of_mark hMark _
      exact hc (hAfter ▸ List.prefix_append fence ('\x60' :: after))
  | keep _ hRest =>
      obtain ⟨rfl, hThird⟩ := List.cons_prefix_cons.mp hSecond
      cases hRest with
      | nil => exact hc hFence
      | mark hMark _ =>
          obtain ⟨after, hAfter⟩ := fence_prefix_of_mark hMark _
          exact hc (hAfter ▸ List.prefix_append fence ('\x60' :: '\x60' :: after))
      | keep _ _ =>
          obtain ⟨rfl, -⟩ := List.cons_prefix_cons.mp hThird
          exact hc (List.prefix_append fence _)

/-- No fence is left, since what is kept between fences does not join into a new one. -/
theorem Unfenced.not_hasFence (h : Unfenced text left) : ¬HasFence left := by
  induction h with
  | nil =>
      intro hFence
      cases List.infix_nil.mp hFence
  | mark _ _ ih => exact ih
  | keep hc hRest ih =>
      intro hFence
      rcases List.infix_cons_iff.mp hFence with hHere | hLater
      · exact hRest.not_fence_prefix hc hHere
      · exact ih hLater

/-- A text without fences stays as it is. -/
theorem Unfenced.eq_of_not_hasFence (h : Unfenced text left) (hText : ¬HasFence text) :
    left = text := by
  induction h with
  | nil => rfl
  | mark hMark _ _ => exact (hText (fence_prefix_of_mark hMark _).isInfix).elim
  | keep _ _ ih => rw [ih fun hFence => hText (List.infix_cons hFence)]

/-- Nothing is put in or moved. -/
theorem Unfenced.sublist (h : Unfenced text left) : left.Sublist text := by
  induction h with
  | nil => exact List.Sublist.refl []
  | mark _ _ ih => exact ih.trans (List.sublist_append_right _ _)
  | keep _ _ ih => exact ih.cons_cons _

/-- Of the content nothing is lost: a fence consists of backticks and letters of the tag. -/
theorem Unfenced.filter_isContent (h : Unfenced text left) :
    left.filter isContent = text.filter isContent := by
  induction h with
  | nil => rfl
  | mark hMark _ ih =>
      have hNone : (fence ++ languageTag).filter isContent = [] := by decide
      rw [ih, List.filter_append]
      rcases hMark with rfl | rfl
      · rfl
      · rw [hNone, List.nil_append]
  | keep _ _ ih => rw [List.filter_cons, List.filter_cons, ih]

end Fences

section TagLines

/-- A text stays as it is if none of its lines is a tag line. -/
theorem removeTagLines_eq_self_iff {text : List Char} :
    removeTagLines text = text ↔ ∀ line ∈ Text.pieces text, isTagLine line = false := by
  have hKept : ((Text.pieces text).filter fun line => !isTagLine line) = Text.pieces text ↔
      ∀ line ∈ Text.pieces text, isTagLine line = false := by
    rw [List.filter_eq_self]
    simp
  rw [← hKept]
  constructor
  · intro h
    conv_rhs => rw [← h]
    exact (Text.pieces_flatten_filter _ text).symm
  · intro h
    rw [removeTagLines, h, Text.flatten_pieces]

/-- Nothing is put in or moved when lines are taken away. -/
theorem removeTagLines_sublist (text : List Char) : (removeTagLines text).Sublist text := by
  conv_rhs => rw [← Text.flatten_pieces text]
  exact List.filter_sublist.flatten

/-- A fence lies within a line, and the lines that are left are lines of the text. -/
theorem not_hasFence_removeTagLines {text : List Char} (h : ¬HasFence text) :
    ¬HasFence (removeTagLines text) := by
  intro hFence
  obtain ⟨line, hLine, hIn⟩ := Text.exists_piece_of_infix (by decide) (by decide) hFence
  rw [removeTagLines, Text.pieces_flatten_filter] at hLine
  apply h
  rw [← Text.flatten_pieces text]
  exact hIn.trans (List.infix_of_mem_flatten (List.mem_of_mem_filter hLine))

/-- What is dropped at the end of a line are line breaks. -/
theorem exists_append_dropLineEnd (line : List Char) :
    ∃ ending, (∀ c ∈ ending, c = '\n') ∧ line = dropLineEnd line ++ ending := by
  rw [dropLineEnd]
  split_ifs with hEnd
  · refine ⟨['\n'], fun _ => List.mem_singleton.mp, ?_⟩
    exact (List.dropLast_append_getLast? _ hEnd).symm
  · exact ⟨[], List.forall_mem_nil _, (List.append_nil line).symm⟩

/-- A tag line comes down to the tag. -/
theorem trimChars_of_isTagLine {line : List Char} (h : isTagLine line = true) :
    Text.trimChars line = languageTag := by
  obtain ⟨ending, hEnding, hLine⟩ := exists_append_dropLineEnd line
  obtain ⟨before, after, hBefore, hAfter, hText⟩ :=
    Text.exists_margins_of_dropWhile isSpace (dropLineEnd line)
  have hTag : ((dropLineEnd line).dropWhile isSpace).rdropWhile isSpace = languageTag :=
    beq_iff_eq.mp h
  have hBlank (c : Char) (hc : isSpace c = true) : Text.isBlank c = true := by
    rcases Bool.or_eq_true_iff.mp hc with hSpace | hTab
    · rw [beq_iff_eq.mp hSpace]
      decide
    · rw [beq_iff_eq.mp hTab]
      decide
  have hMargin : ∀ c ∈ after ++ ending, Text.isBlank c = true := by
    intro c hc
    rcases List.mem_append.mp hc with hSpace | hBreak
    · exact hBlank c (hAfter c hSpace)
    · rw [hEnding c hBreak]
      decide
  rw [hLine, hText, hTag, List.append_assoc,
    Text.trimChars_margins (fun c hc => hBlank c (hBefore c hc)) hMargin]
  decide

theorem isContent_of_isBlank {c : Char} (h : Text.isBlank c = true) : isContent c = false := by
  rw [isContent, h]
  rfl

/-- A tag line has no content. -/
theorem filter_removeTagLines (text : List Char) :
    (removeTagLines text).filter isContent = text.filter isContent := by
  conv_rhs => rw [← Text.flatten_pieces text]
  rw [removeTagLines]
  induction Text.pieces text with
  | nil => rfl
  | cons line lines ih =>
      rw [List.flatten_cons, List.filter_append, ← ih]
      cases hTag : isTagLine line with
      | false =>
          rw [List.filter_cons_of_pos (by simp [hTag]), List.flatten_cons, List.filter_append]
      | true =>
          have hNone : line.filter isContent = [] := by
            rw [← Text.filter_trimChars fun _ => isContent_of_isBlank, trimChars_of_isTagLine hTag]
            decide
          rw [List.filter_cons_of_neg (by simp [hTag]), hNone, List.nil_append]

end TagLines

theorem toList_clean (raw : String) :
    (clean raw).toList = Text.trimChars (removeTagLines (removeFences raw.toList)) :=
  String.toList_ofList

/-- A cleaned comment is free of fences, since neither of the later steps can make one. -/
theorem not_hasFence_clean (raw : String) : ¬HasFence (clean raw).toList := by
  intro hFence
  have hLines := not_hasFence_removeTagLines (unfenced_removeFences raw.toList).not_hasFence
  apply hLines
  rw [toList_clean] at hFence
  exact hFence.trans (Text.trimChars_infix_self _)

/-- No fence is left in a cleaned comment. Cleaning only takes characters away, and none that
belongs to the comment wherever it stands. -/
theorem clean_free_of_fences (raw : String) :
    ¬fence <:+: (clean raw).toList ∧ (clean raw).toList.Sublist raw.toList ∧
      (clean raw).toList.filter isContent = raw.toList.filter isContent := by
  have hUnfenced := unfenced_removeFences raw.toList
  refine ⟨not_hasFence_clean raw, ?_, ?_⟩
  · rw [toList_clean]
    exact ((Text.trimChars_infix_self _).sublist.trans (removeTagLines_sublist _)).trans
      hUnfenced.sublist
  · calc (clean raw).toList.filter isContent
        = (removeTagLines (removeFences raw.toList)).filter isContent := by
          rw [toList_clean, Text.filter_trimChars fun _ => isContent_of_isBlank]
      _ = (removeFences raw.toList).filter isContent := filter_removeTagLines _
      _ = raw.toList.filter isContent := hUnfenced.filter_isContent

/-- A text of which cleaning takes nothing away. -/
structure IsClean (text : List Char) : Prop where
  noFence : ¬HasFence text
  noTagLine : ∀ line ∈ Text.pieces text, isTagLine line = false
  trimmed : Text.trimChars text = text

/-- Cleaning takes nothing away from a clean comment, and from no other. -/
theorem clean_eq_self_iff (text : String) : clean text = text ↔ IsClean text.toList := by
  have hUnfenced := unfenced_removeFences text.toList
  rw [← String.toList_inj, toList_clean]
  constructor
  · intro h
    -- No step takes anything away, since none of them could put it back.
    have hTags := removeTagLines_sublist (removeFences text.toList)
    have hTrim := (Text.trimChars_infix_self (removeTagLines (removeFences text.toList))).sublist
    rw [h] at hTrim
    have hSame : removeFences text.toList = text.toList :=
      hUnfenced.sublist.antisymm (hTrim.trans hTags)
    rw [hSame] at h hTags hTrim hUnfenced
    have hLines := hTags.antisymm hTrim
    rw [hLines] at h
    exact ⟨hUnfenced.not_hasFence, removeTagLines_eq_self_iff.mp hLines, h⟩
  · intro h
    rw [hUnfenced.eq_of_not_hasFence h.noFence, removeTagLines_eq_self_iff.mpr h.noTagLine,
      h.trimmed]

/-- Cleaning again takes something away only if a tag line was left. -/
theorem clean_clean_eq_iff (raw : String) :
    clean (clean raw) = clean raw ↔
      ∀ line ∈ Text.pieces (clean raw).toList, isTagLine line = false := by
  rw [clean_eq_self_iff]
  constructor
  · intro h
    exact h.noTagLine
  · intro h
    refine ⟨not_hasFence_clean raw, h, ?_⟩
    rw [toList_clean, Text.trimChars_trimChars]

/-- Each line of a cleaned comment comes from a line that is no tag line. It is this line unless it
is the first or the last one, and this line up to blanks in any case. -/
theorem exists_line_of_clean {raw : String} {line : List Char} {before after : List (List Char)}
    (h : Text.pieces (clean raw).toList = before ++ line :: after) :
    ∃ whole ∈ Text.pieces (removeFences raw.toList), isTagLine whole = false ∧
      Text.trimChars whole = Text.trimChars line ∧ (before ≠ [] → after ≠ [] → whole = line) := by
  rw [toList_clean] at h
  obtain ⟨front, back, hFront, hBack, hText⟩ :=
    Text.exists_margins (removeTagLines (removeFences raw.toList))
  obtain ⟨left, right, hMem, hLeft, hRight, hFirst, hLast⟩ := Text.exists_piece_of_part front back h
  rw [← hText, removeTagLines, Text.pieces_flatten_filter] at hMem
  obtain ⟨hLine, hKept⟩ := List.mem_filter.mp hMem
  refine ⟨left ++ line ++ right, hLine, by simpa using hKept, ?_, ?_⟩
  · exact Text.trimChars_margins (fun c hc => hFront c (hLeft c hc))
      (fun c hc => hBack c (hRight c hc)) line
  · intro hBefore hAfter
    rw [hFirst hBefore, hLast hAfter, List.nil_append, List.append_nil]

/-- Whether each line that holds nothing but the tag and blanks is a tag line, so that the blanks in
it are spaces and tabs. -/
def TagsArePlain (text : List Char) : Prop :=
  ∀ line ∈ Text.pieces text, Text.trimChars line = languageTag → isTagLine line = true

instance (text : List Char) : Decidable (TagsArePlain text) :=
  List.decidableBAll (fun line => Text.trimChars line = languageTag → isTagLine line = true) _

/-- Cleaning a cleaned comment takes nothing more away, unless a tag line is left in it. This can
only be its first or its last line, which has come to be a tag line by trimming, and it does not
happen if tags stand between spaces and tabs alone. -/
theorem clean_clean_unless_tagLine_left (raw : String) :
    ¬HasFence (clean raw).toList ∧
      (clean (clean raw) = clean raw ↔
        ∀ line ∈ Text.pieces (clean raw).toList, isTagLine line = false) ∧
      (∀ before line after, Text.pieces (clean raw).toList = before ++ line :: after →
        isTagLine line = true → before = [] ∨ after = []) ∧
      (TagsArePlain (removeFences raw.toList) → clean (clean raw) = clean raw) := by
  refine ⟨not_hasFence_clean raw, clean_clean_eq_iff raw, ?_, ?_⟩
  · intro before line after hLines hTag
    obtain ⟨whole, -, hKept, -, hInner⟩ := exists_line_of_clean hLines
    by_contra hBetween
    obtain ⟨hBefore, hAfter⟩ := not_or.mp hBetween
    rw [hInner hBefore hAfter, hTag] at hKept
    cases hKept
  · intro hPlain
    rw [clean_clean_eq_iff]
    intro line hLine
    obtain ⟨before, after, hLines⟩ := List.append_of_mem hLine
    obtain ⟨whole, hWhole, hKept, hTrim, -⟩ := exists_line_of_clean hLines
    cases hTag : isTagLine line with
    | false => rfl
    | true =>
        rw [hPlain whole hWhole (hTrim.trans (trimChars_of_isTagLine hTag))] at hKept
        cases hKept

/-- A comment in fences, one of which is followed by a tag. -/
def fencedComment : String := "```\n java\t\n/** Stops. */\n```java"

/-- A comment with a tag after it and with line breaks of two characters. -/
def trailingTag : String := "/** Stops. */\r\njava\r\n"

theorem clean_clean_unless_tagLine_left_fencedComment :
    TagsArePlain (removeFences fencedComment.toList) ∧
      clean (clean fencedComment) = clean fencedComment ∧
      Text.pieces (clean trailingTag).toList =
        ["/** Stops. */\r\n".toList] ++ languageTag :: [] ∧
      isTagLine languageTag = true ∧
      (["/** Stops. */\r\n".toList] = [] ∨ ([] : List (List Char)) = []) := by
  have hPlain : TagsArePlain (removeFences fencedComment.toList) := by decide
  have hLines : Text.pieces (clean trailingTag).toList =
      ["/** Stops. */\r\n".toList] ++ languageTag :: [] := by decide
  have hTag : isTagLine languageTag = true := by decide
  obtain ⟨-, -, -, hAgain⟩ := clean_clean_unless_tagLine_left fencedComment
  obtain ⟨-, -, hEnds, -⟩ := clean_clean_unless_tagLine_left trailingTag
  exact ⟨hPlain, hAgain hPlain, hLines, hTag, hEnds _ _ _ hLines hTag⟩

/-- A tag line that is left is taken away the next time. -/
theorem clean_clean_ne_trailingTag :
    clean trailingTag = "/** Stops. */\r\njava" ∧
      clean (clean trailingTag) = "/** Stops. */" ∧
      clean (clean trailingTag) ≠ clean trailingTag := by
  decide

end JavaOutline.Doc
