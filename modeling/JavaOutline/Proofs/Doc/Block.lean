import JavaOutline.Doc.Comment
import JavaOutline.Proofs.Text.Trim

/-! Comments as blocks of lines. A block is made of the rows of its comment, which are the trimmed
lines of the trimmed text, each between its padding and a line break. Neither the padding nor the
breaks are part of a row, so a block that is read as a comment has the rows that it was made of, and
the indentation that it had before is forgotten. -/
namespace JavaOutline.Doc

/-- The rows of a comment: what its lines come down to without the blanks around them. -/
def rows (comment : List Char) : List (List Char) :=
  (Text.splitLines (Text.trimChars comment)).map Text.trimChars

/-- The spaces before every row of a block. -/
def padding (indent : Nat) : List Char := List.replicate indent ' '

def padded (indent : Nat) (row : List Char) : List Char := padding indent ++ row ++ ['\n']

/-- A block consists of the rows of its comment, each with its padding. -/
theorem blockLines_eq (comment : List Char) (indent : Nat) :
    blockLines comment indent = (rows comment).map (padded indent) := by
  rw [rows, List.map_map]
  rfl

theorem isBlank_of_mem_padding (indent : Nat) :
    ∀ c ∈ padding indent, Text.isBlank c = true := by
  intro c hc
  rw [List.eq_of_mem_replicate hc]
  decide

theorem isBlank_of_mem_newline : ∀ c ∈ ['\n'], Text.isBlank c = true :=
  List.forall_mem_singleton.mpr (by decide)

/-- Padding is taken away with the other blanks of a line. -/
theorem trimChars_padding_append (indent : Nat) (row : List Char) :
    Text.trimChars (padding indent ++ row) = Text.trimChars row := by
  have hMargins :=
    Text.trimChars_margins (isBlank_of_mem_padding indent) (List.forall_mem_nil _) row
  rwa [List.append_nil] at hMargins

/-- Whether lines are the rows of a comment: no row has blanks at its ends or a break in it, and the
first and the last row hold something unless there is a single empty one. -/
structure AreRows (texts : List (List Char)) : Prop where
  trimmed : ∀ row ∈ texts, Text.trimChars row = row
  unbroken : ∀ row ∈ texts, '\n' ∉ row
  framed : texts = [[]] ∨
    ∃ first rest, texts = first :: rest ∧ first ≠ [] ∧ texts.getLast? ≠ some []

/-- The rows of any comment are trimmed and unbroken. -/
theorem areRows_rows (comment : List Char) : AreRows (rows comment) where
  trimmed row hRow := by
    obtain ⟨line, -, rfl⟩ := List.mem_map.mp hRow
    exact Text.trimChars_trimChars line
  unbroken row hRow hMem := by
    obtain ⟨line, hLine, rfl⟩ := List.mem_map.mp hRow
    exact Text.newline_notMem_of_mem_splitLines hLine (Text.mem_of_mem_trimChars hMem)
  framed := by
    obtain ⟨hHead, hLast⟩ := Text.trimChars_eq_self_iff.mp (Text.trimChars_trimChars comment)
    rw [rows]
    generalize Text.trimChars comment = text at hHead hLast
    cases text with
    | nil => exact .inl rfl
    | cons c cs =>
        right
        -- The text begins and ends with characters that trimming its first and last line keeps.
        have hFirst : Text.isBlank c = false := hHead c rfl
        obtain ⟨line, others, hLines⟩ := Text.exists_splitLines_cons (Text.ne_newline hFirst) cs
        refine ⟨Text.trimChars (c :: line), others.map Text.trimChars, by rw [hLines]; rfl,
          Text.trimChars_ne_nil List.mem_cons_self hFirst, ?_⟩
        obtain ⟨front, d, hConcat⟩ := (List.eq_nil_or_concat' (c :: cs)).resolve_left
          (List.cons_ne_nil c cs)
        rw [hConcat] at hLast ⊢
        have hEnd : Text.isBlank d = false := hLast d List.getLast?_concat
        obtain ⟨before, last, hSplit⟩ := Text.exists_splitLines_concat (Text.ne_newline hEnd) front
        rw [hSplit, List.map_append, List.map_singleton, List.getLast?_concat]
        intro hNone
        exact Text.trimChars_ne_nil (List.mem_append_right _ (List.mem_singleton_self d)) hEnd
          (Option.some.inj hNone)

/-- Rows one below the other, all but the first with padding before them. -/
def stacked (indent : Nat) (first : List Char) (rest : List (List Char)) : List Char :=
  first ++ rest.flatMap fun row => '\n' :: (padding indent ++ row)

theorem stacked_cons (indent : Nat) (first row : List Char) (rest : List (List Char)) :
    stacked indent first (row :: rest) =
      first ++ '\n' :: (padding indent ++ stacked indent row rest) := by
  simp [stacked]

theorem flatten_map_padded (indent : Nat) (first : List Char) (rest : List (List Char)) :
    ((first :: rest).map (padded indent)).flatten =
      padding indent ++ stacked indent first rest ++ ['\n'] := by
  induction rest generalizing first with
  | nil => simp [padded, stacked]
  | cons row rest ih =>
      rw [List.map_cons, List.flatten_cons, ih, stacked_cons, padded]
      simp

/-- Rows that stand one below the other are divided again by their line breaks. -/
theorem splitLines_stacked {indent : Nat} {first : List Char} {rest : List (List Char)}
    (h : ∀ row ∈ first :: rest, '\n' ∉ row) :
    Text.splitLines (stacked indent first rest) = first :: rest.map (padding indent ++ ·) := by
  have hPadding : '\n' ∉ padding indent := by simp [padding]
  have hTail (front : List Char) (hFront : '\n' ∉ front) :
      Text.splitLines (front ++ stacked indent first rest) =
        (front ++ first) :: rest.map (padding indent ++ ·) := by
    induction rest generalizing front first with
    | nil =>
        have hFirst := h first List.mem_cons_self
        rw [stacked, List.flatMap_nil, List.append_nil, Text.splitLines_last (by simp [*])]
        rfl
    | cons row rest ih =>
        obtain ⟨hFirst, hRest⟩ := List.forall_mem_cons.mp h
        rw [stacked_cons, ← List.append_assoc, Text.splitLines_ended (by simp [*]),
          ih hRest _ hPadding]
        rfl
  exact hTail [] List.not_mem_nil

/-- The last row stands at the end. -/
theorem suffix_stacked (indent : Nat) {first last : List Char} {rest : List (List Char)}
    (h : (first :: rest).getLast? = some last) : last <:+ stacked indent first rest := by
  induction rest generalizing first with
  | nil =>
      obtain rfl : first = last := by simpa using h
      simp [stacked]
  | cons row rest ih =>
      rw [List.getLast?_cons_cons] at h
      rw [stacked_cons, List.append_cons, ← List.append_assoc]
      exact (ih h).trans (List.suffix_append _ _)

/-- Rows that hold something at both ends lose nothing when they are trimmed together. -/
theorem trimChars_stacked {indent : Nat} {first last : List Char} {rest : List (List Char)}
    (hTrimmed : ∀ row ∈ first :: rest, Text.trimChars row = row) (hFirst : first ≠ [])
    (hLast : (first :: rest).getLast? = some last) (hNonempty : last ≠ []) :
    Text.trimChars (stacked indent first rest) = stacked indent first rest := by
  rw [Text.trimChars_eq_self_iff]
  constructor
  · rw [stacked, List.head?_append_of_ne_nil _ hFirst]
    exact (Text.trimChars_eq_self_iff.mp (hTrimmed first List.mem_cons_self)).1
  · obtain ⟨front, hFront⟩ := suffix_stacked indent hLast
    rw [← hFront, List.getLast?_append_of_ne_nil _ hNonempty]
    exact (Text.trimChars_eq_self_iff.mp (hTrimmed last (List.mem_of_getLast? hLast))).2

/-- A block that is read as a comment has the rows that it was made of. -/
theorem rows_flatten_padded {texts : List (List Char)} (h : AreRows texts) (indent : Nat) :
    rows (texts.map (padded indent)).flatten = texts := by
  obtain rfl | ⟨first, rest, rfl, hFirst, hLast⟩ := h.framed
  · rw [flatten_map_padded, rows,
      Text.trimChars_margins (isBlank_of_mem_padding indent) isBlank_of_mem_newline]
    rfl
  · obtain ⟨last, hEnd⟩ : ∃ last, (first :: rest).getLast? = some last :=
      ⟨_, List.getLast?_eq_some_getLast (List.cons_ne_nil first rest)⟩
    have hNonempty : last ≠ [] := fun hNone => hLast (hNone ▸ hEnd)
    obtain ⟨hFirstTrimmed, hRestTrimmed⟩ := List.forall_mem_cons.mp h.trimmed
    have hRest : (rest.map (padding indent ++ ·)).map Text.trimChars = rest := by
      rw [List.map_map]
      refine (List.map_congr_left fun row hRow => ?_).trans (List.map_id rest)
      exact (trimChars_padding_append indent row).trans (hRestTrimmed row hRow)
    rw [flatten_map_padded, rows,
      Text.trimChars_margins (isBlank_of_mem_padding indent) isBlank_of_mem_newline,
      trimChars_stacked h.trimmed hFirst hEnd hNonempty, splitLines_stacked h.unbroken,
      List.map_cons, hFirstTrimmed, hRest]

/-- Every line of a comment is padded with the given number of spaces, and nothing else is before
its text. -/
theorem mem_blockLines {comment : List Char} {indent : Nat} {line : List Char}
    (h : line ∈ blockLines comment indent) :
    ∃ text, line = List.replicate indent ' ' ++ text ++ ['\n'] ∧ '\n' ∉ text ∧
      Text.trimChars text = text := by
  rw [blockLines_eq] at h
  obtain ⟨row, hRow, rfl⟩ := List.mem_map.mp h
  exact ⟨row, rfl, (areRows_rows comment).unbroken row hRow,
    (areRows_rows comment).trimmed row hRow⟩

/-- Only the padding of a block depends on the indentation, so a block can be indented anew. -/
theorem blockLines_flatten_blockLines (comment : List Char) (i j : Nat) :
    blockLines (blockLines comment i).flatten j = blockLines comment j := by
  rw [blockLines_eq comment i, blockLines_eq, rows_flatten_padded (areRows_rows comment),
    blockLines_eq]

/-- A block holds everything that its comment holds but blanks. -/
theorem filter_flatten_blockLines (comment : List Char) (indent : Nat) :
    ((blockLines comment indent).flatten.filter fun c => !Text.isBlank c) =
      comment.filter fun c => !Text.isBlank c := by
  have hBlank (c : Char) (h : Text.isBlank c = true) : (!Text.isBlank c) = false := by rw [h]; rfl
  have hEach : (fun line => (padded indent (Text.trimChars line)).filter fun c => !Text.isBlank c) =
      fun line => line.filter fun c => !Text.isBlank c := by
    funext line
    rw [padded, List.filter_append, List.filter_append, Text.filter_trimChars hBlank,
      Text.filter_margin hBlank (isBlank_of_mem_padding indent),
      Text.filter_margin hBlank isBlank_of_mem_newline, List.nil_append, List.append_nil]
  rw [blockLines_eq, rows, List.map_map, List.filter_flatten, List.map_map]
  change ((Text.splitLines (Text.trimChars comment)).map fun line =>
    (padded indent (Text.trimChars line)).filter fun c => !Text.isBlank c).flatten = _
  rw [hEach, ← List.filter_flatten, Text.filter_flatten_splitLines (by decide),
    Text.filter_trimChars hBlank]

theorem toList_join_block (comment : String) (indent : UInt32) :
    (String.join (block comment indent)).toList =
      (blockLines comment.toList indent.toNat).flatten := by
  rw [String.toList_join, block, List.flatMap_map, List.flatten_eq_flatMap]
  apply List.flatMap_congr
  intro line _
  exact String.toList_ofList

/-- A block forgets the indentation of the block that it is made from. It has at least one line, and
each of its lines is a trimmed text between its padding and the only line break. Of the comment
nothing is lost but blanks, and nothing is added to it but blanks. -/
theorem block_join_block (comment : String) (i j : UInt32) :
    block (String.join (block comment i)) j = block comment j ∧ block comment j ≠ [] ∧
      (∀ line ∈ block comment j, line.toList.count '\n' = 1 ∧
        ∃ text : String, line = String.ofList (List.replicate j.toNat ' ') ++ text ++ "\n" ∧
          '\n' ∉ text.toList ∧ Text.trim text = text) ∧
      ((String.join (block comment j)).toList.filter fun c => !Text.isBlank c) =
        comment.toList.filter fun c => !Text.isBlank c := by
  refine ⟨?_, ?_, ?_, ?_⟩
  · rw [block, toList_join_block, blockLines_flatten_blockLines, block]
  · intro hNone
    have hLength := congrArg List.length hNone
    rw [block, blockLines, List.length_map, List.length_map, Text.length_splitLines] at hLength
    cases hLength
  · intro line hLine
    obtain ⟨chars, hChars, rfl⟩ := List.mem_map.mp hLine
    obtain ⟨text, rfl, hBreak, hTrimmed⟩ := mem_blockLines hChars
    refine ⟨?_, String.ofList text, ?_, ?_, ?_⟩
    · simp [List.count_append, List.count_replicate, List.count_eq_zero.mpr hBreak]
    · simp [String.ofList_append, String.append_assoc]
    · rwa [String.toList_ofList]
    · rw [Text.trim, String.toList_ofList, hTrimmed]
  · rw [toList_join_block, filter_flatten_blockLines]

theorem block_join_block_boxed :
    "    * Stops.\n" ∈ block "/**\n\t * Stops.\r\n */\n" 4 ∧
      ("    * Stops.\n".toList.count '\n' = 1 ∧
        ∃ text : String,
          "    * Stops.\n" = String.ofList (List.replicate 4 ' ') ++ text ++ "\n" ∧
            '\n' ∉ text.toList ∧ Text.trim text = text) ∧
      block (String.join (block "/**\n\t * Stops.\r\n */\n" 9)) 4 =
        ["    /**\n", "    * Stops.\n", "    */\n"] := by
  have hBlock : block "/**\n\t * Stops.\r\n */\n" 4 =
      ["    /**\n", "    * Stops.\n", "    */\n"] := by decide
  have hMem : "    * Stops.\n" ∈ block "/**\n\t * Stops.\r\n */\n" 4 := by
    rw [hBlock]
    decide
  obtain ⟨hAgain, -, hEach, -⟩ := block_join_block "/**\n\t * Stops.\r\n */\n" 9 4
  exact ⟨hMem, hEach _ hMem, hAgain.trans hBlock⟩

end JavaOutline.Doc
