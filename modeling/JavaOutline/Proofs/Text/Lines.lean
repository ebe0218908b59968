import JavaOutline.Text.Lines
import JavaOutline.Proofs.Text.Utf8
import Mathlib.Data.List.Basic
import Mathlib.Data.List.Infix
import Mathlib.Data.List.TakeWhile

/-! The lines of a text, and where a byte of the text lies among them. Counting the line breaks
before a byte gives the number of its line, and counting the bytes since the last line break gives
its place in the line. -/
namespace JavaOutline.Text

/-- To prove something of every text, prove it of the empty text, of a single line without an end,
and of an ended line before a text that has it. -/
theorem lines_induct {motive : List Char → Prop} (nil : motive [])
    (last : ∀ line, line ≠ [] → '\n' ∉ line → motive line)
    (ended : ∀ line rest, '\n' ∉ line → motive rest → motive (line ++ '\n' :: rest))
    (cs : List Char) : motive cs := by
  induction hLength : cs.length using Nat.strongRecOn generalizing cs with
  | ind n ih =>
      by_cases hMem : '\n' ∈ cs
      · obtain ⟨line, rest, rfl, hLine⟩ := List.eq_append_cons_of_mem hMem
        refine ended line rest hLine (ih rest.length ?_ rest rfl)
        simp only [List.length_append, List.length_cons] at hLength
        omega
      · by_cases hEmpty : cs = []
        · exact hEmpty ▸ nil
        · exact last cs hEmpty hMem

/-- A line that is ended is the first piece. -/
theorem pieces_ended {line : List Char} (h : '\n' ∉ line) (rest : List Char) :
    pieces (line ++ '\n' :: rest) = (line ++ ['\n']) :: pieces rest := by
  induction line with
  | nil => rfl
  | cons c line ih =>
      simp only [List.mem_cons, not_or] at h
      rw [List.cons_append, pieces, if_neg (Ne.symm h.1), ih h.2]
      rfl

theorem pieces_last {line : List Char} (hLine : line ≠ []) (h : '\n' ∉ line) :
    pieces line = [line] := by
  induction line with
  | nil => exact (hLine rfl).elim
  | cons c line ih =>
      simp only [List.mem_cons, not_or] at h
      rw [pieces, if_neg (Ne.symm h.1)]
      cases line with
      | nil => rfl
      | cons d line => rw [ih (by simp) h.2]

/-- Nothing is lost when a text is divided into lines. -/
theorem flatten_pieces (cs : List Char) : (pieces cs).flatten = cs := by
  induction cs using lines_induct with
  | nil => rfl
  | last line hLine h => rw [pieces_last hLine h]; simp
  | ended line rest h ih => rw [pieces_ended h, List.flatten_cons, ih]; simp

/-- Some lines of a text are the lines of the text that they make. -/
theorem pieces_flatten_filter (keep : List Char → Bool) (cs : List Char) :
    pieces ((pieces cs).filter keep).flatten = (pieces cs).filter keep := by
  induction cs using lines_induct with
  | nil => rfl
  | last line hLine h =>
      rw [pieces_last hLine h, List.filter_singleton]
      cases keep line with
      | false => rfl
      | true => simp [pieces_last hLine h]
  | ended line rest h ih =>
      rw [pieces_ended h, List.filter_cons]
      split_ifs with hKeep
      · rw [List.flatten_cons, List.append_assoc, List.singleton_append, pieces_ended h, ih]
      · exact ih

/-- What has no line break does not lie on both sides of one. -/
theorem infix_of_infix_append_newline {w line rest : List Char} (hw : '\n' ∉ w)
    (h : w <:+: line ++ '\n' :: rest) : w <:+: line ∨ w <:+: rest := by
  have hEmpty {v : List Char} (hv : '\n' ∉ v) (hFront : v <+: '\n' :: rest) : v = [] := by
    cases v with
    | nil => rfl
    | cons c v =>
        rw [List.cons_prefix_cons] at hFront
        exact (hv (hFront.1 ▸ List.mem_cons_self)).elim
  induction line with
  | nil =>
      rcases List.infix_cons_iff.mp h with hFront | hRest
      · rw [hEmpty hw hFront]
        exact .inl List.nil_infix
      · exact .inr hRest
  | cons c line ih =>
      rcases List.infix_cons_iff.mp h with hFront | hLater
      · left
        -- It begins with the line, or it is the beginning of the line.
        rcases List.prefix_or_prefix_of_prefix hFront (List.prefix_append (c :: line) _) with
          hShort | hLong
        · exact hShort.isInfix
        · obtain ⟨v, rfl⟩ := hLong
          have hv : v = [] := by
            apply hEmpty fun hMem => hw (List.mem_append_right _ hMem)
            exact (List.prefix_append_right_inj (c :: line)).mp hFront
          rw [hv, List.append_nil]
      · exact (ih hLater).imp_left List.infix_cons

/-- What has no line break lies within a line of the text. -/
theorem exists_piece_of_infix {w cs : List Char} (hw : '\n' ∉ w) (hNonempty : w ≠ [])
    (h : w <:+: cs) : ∃ line ∈ pieces cs, w <:+: line := by
  induction cs using lines_induct with
  | nil => exact (hNonempty (List.infix_nil.mp h)).elim
  | last line hLine hBreak =>
      rw [pieces_last hLine hBreak]
      exact ⟨line, List.mem_singleton_self line, h⟩
  | ended line rest hBreak ih =>
      rw [pieces_ended hBreak]
      rcases infix_of_infix_append_newline hw h with hHere | hLater
      · exact ⟨_, List.mem_cons_self, hHere.trans (List.prefix_append _ _).isInfix⟩
      · obtain ⟨other, hOther, hMem⟩ := ih hLater
        exact ⟨other, List.mem_cons_of_mem _ hOther, hMem⟩

/-- What stands before a part of a text can only lengthen the first line of the part. -/
theorem exists_pieces_before (front : List Char) {part line : List Char}
    {before after : List (List Char)} (h : pieces part = before ++ line :: after) :
    ∃ others left, pieces (front ++ part) = others ++ (left ++ line) :: after ∧
      (∀ c ∈ left, c ∈ front) ∧ (before ≠ [] → left = [] ∧ others ≠ []) := by
  induction front with
  | nil => exact ⟨before, [], h, List.forall_mem_nil _, fun hBefore => ⟨rfl, hBefore⟩⟩
  | cons c front ih =>
      obtain ⟨others, left, hPieces, hLeft, hFirst⟩ := ih
      have hMore : ∀ d ∈ left, d ∈ c :: front := fun d hd => List.mem_cons_of_mem c (hLeft d hd)
      rw [List.cons_append, pieces, hPieces]
      split_ifs with hBreak
      · exact ⟨[c] :: others, left, rfl, hMore,
          fun hBefore => ⟨(hFirst hBefore).1, List.cons_ne_nil _ _⟩⟩
      · cases others with
        | nil =>
            refine ⟨[], c :: left, rfl, ?_, fun hBefore => ((hFirst hBefore).2 rfl).elim⟩
            exact List.forall_mem_cons.mpr ⟨List.mem_cons_self, hMore⟩
        | cons other others =>
            exact ⟨(c :: other) :: others, left, rfl, hMore,
              fun hBefore => ⟨(hFirst hBefore).1, List.cons_ne_nil _ _⟩⟩

/-- A line that is not ended goes on in what stands after it. -/
theorem exists_pieces_open {line : List Char} (hLine : line ≠ []) (hBreak : '\n' ∉ line)
    (back : List Char) :
    ∃ right others, pieces (line ++ back) = (line ++ right) :: others ∧
      ∀ c ∈ right, c ∈ back := by
  by_cases hMem : '\n' ∈ back
  · obtain ⟨right, rest, rfl, hRight⟩ := List.eq_append_cons_of_mem hMem
    have hOpen : '\n' ∉ line ++ right := by simp [hBreak, hRight]
    refine ⟨right ++ ['\n'], pieces rest, ?_, ?_⟩
    · rw [← List.append_assoc, pieces_ended hOpen, List.append_assoc]
    · intro c hc
      rw [List.append_cons]
      exact List.mem_append_left rest hc
  · have hOpen : '\n' ∉ line ++ back := by simp [hBreak, hMem]
    exact ⟨back, [], pieces_last (by simp [hLine]) hOpen, fun _ hc => hc⟩

/-- What stands after a part of a text can only lengthen the last line of the part. -/
theorem exists_pieces_after (back : List Char) {part line : List Char}
    {before after : List (List Char)} (h : pieces part = before ++ line :: after) :
    ∃ right others, pieces (part ++ back) = before ++ (line ++ right) :: others ∧
      (∀ c ∈ right, c ∈ back) ∧ (after ≠ [] → right = []) := by
  induction part using lines_induct generalizing before with
  | nil => simp [pieces] at h
  | last only hOnly hBreak =>
      rw [pieces_last hOnly hBreak, List.singleton_eq_append_iff] at h
      obtain ⟨rfl, hLast⟩ | ⟨-, hNone⟩ := h
      · obtain ⟨rfl, rfl⟩ := List.cons_eq_cons.mp hLast
        obtain ⟨right, others, hPieces, hRight⟩ := exists_pieces_open hOnly hBreak back
        exact ⟨right, others, hPieces, hRight, fun hAfter => (hAfter rfl).elim⟩
      · exact (List.cons_ne_nil _ _ hNone).elim
  | ended first rest hBreak ih =>
      rw [pieces_ended hBreak] at h
      rw [List.append_assoc, List.cons_append, pieces_ended hBreak]
      cases before with
      | nil =>
          obtain ⟨rfl, rfl⟩ := List.cons_eq_cons.mp h
          exact ⟨[], pieces (rest ++ back), by simp, List.forall_mem_nil _, fun _ => rfl⟩
      | cons other before =>
          obtain ⟨rfl, hRest⟩ := List.cons_eq_cons.mp h
          obtain ⟨right, others, hPieces, hRight⟩ := ih hRest
          exact ⟨right, others, by rw [hPieces, List.cons_append], hRight⟩

/-- A line of a part of a text is a line of the text, up to what stands before the part if it is the
first line of the part, and up to what stands after the part if it is the last one. -/
theorem exists_piece_of_part (front back : List Char) {part line : List Char}
    {before after : List (List Char)} (h : pieces part = before ++ line :: after) :
    ∃ left right, left ++ line ++ right ∈ pieces (front ++ part ++ back) ∧
      (∀ c ∈ left, c ∈ front) ∧ (∀ c ∈ right, c ∈ back) ∧
      (before ≠ [] → left = []) ∧ (after ≠ [] → right = []) := by
  obtain ⟨others, left, hFront, hLeft, hFirst⟩ := exists_pieces_before front h
  obtain ⟨right, rest, hPieces, hRight, hLast⟩ := exists_pieces_after back hFront
  refine ⟨left, right, ?_, hLeft, hRight, fun hBefore => (hFirst hBefore).1, hLast⟩
  rw [hPieces]
  exact List.mem_append_right _ List.mem_cons_self

/-- What comes before the first line break is the first line. -/
theorem splitLines_ended {line : List Char} (h : '\n' ∉ line) (rest : List Char) :
    splitLines (line ++ '\n' :: rest) = line :: splitLines rest := by
  induction line with
  | nil => rfl
  | cons c line ih =>
      simp only [List.mem_cons, not_or] at h
      rw [List.cons_append, splitLines, if_neg (Ne.symm h.1), ih h.2]

theorem splitLines_last {line : List Char} (h : '\n' ∉ line) : splitLines line = [line] := by
  induction line with
  | nil => rfl
  | cons c line ih =>
      simp only [List.mem_cons, not_or] at h
      rw [splitLines, if_neg (Ne.symm h.1), ih h.2]

/-- There is one line more than line breaks. -/
theorem length_splitLines (cs : List Char) : (splitLines cs).length = cs.count '\n' + 1 := by
  induction cs with
  | nil => rfl
  | cons c cs ih =>
      rw [splitLines]
      split_ifs with hBreak
      · rw [List.length_cons, ih, hBreak, List.count_cons_self]
      · rw [List.count_cons_of_ne hBreak, ← ih]
        -- There is at least one stretch, so the character joins one that is there.
        cases hRest : splitLines cs with
        | nil => simp [hRest] at ih
        | cons line lines => rfl

theorem newline_notMem_of_mem_splitLines {cs line : List Char} (h : line ∈ splitLines cs) :
    '\n' ∉ line := by
  induction cs generalizing line with
  | nil =>
      obtain rfl : line = [] := by simpa [splitLines] using h
      simp
  | cons c cs ih =>
      rw [splitLines] at h
      split_ifs at h with hBreak
      · rcases List.mem_cons.mp h with rfl | hRest
        · simp
        · exact ih hRest
      · cases hRest : splitLines cs with
        | nil =>
            obtain rfl : line = [c] := by simpa [hRest] using h
            simpa [eq_comm] using hBreak
        | cons first others =>
            rw [hRest] at h ih
            rcases List.mem_cons.mp h with rfl | hOther
            · simpa [eq_comm, hBreak] using ih List.mem_cons_self
            · exact ih (List.mem_cons_of_mem _ hOther)

/-- A character that is no line break belongs to the first line. -/
theorem exists_splitLines_cons {c : Char} (hc : c ≠ '\n') (cs : List Char) :
    ∃ line others, splitLines (c :: cs) = (c :: line) :: others := by
  rw [splitLines, if_neg hc]
  cases splitLines cs with
  | nil => exact ⟨[], [], rfl⟩
  | cons line others => exact ⟨line, others, rfl⟩

/-- A character that is no line break belongs to the last line. -/
theorem exists_splitLines_concat {c : Char} (hc : c ≠ '\n') (cs : List Char) :
    ∃ others line, splitLines (cs ++ [c]) = others ++ [line ++ [c]] := by
  induction cs with
  | nil => exact ⟨[], [], by simp [splitLines, hc]⟩
  | cons d cs ih =>
      obtain ⟨others, line, hLines⟩ := ih
      rw [List.cons_append, splitLines, hLines]
      split_ifs with hBreak
      · exact ⟨[] :: others, line, rfl⟩
      · cases others with
        | nil => exact ⟨[], d :: line, rfl⟩
        | cons other others => exact ⟨(d :: other) :: others, line, rfl⟩

/-- Nothing but the line breaks is lost between the stretches. -/
theorem filter_flatten_splitLines {p : Char → Bool} (hp : p '\n' = false) (cs : List Char) :
    (splitLines cs).flatten.filter p = cs.filter p := by
  induction cs with
  | nil => rfl
  | cons c cs ih =>
      rw [splitLines]
      split_ifs with hBreak
      · rw [List.flatten_cons, List.nil_append, ih, hBreak, List.filter_cons_of_neg (by simp [hp])]
      · rw [List.filter_cons, ← ih]
        cases splitLines cs with
        | nil => simp [List.filter_cons]
        | cons line others =>
            simp only [List.flatten_cons, List.cons_append, List.filter_cons]

def newline : UInt8 := 0x0A

def bytesOf (cs : List Char) : List UInt8 := cs.flatMap String.utf8EncodeChar

@[simp] theorem bytesOf_nil : bytesOf [] = [] := rfl

@[simp] theorem bytesOf_append (a b : List Char) : bytesOf (a ++ b) = bytesOf a ++ bytesOf b :=
  List.flatMap_append

theorem bytesOf_newline_cons (cs : List Char) : bytesOf ('\n' :: cs) = newline :: bytesOf cs := rfl

/-- The byte of a line break occurs in the form of no other character. -/
theorem newline_notMem_bytesOf {cs : List Char} (h : '\n' ∉ cs) : newline ∉ bytesOf cs := by
  intro hMem
  obtain ⟨c, hc, hByte⟩ := List.mem_flatMap.mp hMem
  have hNumber := toNat_eq_of_mem_utf8EncodeChar hByte (by decide)
  have hBreak : c = '\n' := Char.ext (UInt32.toNat_inj.mp hNumber)
  exact h (hBreak ▸ hc)

/-- How many bytes follow the last line break. -/
def columnAfter (bytes : List UInt8) : Nat := (bytes.reverse.takeWhile (· != newline)).length

theorem columnAfter_take_le (content : List UInt8) (k : Nat) :
    columnAfter (content.take k) ≤ k := by
  calc columnAfter (content.take k)
      ≤ (content.take k).reverse.length := (List.takeWhile_sublist _).length_le
    _ ≤ k := by
        rw [List.length_reverse]
        exact List.length_take_le _ _

theorem columnAfter_of_notMem {bytes : List UInt8} (h : newline ∉ bytes) :
    columnAfter bytes = bytes.length := by
  have hAll : ∀ b ∈ bytes.reverse, (b != newline) = true := by
    intro b hb
    rw [bne_iff_ne]
    rintro rfl
    exact h (List.mem_reverse.mp hb)
  rw [columnAfter, List.takeWhile_eq_self_iff.mpr hAll, List.length_reverse]

/-- Only what follows the last line break counts. -/
theorem columnAfter_append (before after : List UInt8) :
    columnAfter (before ++ newline :: after) = columnAfter after := by
  have hStop : (newline :: before.reverse).takeWhile (· != newline) = [] :=
    List.takeWhile_cons_of_neg (by simp)
  rw [columnAfter, columnAfter, List.reverse_append, List.reverse_cons, List.append_assoc,
    List.singleton_append, List.takeWhile_append, hStop]
  split_ifs with hAll
  · rw [List.append_nil, hAll]
  · rfl

/-- A byte of a text lies in the line whose number is that of the line breaks before the byte, and
in that line it follows as many bytes as there are since the last line break. -/
theorem exists_line_of_byte (cs : List Char) {k : Nat} (hk : k < (bytesOf cs).length) :
    ∃ line, (pieces cs)[((bytesOf cs).take k).count newline]? = some line ∧
      (bytesOf ((pieces cs).take (((bytesOf cs).take k).count newline)).flatten).length +
        columnAfter ((bytesOf cs).take k) = k ∧
      columnAfter ((bytesOf cs).take k) < (bytesOf line).length := by
  induction cs using lines_induct generalizing k with
  | nil => simp at hk
  | last line hLine h =>
      have hNone : newline ∉ (bytesOf line).take k :=
        fun hMem => newline_notMem_bytesOf h (List.mem_of_mem_take hMem)
      rw [List.count_eq_zero.mpr hNone, columnAfter_of_notMem hNone, pieces_last hLine h,
        List.length_take_of_le hk.le]
      exact ⟨line, rfl, by simp, hk⟩
  | ended line rest h ih =>
      have hNewline := newline_notMem_bytesOf h
      rw [bytesOf_append, bytesOf_newline_cons] at hk ⊢
      rw [pieces_ended h]
      by_cases hInside : k ≤ (bytesOf line).length
      · have hTake : (bytesOf line ++ newline :: bytesOf rest).take k = (bytesOf line).take k :=
          List.take_append_of_le_length hInside
        have hNone : newline ∉ (bytesOf line).take k :=
          fun hMem => hNewline (List.mem_of_mem_take hMem)
        rw [hTake, List.count_eq_zero.mpr hNone, columnAfter_of_notMem hNone,
          List.length_take_of_le hInside]
        refine ⟨line ++ ['\n'], rfl, by simp, ?_⟩
        rw [bytesOf_append, bytesOf_newline_cons, List.length_append]
        simp only [List.length_cons]
        omega
      · obtain ⟨j, rfl⟩ : ∃ j, k = (bytesOf line).length + 1 + j :=
          ⟨k - (bytesOf line).length - 1, by omega⟩
        have hTake : (bytesOf line ++ newline :: bytesOf rest).take
            ((bytesOf line).length + 1 + j) =
            bytesOf line ++ newline :: (bytesOf rest).take j := by
          rw [List.take_append, List.take_of_length_le (by omega)]
          have hLeft : (bytesOf line).length + 1 + j - (bytesOf line).length = j + 1 := by omega
          rw [hLeft, List.take_succ_cons]
        have hRest : j < (bytesOf rest).length := by
          simp only [List.length_append, List.length_cons] at hk
          omega
        have hCount : (bytesOf line ++ newline :: (bytesOf rest).take j).count newline =
            ((bytesOf rest).take j).count newline + 1 := by
          rw [List.count_append, List.count_eq_zero.mpr hNewline, List.count_cons_self]
          omega
        obtain ⟨found, hFound, hStart, hColumn⟩ := ih hRest
        rw [hTake, hCount, columnAfter_append]
        refine ⟨found, ?_, ?_, hColumn⟩
        · rw [List.getElem?_cons_succ, hFound]
        · rw [List.take_succ_cons, List.flatten_cons, bytesOf_append, bytesOf_append,
            bytesOf_newline_cons]
          simp only [List.length_append, List.length_cons, bytesOf_nil, List.length_nil]
          omega

end JavaOutline.Text
