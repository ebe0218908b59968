import JavaOutline.Proofs.Syntax.Address
import JavaOutline.Syntax.Mistake

/-! The lines of the mistakes in a text. Only flagged parts of the tree are looked into. Nothing is
lost by that if a part is flagged whenever there is a mistake in it, and a flagged text has a line
to report if a part is flagged only then. For the latter it is enough that this holds of the parts
that lie in no mistake. -/
namespace JavaOutline.Syntax

/-- Dropping repeats loses no line. -/
theorem mem_dropRepeats {line : UInt32} {lines : List UInt32} :
    line ∈ dropRepeats lines ↔ line ∈ lines := by
  fun_induction dropRepeats lines with
  | case1 a rest ih => simp [ih]
  | case2 a b rest hne ih => rw [List.mem_cons, ih, ← List.mem_cons]
  | case3 short => rfl

/-- Of ascending lines each is left once. -/
theorem pairwise_dropRepeats {lines : List UInt32} (h : lines.Pairwise (· ≤ ·)) :
    (dropRepeats lines).Pairwise (· < ·) := by
  fun_induction dropRepeats lines with
  | case1 a rest ih => exact ih h.tail
  | case2 a b rest hne ih =>
      have hFirst : a < b :=
        UInt32.lt_of_le_of_ne (List.rel_of_pairwise_cons h List.mem_cons_self) hne
      apply List.Pairwise.cons _ (ih h.tail)
      intro line hLine
      rcases List.mem_cons.mp (mem_dropRepeats.mp hLine) with rfl | hRest
      · exact hFirst
      · exact UInt32.lt_of_lt_of_le hFirst (List.rel_of_pairwise_cons h.tail hRest)
  | case3 short hShort =>
      cases short with
      | nil => exact .nil
      | cons a rest =>
          cases rest with
          | nil => exact List.pairwise_singleton _ a
          | cons b rest => exact absurd rfl (hShort a b rest)

namespace Node

/-- Ordering the lines loses none and adds none. -/
theorem mem_errorLines {root : Node} {line : UInt32} :
    line ∈ root.errorLines ↔ line ∈ root.mistakeLines := by
  rw [errorLines, mem_dropRepeats, List.mem_mergeSort]

/-- The lines reported are in ascending order, each once. -/
theorem pairwise_errorLines (root : Node) : root.errorLines.Pairwise (· < ·) := by
  have hTrans (a b c : UInt32) (hab : decide (a ≤ b) = true) (hbc : decide (b ≤ c) = true) :
      decide (a ≤ c) = true :=
    decide_eq_true (UInt32.le_trans (of_decide_eq_true hab) (of_decide_eq_true hbc))
  have hTotal (a b : UInt32) : (decide (a ≤ b) || decide (b ≤ a)) = true := by
    rw [Bool.or_eq_true, decide_eq_true_eq, decide_eq_true_eq]
    exact UInt32.le_total a b
  apply pairwise_dropRepeats
  apply (List.pairwise_mergeSort hTrans hTotal root.mistakeLines).imp
  intro a b hab
  exact of_decide_eq_true hab

/-- A child is looked into only if it is flagged or missing. -/
theorem mistakeLinesOf_cons (c : Node) (cs : List Node) :
    mistakeLinesOf (c :: cs) =
      (if c.info.flagged || c.info.isMissing then c.mistakeLines else []) ++
        mistakeLinesOf cs := by
  cases c with
  | mk i children => rw [mistakeLinesOf, mistakeLines, info]

/-- What is found among siblings is found in one that is looked into. -/
theorem mem_mistakeLinesOf {line : UInt32} {cs : List Node} :
    line ∈ mistakeLinesOf cs ↔
      ∃ c ∈ cs, (c.info.flagged || c.info.isMissing) = true ∧ line ∈ c.mistakeLines := by
  induction cs with
  | nil => simp [mistakeLinesOf]
  | cons c cs ih =>
      rw [mistakeLinesOf_cons, List.mem_append, ih, List.exists_mem_cons_iff]
      apply or_congr_left
      split_ifs with hLooked <;> simp [hLooked]

/-- The walk finds a node that is a mistake, and what it finds in the children that it looks
into. -/
theorem mem_mistakeLines_mk {line : UInt32} {i : NodeInfo} {cs : List Node} :
    line ∈ (mk i cs).mistakeLines ↔
      (mk i cs).isMistake = true ∧ line = lineNumber i.start.row ∨
        ∃ c ∈ cs, (c.info.flagged || c.info.isMissing) = true ∧ line ∈ c.mistakeLines := by
  rw [mistakeLines, List.mem_append, mem_mistakeLinesOf, isMistake, info]
  apply or_congr_left
  split_ifs with hMistake <;> simp [hMistake]

/-- Whether there is a mistake in a tree, at its root or below it. -/
def ContainsMistake (root : Node) : Prop := ∃ a n, root.at? a = some n ∧ n.isMistake = true

/-- Whether there is a mistake can be told from the list of all nodes. -/
theorem containsMistake_iff {root : Node} :
    root.ContainsMistake ↔ ∃ n ∈ root.postorder.filterMap root.at?, n.isMistake = true := by
  rw [← not_iff_not]
  simpa only [ContainsMistake, not_exists, not_and] using
    forall_at?_iff (p := fun n => ¬ n.isMistake = true)

instance (root : Node) : Decidable root.ContainsMistake :=
  decidable_of_iff _ containsMistake_iff.symm

/-- Whether each node of a tree is flagged exactly if it is a mistake or has one below it. -/
def FlagsMistakes (root : Node) : Prop :=
  ∀ a n, root.at? a = some n → (n.info.flagged = true ↔ n.ContainsMistake)

instance (root : Node) : Decidable root.FlagsMistakes :=
  decidable_of_iff _
    (forall_at?_iff (p := fun n => n.info.flagged = true ↔ n.ContainsMistake)).symm

/-- Whether no node above the one at an address is a mistake. -/
def OutsideMistakes (root : Node) (a : Address) : Prop :=
  ∀ b ∈ ancestors a, ∀ m, root.at? b = some m → m.isMistake = false

/-- Whether each node that lies in no mistake is flagged exactly if it is a mistake or has one below
it. How the nodes inside of a mistake are flagged is left open. -/
def FlagsOutside (root : Node) : Prop :=
  ∀ a n, root.at? a = some n → root.OutsideMistakes a →
    (n.info.flagged = true ↔ n.ContainsMistake)

theorem FlagsMistakes.flagsOutside {root : Node} (h : root.FlagsMistakes) : root.FlagsOutside :=
  fun a n hn _ => h a n hn

section Flags

variable {root : Node}

/-- A node in a child lies in no mistake if it lies in none there and the parent is none. -/
theorem OutsideMistakes.child {i : NodeInfo} {cs : List Node} {c : Node} {k : Nat} {a : Address}
    (hNone : (mk i cs).isMistake = false) (hc : cs[k]? = some c) (h : c.OutsideMistakes a) :
    (mk i cs).OutsideMistakes (k :: a) := by
  intro b hb m hm
  rcases List.mem_cons.mp hb with hRoot | hBelow
  · rw [hRoot, at?_nil, Option.some.injEq] at hm
    rw [← hm, hNone]
  · obtain ⟨inside, hInside, hAddress⟩ := List.mem_map.mp hBelow
    rw [← hAddress, at?_child hc] at hm
    exact h inside hInside m hm

/-- The root is flagged exactly if there is a mistake. -/
theorem FlagsOutside.hasMistakes_iff (h : root.FlagsOutside) :
    root.hasMistakes = true ↔ root.ContainsMistake :=
  h [] root (at?_nil root) fun _ hAbove => absurd hAbove List.not_mem_nil

/-- The children of what is no mistake are flagged as they should be if it is. -/
theorem FlagsOutside.child {i : NodeInfo} {cs : List Node} {c : Node} {k : Nat}
    (h : (mk i cs).FlagsOutside) (hNone : (mk i cs).isMistake = false) (hc : cs[k]? = some c) :
    c.FlagsOutside := by
  intro a n hn hOutside
  exact h (k :: a) n ((at?_child hc a).trans hn) (hOutside.child hNone hc)

theorem FlagsMistakes.hasMistakes_iff (h : root.FlagsMistakes) :
    root.hasMistakes = true ↔ root.ContainsMistake := h [] root (at?_nil root)

theorem FlagsMistakes.child {i : NodeInfo} {cs : List Node} {c : Node} {k : Nat}
    (h : (mk i cs).FlagsMistakes) (hc : cs[k]? = some c) : c.FlagsMistakes := by
  intro a n hn
  exact h (k :: a) n ((at?_child hc a).trans hn)

/-- A mistake in what is none itself is in one of the children. -/
theorem exists_child_of_containsMistake {i : NodeInfo} {cs : List Node}
    (hNone : (mk i cs).isMistake = false) (h : (mk i cs).ContainsMistake) :
    ∃ (c : Node) (k : Nat), cs[k]? = some c ∧ c.ContainsMistake := by
  obtain ⟨a, n, hn, hIs⟩ := h
  cases a with
  | nil =>
      rw [at?_nil, Option.some.injEq] at hn
      rw [← hn, hNone] at hIs
      cases hIs
  | cons k a =>
      obtain ⟨c, hc, hBelow⟩ := Option.bind_eq_some_iff.mp hn
      exact ⟨c, k, hc, a, n, hBelow, hIs⟩

/-- If the children are flagged as they should be, there is a mistake exactly where the root is one
or a child is flagged. -/
theorem containsMistake_mk_iff {i : NodeInfo} {cs : List Node}
    (h : (mk i cs).isMistake = false → ∀ c ∈ cs, c.FlagsOutside) :
    (mk i cs).ContainsMistake ↔ (mk i cs).isMistake = true ∨ ∃ c ∈ cs, c.hasMistakes = true := by
  cases hIs : (mk i cs).isMistake with
  | true => exact iff_of_true ⟨[], _, at?_nil _, hIs⟩ (.inl rfl)
  | false =>
      simp only [Bool.false_eq_true, false_or]
      constructor
      · intro hMistake
        obtain ⟨c, k, hc, hIn⟩ := exists_child_of_containsMistake hIs hMistake
        have hChild : c.FlagsOutside := h hIs c (List.mem_of_getElem? hc)
        exact ⟨c, List.mem_of_getElem? hc, hChild.hasMistakes_iff.mpr hIn⟩
      · intro hMistake
        obtain ⟨c, hc, hFlagged⟩ := hMistake
        obtain ⟨k, hk⟩ := List.mem_iff_getElem?.mp hc
        obtain ⟨a, n, hn, hIn⟩ := (h hIs c hc).hasMistakes_iff.mp hFlagged
        exact ⟨k :: a, n, (at?_child hk a).trans hn, hIn⟩

/-- Whether a tree is flagged as it should be outside of mistakes can be told from its root and its
children. -/
theorem flagsOutside_mk_iff {i : NodeInfo} {cs : List Node} :
    (mk i cs).FlagsOutside ↔
      (i.flagged = true ↔ (mk i cs).isMistake = true ∨ ∃ c ∈ cs, c.hasMistakes = true) ∧
        ((mk i cs).isMistake = false → ∀ c ∈ cs, c.FlagsOutside) := by
  constructor
  · intro h
    have hChildren : (mk i cs).isMistake = false → ∀ c ∈ cs, c.FlagsOutside := by
      intro hNone c hc
      obtain ⟨k, hk⟩ := List.mem_iff_getElem?.mp hc
      exact h.child hNone hk
    exact ⟨h.hasMistakes_iff.trans (containsMistake_mk_iff hChildren), hChildren⟩
  · intro h
    obtain ⟨hRoot, hChildren⟩ := h
    intro a n hn hOutside
    cases a with
    | nil =>
        rw [at?_nil, Option.some.injEq] at hn
        rw [← hn]
        exact hRoot.trans (containsMistake_mk_iff hChildren).symm
    | cons k a =>
        obtain ⟨c, hc, hBelow⟩ := Option.bind_eq_some_iff.mp hn
        have hNone : (mk i cs).isMistake = false := hOutside [] List.mem_cons_self _ (at?_nil _)
        apply hChildren hNone c (List.mem_of_getElem? hc) a n hBelow
        intro b hb m hm
        apply hOutside (k :: b)
        · exact cons_mem_ancestors_cons.mpr ⟨rfl, hb⟩
        · exact (at?_child hc b).trans hm

/-- Whatever the walk finds is a mistake of the tree, however the tree is flagged. -/
theorem exists_of_mem_mistakeLines {line : UInt32} (hLine : line ∈ root.mistakeLines) :
    ∃ a n, root.at? a = some n ∧ n.isMistake = true ∧ line = lineNumber n.info.start.row := by
  induction root using Node.induct with
  | step i cs ih =>
      rcases mem_mistakeLines_mk.mp hLine with ⟨hMistake, hRow⟩ | ⟨c, hc, -, hInside⟩
      · exact ⟨[], mk i cs, at?_nil _, hMistake, hRow⟩
      · obtain ⟨k, hk⟩ := List.mem_iff_getElem?.mp hc
        obtain ⟨a, n, hn, hFound⟩ := ih c hc hInside
        exact ⟨k :: a, n, (at?_child hk a).trans hn, hFound⟩

/-- If there is a mistake in the tree, the walk finds one, since it gets at least as far as the
first mistake on the way to it. -/
theorem FlagsOutside.exists_mem_mistakeLines (h : root.FlagsOutside)
    (hMistake : root.ContainsMistake) : ∃ line, line ∈ root.mistakeLines := by
  induction root using Node.induct with
  | step i cs ih =>
      cases hIs : (mk i cs).isMistake with
      | true => exact ⟨_, mem_mistakeLines_mk.mpr (.inl ⟨hIs, rfl⟩)⟩
      | false =>
          obtain ⟨c, k, hc, hBelow⟩ := exists_child_of_containsMistake hIs hMistake
          have hChild : c.FlagsOutside := h.child hIs hc
          have hFlagged : c.info.flagged = true := hChild.hasMistakes_iff.mpr hBelow
          obtain ⟨line, hLine⟩ := ih c (List.mem_of_getElem? hc) hChild hBelow
          refine ⟨line, mem_mistakeLines_mk.mpr (.inr ⟨c, List.mem_of_getElem? hc, ?_, hLine⟩)⟩
          rw [hFlagged, Bool.true_or]

/-- If each mistake is flagged in all nodes above it, the walk gets to every mistake. -/
theorem FlagsMistakes.mem_mistakeLines (h : root.FlagsMistakes) {a : Address} {n : Node}
    (hn : root.at? a = some n) (hMistake : n.isMistake = true) :
    lineNumber n.info.start.row ∈ root.mistakeLines := by
  induction a generalizing root with
  | nil =>
      cases root with
      | mk i cs =>
          rw [at?_nil, Option.some.injEq] at hn
          subst hn
          exact mem_mistakeLines_mk.mpr (.inl ⟨hMistake, rfl⟩)
  | cons k a ih =>
      cases root with
      | mk i cs =>
          obtain ⟨c, hc, hBelow⟩ := Option.bind_eq_some_iff.mp hn
          have hFlagged : c.info.flagged = true :=
            (h.child hc).hasMistakes_iff.mpr ⟨a, n, hBelow, hMistake⟩
          apply mem_mistakeLines_mk.mpr
          exact .inr ⟨c, List.mem_of_getElem? hc, by rw [hFlagged, Bool.true_or],
            ih (h.child hc) hBelow⟩

/-- The lines reported for a tree are those of all its mistakes. -/
theorem FlagsMistakes.mem_errorLines_iff (h : root.FlagsMistakes) {line : UInt32} :
    line ∈ root.errorLines ↔
      ∃ a n, root.at? a = some n ∧ n.isMistake = true ∧ line = lineNumber n.info.start.row := by
  rw [mem_errorLines]
  constructor
  · exact exists_of_mem_mistakeLines
  · intro hMistake
    obtain ⟨a, n, hn, hIs, hRow⟩ := hMistake
    rw [hRow]
    exact h.mem_mistakeLines hn hIs

/-- A tree is flagged exactly if there is a line to report. The walk finds at least the mistakes
that lie in no other, and if there is any mistake, then there is one of these. -/
theorem FlagsOutside.hasMistakes_iff_errorLines (h : root.FlagsOutside) :
    root.hasMistakes = true ↔ root.errorLines ≠ [] := by
  constructor
  · intro hFlagged
    obtain ⟨line, hLine⟩ := h.exists_mem_mistakeLines (h.hasMistakes_iff.mp hFlagged)
    exact List.ne_nil_of_mem (mem_errorLines.mpr hLine)
  · intro hReported
    obtain ⟨line, hLine⟩ := List.exists_mem_of_ne_nil _ hReported
    obtain ⟨a, n, hn, hIs, -⟩ := exists_of_mem_mistakeLines (mem_errorLines.mp hLine)
    exact h.hasMistakes_iff.mpr ⟨a, n, hn, hIs⟩

/-- The lines reported are numbers of lines if these fit into 32 bits. -/
theorem FlagsMistakes.mem_map_toNat_errorLines_iff (h : root.FlagsMistakes)
    (hFits : ∀ a n, root.at? a = some n → n.isMistake = true → n.info.start.row + 1 < UInt32.size)
    {line : Nat} :
    line ∈ root.errorLines.map UInt32.toNat ↔
      ∃ a n, root.at? a = some n ∧ n.isMistake = true ∧ line = n.info.start.row + 1 := by
  rw [List.mem_map]
  constructor
  · intro hReported
    obtain ⟨number, hNumber, hLine⟩ := hReported
    obtain ⟨a, n, hn, hIs, hRow⟩ := h.mem_errorLines_iff.mp hNumber
    refine ⟨a, n, hn, hIs, ?_⟩
    rw [← hLine, hRow, toNat_lineNumber (hFits a n hn hIs)]
  · intro hMistake
    obtain ⟨a, n, hn, hIs, hLine⟩ := hMistake
    refine ⟨lineNumber n.info.start.row, h.mem_errorLines_iff.mpr ⟨a, n, hn, hIs, rfl⟩, ?_⟩
    rw [hLine, toNat_lineNumber (hFits a n hn hIs)]

end Flags

end Node

end JavaOutline.Syntax
