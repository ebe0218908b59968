import JavaOutline.Proofs.Parsing.Parse
import JavaOutline.Proofs.Syntax.Mistake
import JavaOutline.Syntax.Java

/-! The tree of a Java text is flagged as it should be outside of mistakes. Whether a node is
flagged is told by its price, and a part has a price exactly if there is a mistake in it, whether
the part shows itself or its children move up into its place. -/
namespace JavaOutline.Syntax

open Automaton Parsing

variable {table : Table} {i : SubtreeInfo} {cs : List Subtree} {nodes : List Node}

section Names

variable {P : Node → Prop} {index : Option Nat}

/-- Marking a node as the name of its parent changes nothing but that mark. -/
theorem exists_mem_markName_iff
    (hMark : ∀ n, P (.mk { n.info with isName := true } n.children) ↔ P n) :
    (∃ n ∈ markName index nodes, P n) ↔ ∃ n ∈ nodes, P n := by
  cases index with
  | none => rfl
  | some k =>
      rw [markName]
      induction nodes generalizing k with
      | nil => rw [List.modify_nil]
      | cons n nodes ih =>
          cases k with
          | zero =>
              rw [List.modify_zero_cons, List.exists_mem_cons_iff, List.exists_mem_cons_iff, hMark]
          | succ k =>
              rw [List.modify_succ_cons, List.exists_mem_cons_iff, List.exists_mem_cons_iff, ih]

theorem forall_mem_markName (hMark : ∀ n, P (.mk { n.info with isName := true } n.children) ↔ P n)
    (h : ∀ n ∈ nodes, P n) : ∀ n ∈ markName index nodes, P n := by
  intro n hn
  by_contra hNot
  have hMarkNot (n : Node) : ¬P (.mk { n.info with isName := true } n.children) ↔ ¬P n :=
    not_congr (hMark n)
  obtain ⟨m, hm, hNotBefore⟩ : ∃ m ∈ nodes, ¬P m :=
    (exists_mem_markName_iff hMarkNot).mp ⟨n, hn, hNot⟩
  exact hNotBefore (h m hm)

end Names

section Parts

/-- What becomes of some parts: nodes that are flagged as they should be, and one with a mistake
exactly if a part has a price. -/
structure ShowsMistakes (cs : List Subtree) (nodes : List Node) : Prop where
  flags : ∀ n ∈ nodes, n.FlagsOutside
  price : (∃ n ∈ nodes, n.hasMistakes = true) ↔ ∃ c ∈ cs, 0 < c.cost

theorem ShowsMistakes.markName (h : ShowsMistakes cs nodes) (index : Option Nat) :
    ShowsMistakes cs (markName index nodes) := by
  constructor
  · apply forall_mem_markName _ h.flags
    intro n
    cases n with
    | mk i children => rw [Node.flagsOutside_mk_iff, Node.flagsOutside_mk_iff]; rfl
  · rw [exists_mem_markName_iff fun _ => Iff.rfl]
    exact h.price

theorem ShowsMistakes.append {rest : List Subtree} {others : List Node}
    (h : ShowsMistakes cs nodes) (hRest : ShowsMistakes rest others) :
    ShowsMistakes (cs ++ rest) (nodes ++ others) := by
  constructor
  · intro n hn
    exact (List.mem_append.mp hn).elim (h.flags n) (hRest.flags n)
  · simp only [List.mem_append, or_and_right, exists_or, h.price, hRest.price]

/-- A part with a price becomes a flagged node, and so does a token that is assumed. -/
theorem flagged_infoOf (cs : List Subtree) (rename : Option String) (before : Extent) :
    (infoOf table i rename before).flagged = true ↔ 0 < (Subtree.mk i cs).cost := by
  rw [Subtree.cost_pos_iff, infoOf, Bool.or_eq_true, decide_eq_true_eq, Subtree.info]

/-- What stands for a mistake is flagged as it should be, whatever is in it. -/
theorem flagsOutside_of_mistake (h : (i.symbol == table.error || i.missing) = true)
    (hPrice : 0 < (Subtree.mk i cs).cost) (rename : Option String) (before : Extent) :
    (Node.mk (infoOf table i rename before) nodes).FlagsOutside := by
  rw [Node.flagsOutside_mk_iff]
  constructor
  · exact iff_of_true ((flagged_infoOf cs rename before).mpr hPrice) (.inl h)
  · intro hNone
    cases h.symm.trans hNone

/-- What shows of a sound part is flagged as it should be, if what becomes of its children is. -/
theorem flagsOutside_of_sound (h : Subtree.Sound table (.mk i cs))
    (hNodes : (∀ c ∈ cs, Subtree.Sound table c) → ShowsMistakes cs nodes) (rename : Option String)
    (before : Extent) : (Node.mk (infoOf table i rename before) nodes).FlagsOutside := by
  cases h with
  | mistake isError hasPrice =>
      have hPrice : 0 < (Subtree.mk i cs).cost := Subtree.cost_pos_iff.mpr (.inr hasPrice)
      apply flagsOutside_of_mistake _ hPrice
      simp [isError]
  | missing isMissing =>
      have hPrice : 0 < (Subtree.mk i []).cost := Subtree.cost_pos_iff.mpr (.inl isMissing)
      apply flagsOutside_of_mistake _ hPrice
      simp [isMissing]
  | plain present symbol price parts =>
      have hShown := hNodes parts
      have hNone : (Node.mk (infoOf table i rename before) nodes).isMistake = false := by
        simp [Node.isMistake, infoOf, Node.info, present, symbol.1]
      rw [Node.flagsOutside_mk_iff, hNone]
      constructor
      · rw [flagged_infoOf cs, hShown.price, Subtree.cost_pos_iff]
        simp [Subtree.info, present, price]
      · exact fun _ => hShown.flags

/-- What does not show is no mistake, so that it has a price exactly if one of its parts has. -/
theorem sound_of_hidden (hTable : table.WellFormed) (h : Subtree.Sound table (.mk i cs))
    (hHidden : (table.info i.symbol).visible = false) :
    (∀ c ∈ cs, Subtree.Sound table c) ∧
      (0 < (Subtree.mk i cs).cost ↔ ∃ c ∈ cs, 0 < c.cost) := by
  cases h with
  | mistake isError =>
      rw [isError, hTable.visible_error] at hHidden
      cases hHidden
  | missing _ shows =>
      rw [shows] at hHidden
      cases hHidden
  | plain present symbol price parts =>
      apply And.intro parts
      rw [Subtree.cost_pos_iff, Subtree.info, present, price, or_iff_right Bool.false_ne_true]

/-- By induction on the parts and what is in them. -/
theorem showsMistakes_nodesOf (hTable : table.WellFormed) (renames : List (Option String))
    (cs : List Subtree) (place : Nat) (before : Extent) (h : ∀ c ∈ cs, Subtree.Sound table c) :
    ShowsMistakes cs (nodesOf table renames cs place before) := by
  fun_induction nodesOf table renames cs place before with
  | case1 => exact ⟨List.forall_mem_nil _, by simp⟩
  | case2 renames i cs rest place before shape inner here ihInner ihRest =>
      obtain ⟨hFirst, hRest⟩ := List.forall_mem_cons.mp h
      have hHere : ShowsMistakes [.mk i cs] here := by
        by_cases hShows : shows table renames i place = true
        · have hNodes : here = [Node.mk (infoOf table i (renameOf renames i place) before)
              (markName (nameIndex table (.mk i cs)) inner)] := dif_pos hShows
          rw [hNodes]
          constructor
          · rw [List.forall_mem_singleton]
            exact flagsOutside_of_sound hFirst (fun parts => (ihInner parts).markName _) _ _
          · simp only [List.mem_singleton, exists_eq_left]
            exact flagged_infoOf cs _ _
        · have hNodes : here = inner := dif_neg hShows
          have hHidden : (table.info i.symbol).visible = false := by
            rw [shows, Bool.or_eq_true, not_or, Bool.not_eq_true, Bool.not_eq_true] at hShows
            exact hShows.2
          obtain ⟨parts, hPrice⟩ := sound_of_hidden hTable hFirst hHidden
          rw [hNodes]
          constructor
          · exact (ihInner parts).flags
          · rw [(ihInner parts).price, ← hPrice]
            simp only [List.mem_singleton, exists_eq_left]
      exact hHere.append (ihRest hRest)

/-- A tree that the parser may come up with is flagged as it should be outside of mistakes. -/
theorem flagsOutside_ofSubtree (hTable : table.WellFormed) {t : Subtree}
    (h : Subtree.Settled table t) : (Node.ofSubtree table t).FlagsOutside := by
  cases t with
  | mk i cs =>
      rw [Node.ofSubtree]
      rcases h with hMistake | hSound
      · obtain ⟨isError, hasPrice⟩ := hMistake
        have hIs : (i.symbol == table.error || i.missing) = true := by
          rw [show i.symbol = table.error from isError, beq_self_eq_true, Bool.true_or]
        have hPrice : 0 < (Subtree.mk i cs).cost := Subtree.cost_pos_iff.mpr (.inr hasPrice)
        exact flagsOutside_of_mistake hIs hPrice none Extent.zero
      · apply flagsOutside_of_sound hSound
        intro parts
        exact (showsMistakes_nodesOf hTable _ cs 0 Extent.zero parts).markName _

/-- Whatever the text is, its tree is flagged as it should be outside of mistakes. -/
theorem Java.flagsOutside_of_parse {text : String} {root : Node}
    (h : Java.parse text = some root) : root.FlagsOutside := by
  have hTable : Java.table.WellFormed := Table.wellFormed_ofProductions _
  rw [Java.parse] at h
  obtain rfl := Option.some.inj h
  exact flagsOutside_ofSubtree hTable (Parse.settled_run hTable text)

end Parts

end JavaOutline.Syntax
