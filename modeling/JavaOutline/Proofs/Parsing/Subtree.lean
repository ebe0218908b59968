import JavaOutline.Parsing.Subtree
import JavaOutline.Proofs.Automaton.Table
import Mathlib.Data.List.TakeWhile

/-! Trees under construction whose price tells of the mistakes in them. Outside of mistakes, a tree
has a price exactly if one of its parts has one; a mistake has one always, and shows in the finished
tree. Nothing is asked of what lies in a mistake but of the extras in it, since these can be taken
out again. -/
namespace JavaOutline.Parsing.Subtree

open Automaton

/-- A tree that has a price exactly if there is a mistake in it. -/
inductive Sound (table : Table) : Subtree → Prop where
  | mistake {i : SubtreeInfo} {cs : List Subtree} (isError : i.symbol = table.error)
      (hasPrice : 0 < i.cost) (extras : ∀ c ∈ cs, c.info.extra = true → Sound table c) :
      Sound table (.mk i cs)
  | missing {i : SubtreeInfo} (isMissing : i.missing = true) (shows : (table.info i.symbol).visible)
      (symbol : i.symbol ≠ table.error ∧ i.symbol ≠ table.errorRun) : Sound table (.mk i [])
  | plain {i : SubtreeInfo} {cs : List Subtree} (present : i.missing = false)
      (symbol : i.symbol ≠ table.error ∧ i.symbol ≠ table.errorRun)
      (price : 0 < i.cost ↔ ∃ c ∈ cs, 0 < c.cost) (parts : ∀ c ∈ cs, Sound table c) :
      Sound table (.mk i cs)

/-- What may lie in a mistake: if it is an extra it is sound. -/
def Part (table : Table) (t : Subtree) : Prop := t.info.extra = true → Sound table t

/-- What may be the whole tree of a text. -/
def Settled (table : Table) (t : Subtree) : Prop :=
  t.symbol = table.error ∧ 0 < t.info.cost ∨ Sound table t

/-- A token that was read. -/
structure IsToken (t : Subtree) : Prop where
  children : t.children = []
  present : t.info.missing = false
  cost : t.info.cost = 0

variable {table : Table} {t : Subtree}

/-- A token that is assumed has a price of its own. -/
theorem cost_pos_iff : 0 < t.cost ↔ t.info.missing = true ∨ 0 < t.info.cost := by
  rw [cost, costPerMissing]
  split_ifs with hMissing
  · exact iff_of_true (by omega) (.inl hMissing)
  · rw [or_iff_right hMissing]

theorem Sound.part (h : Sound table t) : Part table t := fun _ => h

/-- Soundness does not depend on what is known about a tree besides its symbol, its price and
whether it is missing. -/
theorem Sound.congr {i j : SubtreeInfo} {cs : List Subtree} (h : Sound table (.mk i cs))
    (hSymbol : j.symbol = i.symbol) (hMissing : j.missing = i.missing) (hCost : j.cost = i.cost) :
    Sound table (.mk j cs) := by
  cases h with
  | mistake isError hasPrice extras => exact .mistake (hSymbol ▸ isError) (hCost ▸ hasPrice) extras
  | missing isMissing shows symbol =>
      exact .missing (hMissing ▸ isMissing) (hSymbol ▸ shows) (hSymbol ▸ symbol)
  | plain present symbol price parts =>
      exact .plain (hMissing ▸ present) (hSymbol ▸ symbol) (hCost ▸ price) parts

theorem Sound.withExtra (h : Sound table t) (extra : Bool) : Sound table (t.withExtra extra) := by
  cases t with
  | mk i cs => exact h.congr rfl rfl rfl

theorem Sound.addDynamic (h : Sound table t) (d : Int) : Sound table (t.addDynamic d) := by
  cases t with
  | mk i cs => exact h.congr rfl rfl rfl

/-- What a sound tree consists of may lie in a mistake. -/
theorem Sound.part_of_mem_children (h : Sound table t) {c : Subtree} (hc : c ∈ t.children) :
    Part table c := by
  cases h with
  | mistake _ _ extras => exact extras c hc
  | missing => cases hc
  | plain _ _ _ parts => exact (parts c hc).part

/-- Only a mistake has parts that need not be sound. -/
theorem Sound.of_mem_children (h : Sound table t) (hSymbol : t.symbol ≠ table.error) {c : Subtree}
    (hc : c ∈ t.children) : Sound table c := by
  cases h with
  | mistake isError => exact absurd isError hSymbol
  | missing => cases hc
  | plain _ _ _ parts => exact parts c hc

theorem Sound.symbol_ne_errorRun (hTable : table.WellFormed) (h : Sound table t) :
    t.symbol ≠ table.errorRun := by
  cases h with
  | mistake isError =>
      intro hRun
      exact (Nat.ne_of_gt hTable.errorRun_lt) (isError.symm.trans hRun)
  | missing _ _ symbol => exact symbol.2
  | plain _ symbol => exact symbol.2

theorem IsToken.withSymbol (h : IsToken t) (symbol : Nat) : IsToken (t.withSymbol symbol) := by
  cases t with
  | mk i cs => exact ⟨h.children, h.present, h.cost⟩

theorem isToken_leaf (symbol : Nat) (padding size : Extent) (state : Nat) (keyword : Bool) :
    IsToken (leaf symbol padding size state keyword) :=
  ⟨rfl, rfl, rfl⟩

/-- A token of the grammar that was read has no price and no parts. -/
theorem IsToken.sound (hTable : table.WellFormed) (h : IsToken t)
    (hSymbol : t.symbol < table.tokenCount) : Sound table t := by
  cases t with
  | mk i cs =>
      obtain ⟨hChildren, hPresent, hCost⟩ := h
      obtain rfl : cs = [] := hChildren
      have hFree : ¬ 0 < i.cost := by
        rw [show i.cost = 0 from hCost]
        exact Nat.lt_irrefl 0
      exact .plain hPresent (hTable.ne_of_lt hSymbol) (by simp [hFree]) (by simp)

theorem sound_missingLeaf (hTable : table.WellFormed) {token : Nat} (h : token ∈ table.assumable) :
    Sound table (missingLeaf token) :=
  .missing rfl (Table.mem_assumable h).2 (hTable.ne_of_lt (Table.mem_assumable h).1)

section Nodes

variable {renames : List (Option String)} {cs : List Subtree}

/-- Children change nothing but the sums that are kept in a node. -/
theorem addChildren_fields (table : Table) (renames : List (Option String)) (cs : List Subtree)
    (place : Nat) (i : SubtreeInfo) :
    (addChildren table renames cs place i).symbol = i.symbol ∧
      (addChildren table renames cs place i).missing = i.missing ∧
      (addChildren table renames cs place i).extra = i.extra := by
  induction cs generalizing place i with
  | nil => exact ⟨rfl, rfl, rfl⟩
  | cons c cs ih =>
      rw [addChildren]
      exact ih _ _

/-- Where nothing is skipped, a child adds its own price. -/
theorem cost_addChild {i : SubtreeInfo} {c : Subtree}
    (hPlain : i.symbol ≠ table.error ∧ i.symbol ≠ table.errorRun)
    (hChild : c.symbol ≠ table.errorRun) (place : Nat) :
    (addChild table renames i place c).cost = i.cost + c.cost := by
  have hRun : c.info.symbol ≠ table.errorRun := hChild
  simp [addChild, hPlain, hRun]

theorem cost_addChildren_pos {i : SubtreeInfo} (place : Nat)
    (hPlain : i.symbol ≠ table.error ∧ i.symbol ≠ table.errorRun)
    (hChildren : ∀ c ∈ cs, c.symbol ≠ table.errorRun) :
    0 < (addChildren table renames cs place i).cost ↔ 0 < i.cost ∨ ∃ c ∈ cs, 0 < c.cost := by
  induction cs generalizing place i with
  | nil => simp [addChildren]
  | cons c cs ih =>
      have hNext : (addChild table renames i place c).symbol ≠ table.error ∧
          (addChild table renames i place c).symbol ≠ table.errorRun := hPlain
      rw [addChildren, ih _ hNext fun d hd => hChildren d (List.mem_cons_of_mem c hd),
        cost_addChild hPlain (hChildren c List.mem_cons_self), Nat.add_pos_iff_pos_or_pos,
        or_assoc, List.exists_mem_cons_iff]

theorem symbol_node (table : Table) (symbol : Nat) (cs : List Subtree) (shape : Nat) :
    (node table symbol cs shape).symbol = symbol := by
  rw [node]
  split_ifs
  · exact (addChildren_fields table _ cs 0 _).1
  · exact (addChildren_fields table _ cs 0 _).1

theorem extra_node (symbol : Nat) (cs : List Subtree) (shape : Nat) :
    (node table symbol cs shape).info.extra = false := by
  rw [node]
  split_ifs
  · exact (addChildren_fields table _ cs 0 _).2.2
  · exact (addChildren_fields table _ cs 0 _).2.2

/-- What is made of parts is no extra. -/
theorem part_node (symbol : Nat) (cs : List Subtree) (shape : Nat) :
    Part table (node table symbol cs shape) := by
  intro hExtra
  rw [extra_node] at hExtra
  cases hExtra

theorem Part.addDynamic (h : Part table t) (d : Int) : Part table (t.addDynamic d) := by
  cases t with
  | mk i cs => exact fun hExtra => (h hExtra).addDynamic d

/-- Whatever has been skipped has a price. -/
theorem cost_node_error (table : Table) (cs : List Subtree) (shape : Nat) :
    0 < (node table table.error cs shape).info.cost := by
  rw [node, if_pos (by simp)]
  simp only [info, costPerRecovery]
  omega

theorem settled_node_error (cs : List Subtree) (shape : Nat) :
    Settled table (node table table.error cs shape) :=
  .inl ⟨symbol_node table _ _ _, cost_node_error table cs shape⟩

theorem sound_node_error {shape : Nat} (h : ∀ c ∈ cs, Part table c) :
    Sound table (node table table.error cs shape) := by
  obtain ⟨i, hi⟩ : ∃ i, node table table.error cs shape = .mk i cs := ⟨_, rfl⟩
  have hSymbol : i.symbol = table.error := by
    have hNode := symbol_node table table.error cs shape
    rw [hi] at hNode
    exact hNode
  have hCost : 0 < i.cost := by
    have hNode := cost_node_error table cs shape
    rw [hi] at hNode
    exact hNode
  rw [hi]
  exact .mistake hSymbol hCost h

/-- A node of sound parts is sound, unless it is a run of skipped tokens. -/
theorem sound_node (hTable : table.WellFormed) {symbol shape : Nat}
    (hRun : symbol ≠ table.errorRun) (h : ∀ c ∈ cs, Sound table c) :
    Sound table (node table symbol cs shape) := by
  by_cases hError : symbol = table.error
  · rw [hError]
    exact sound_node_error fun c hc => (h c hc).part
  · have hPlain : symbol ≠ table.error ∧ symbol ≠ table.errorRun := ⟨hError, hRun⟩
    rw [node, if_neg (by simp [hError, hRun])]
    obtain ⟨hSymbol, hMissing, -⟩ := addChildren_fields table
      (table.shapes.getD shape default).renames cs 0
      { symbol, shape, padding := Extent.zero, size := Extent.zero }
    apply Sound.plain
    · exact hMissing
    · rw [hSymbol]
      exact hPlain
    · rw [cost_addChildren_pos 0 hPlain fun c hc => (h c hc).symbol_ne_errorRun hTable]
      simp
    · exact h

end Nodes

section TrailingExtras

variable {trees : List Subtree}

theorem splitTrailingExtras_append (trees : List Subtree) :
    (splitTrailingExtras trees).1 ++ (splitTrailingExtras trees).2 = trees := by
  rw [splitTrailingExtras, ← List.reverse_append, List.takeWhile_append_dropWhile,
    List.reverse_reverse]

theorem mem_of_mem_fst_splitTrailingExtras (h : t ∈ (splitTrailingExtras trees).1) : t ∈ trees := by
  rw [← splitTrailingExtras_append trees]
  exact List.mem_append_left _ h

theorem mem_of_mem_snd_splitTrailingExtras (h : t ∈ (splitTrailingExtras trees).2) : t ∈ trees := by
  rw [← splitTrailingExtras_append trees]
  exact List.mem_append_right _ h

theorem extra_of_mem_splitTrailingExtras (h : t ∈ (splitTrailingExtras trees).2) :
    t.info.extra = true := by
  have hExtra := List.mem_takeWhile_imp (List.mem_reverse.mp h)
  exact hExtra

/-- A part that is no extra is not split off. -/
theorem splitTrailingExtras_concat (h : t.info.extra = false) :
    splitTrailingExtras (trees ++ [t]) = (trees ++ [t], []) := by
  simp [splitTrailingExtras, h]

end TrailingExtras

end JavaOutline.Parsing.Subtree
