import JavaOutline.Symbol.Store
import Mathlib.Data.List.Basic
import Mathlib.Data.List.Nodup
import Mathlib.Data.List.Perm.Basic

/-! The symbols of a store, file by file and kind by kind. No symbol is lost in either way, and
within a group the order of the store is kept. To go through a store file by file is to go through
it in its own order only if the symbols of each file stand together. -/
namespace JavaOutline

/-- Where a single key of a list gives anything, going through the list gives that. -/
theorem flatMap_single {α β : Type} [DecidableEq α] {keys : List α} (h : keys.Nodup) (key : α)
    (f : α → List β) :
    (keys.flatMap fun k => if k = key then f k else []) = if key ∈ keys then f key else [] := by
  induction keys with
  | nil => rfl
  | cons k keys ih =>
      obtain ⟨hNew, hRest⟩ := List.nodup_cons.mp h
      rw [List.flatMap_cons, ih hRest]
      by_cases hKey : k = key
      · subst hKey
        rw [if_pos rfl, if_neg hNew, if_pos List.mem_cons_self, List.append_nil]
      · simp [hKey, Ne.symm hKey]

namespace Store

section FirstOccurrences

variable {seen l : List String}

theorem mem_firstOccurrences {a : String} :
    a ∈ firstOccurrences seen l ↔ a ∈ l ∧ a ∉ seen := by
  induction l generalizing seen with
  | nil => simp [firstOccurrences]
  | cons b l ih =>
      rw [firstOccurrences]
      split_ifs with hSeen
      · rw [ih, List.mem_cons]
        apply and_congr_left
        intro hNew
        have hNe : a ≠ b := fun h => hNew (h ▸ hSeen)
        simp [hNe]
      · rw [List.mem_cons, ih, List.mem_cons, List.mem_cons]
        by_cases hNe : a = b
        · simp [hNe, hSeen]
        · simp [hNe]

theorem ne_of_mem_firstOccurrences {a b : String} (hSeen : b ∈ seen)
    (ha : a ∈ firstOccurrences seen l) : b ≠ a := by
  intro hSame
  exact (mem_firstOccurrences.mp ha).2 (hSame ▸ hSeen)

/-- What is left stands in the order in which it occurs first. -/
theorem pairwise_firstOccurrences (seen l : List String) :
    (firstOccurrences seen l).Pairwise fun a b => l.idxOf a < l.idxOf b := by
  induction l generalizing seen with
  | nil => exact List.Pairwise.nil
  | cons b l ih =>
      -- Everything that is left of the rest differs from the first element, so it moves by one.
      have hShift (more : List String) (hMem : b ∈ more) :
          (firstOccurrences more l).Pairwise fun a c => (b :: l).idxOf a < (b :: l).idxOf c := by
        apply (ih more).imp_of_mem
        intro a c ha hc hLess
        rw [List.idxOf_cons_ne l (ne_of_mem_firstOccurrences hMem ha),
          List.idxOf_cons_ne l (ne_of_mem_firstOccurrences hMem hc)]
        exact Nat.succ_lt_succ hLess
      rw [firstOccurrences]
      split_ifs with hSeen
      · exact hShift seen hSeen
      · apply List.Pairwise.cons _ (hShift (b :: seen) List.mem_cons_self)
        intro c hc
        rw [List.idxOf_cons_self,
          List.idxOf_cons_ne l (ne_of_mem_firstOccurrences List.mem_cons_self hc)]
        exact Nat.succ_pos _

/-- What was seen before only takes elements away. -/
theorem firstOccurrences_eq_filter (seen l : List String) :
    firstOccurrences seen l = (firstOccurrences [] l).filter fun a => decide (a ∉ seen) := by
  induction l generalizing seen with
  | nil => rfl
  | cons b l ih =>
      have hStart : firstOccurrences [] (b :: l) = b :: firstOccurrences [b] l :=
        if_neg List.not_mem_nil
      rw [hStart, ih [b], firstOccurrences]
      split_ifs with hSeen
      · rw [List.filter_cons_of_neg (by simpa using hSeen), List.filter_filter, ih seen]
        apply List.filter_congr
        intro a _
        have hNe : a ∉ seen → a ≠ b := fun hNew hSame => hNew (hSame ▸ hSeen)
        by_cases hNew : a ∈ seen
        · simp [hNew]
        · simp [hNew, hNe hNew]
      · rw [List.filter_cons_of_pos (by simpa using hSeen), List.filter_filter, ih (b :: seen)]
        simp [Bool.and_comm]

end FirstOccurrences

/-- The files of a store are those of its symbols. -/
theorem mem_files {s : Store} {path : String} :
    path ∈ s.files ↔ ∃ x ∈ s.symbols, x.filePath = path := by
  rw [files, mem_firstOccurrences, List.mem_map]
  simp

/-- No file is named twice. -/
theorem nodup_files (s : Store) : s.files.Nodup := by
  apply (pairwise_firstOccurrences [] (s.symbols.map Symbol.filePath)).imp
  intro a b hLess hSame
  exact Nat.lt_irrefl _ (hSame ▸ hLess)

theorem filePath_of_mem_inFile {s : Store} {path : String} {x : Symbol} (h : x ∈ s.inFile path) :
    x.filePath = path :=
  beq_iff_eq.mp (List.mem_filter.mp h).2

/-- A file has no symbols exactly if it is not among those of the store. -/
theorem inFile_eq_nil_iff {s : Store} {path : String} : s.inFile path = [] ↔ path ∉ s.files := by
  rw [inFile, List.filter_eq_nil_iff, mem_files]
  simp

/-- File by file, the symbols of a file are those that the store has of it, in the same order. -/
theorem filter_flatMap_inFile (s : Store) (path : String) :
    ((s.files.flatMap s.inFile).filter fun x => x.filePath == path) = s.inFile path := by
  have hEach : (fun other => (s.inFile other).filter fun x => x.filePath == path) =
      fun other => if other = path then s.inFile other else [] := by
    funext other
    split_ifs with hSame
    · apply List.filter_eq_self.mpr
      intro x hx
      rw [filePath_of_mem_inFile hx, hSame, beq_self_eq_true]
    · apply List.filter_eq_nil_iff.mpr
      intro x hx
      rw [filePath_of_mem_inFile hx, beq_iff_eq]
      exact hSame
  rw [List.filter_flatMap, hEach, flatMap_single s.nodup_files]
  split_ifs with hMem
  · rfl
  · exact (inFile_eq_nil_iff.mpr hMem).symm

/-- Grouping by file loses no symbol. -/
theorem flatMap_inFile_perm (s : Store) : (s.files.flatMap s.inFile).Perm s.symbols := by
  rw [List.perm_iff_count]
  intro x
  -- Every copy of a symbol is in the file of that symbol.
  have hOwn : (x.filePath == x.filePath) = true := beq_self_eq_true _
  calc (s.files.flatMap s.inFile).count x
      = ((s.files.flatMap s.inFile).filter fun y => y.filePath == x.filePath).count x :=
        (List.count_filter (p := fun y : Symbol => y.filePath == x.filePath) hOwn).symm
    _ = (s.inFile x.filePath).count x := by rw [filter_flatMap_inFile]
    _ = s.symbols.count x :=
        List.count_filter (p := fun y : Symbol => y.filePath == x.filePath) hOwn

/-- Whether the symbols of each file stand together: between two symbols of one file there is none
of another. -/
def IsContiguous (s : Store) : Prop :=
  ∀ (i j k : Nat) (x y z : Symbol), i < j → j < k → s.symbols[i]? = some x →
    s.symbols[j]? = some y → s.symbols[k]? = some z → x.filePath = z.filePath →
    y.filePath = x.filePath

theorem IsContiguous.tail {x : Symbol} {rest : List Symbol} (h : IsContiguous ⟨x :: rest⟩) :
    IsContiguous ⟨rest⟩ := by
  intro i j k _ _ _ hij hjk
  exact h (i + 1) (j + 1) (k + 1) _ _ _ (by omega) (by omega)

/-- Stores that have no file in common may follow one another. -/
theorem IsContiguous.append {first second : List Symbol} (hFirst : IsContiguous ⟨first⟩)
    (hSecond : IsContiguous ⟨second⟩)
    (hApart : ∀ x ∈ first, ∀ y ∈ second, x.filePath ≠ y.filePath) :
    IsContiguous ⟨first ++ second⟩ := by
  intro i j k x y z hij hjk hx hy hz hSame
  by_cases hk : k < first.length
  · rw [List.getElem?_append_left (by omega)] at hx hy hz
    exact hFirst i j k x y z hij hjk hx hy hz hSame
  · rw [List.getElem?_append_right (by omega)] at hz
    by_cases hi : i < first.length
    · rw [List.getElem?_append_left hi] at hx
      have hNe := hApart x (List.mem_of_getElem? hx) z (List.mem_of_getElem? hz)
      exact (hNe hSame).elim
    · rw [List.getElem?_append_right (by omega)] at hx hy
      exact hSecond _ _ _ x y z (by omega) (by omega) hx hy hz hSame

/-- The symbols of one file stand together. -/
theorem isContiguous_of_single {symbols : List Symbol}
    (h : ∀ x ∈ symbols, ∀ y ∈ symbols, x.filePath = y.filePath) : IsContiguous ⟨symbols⟩ := by
  intro _ _ _ x y _ _ _ hx hy _ _
  exact h y (List.mem_of_getElem? hy) x (List.mem_of_getElem? hx)

/-- Groups one after another, each from a single file and all from different files. -/
theorem isContiguous_flatMap {α : Type} {keys : List α} {f : α → List Symbol}
    (hSingle : ∀ k ∈ keys, ∀ x ∈ f k, ∀ y ∈ f k, x.filePath = y.filePath)
    (hApart : keys.Pairwise fun k l => ∀ x ∈ f k, ∀ y ∈ f l, x.filePath ≠ y.filePath) :
    IsContiguous ⟨keys.flatMap f⟩ := by
  induction keys with
  | nil => exact isContiguous_of_single (List.forall_mem_nil _)
  | cons k keys ih =>
      obtain ⟨hFirst, hRest⟩ := List.pairwise_cons.mp hApart
      obtain ⟨hOne, hOthers⟩ := List.forall_mem_cons.mp hSingle
      rw [List.flatMap_cons]
      apply (isContiguous_of_single hOne).append (ih hOthers hRest)
      intro x hx y hy
      obtain ⟨l, hl, hMem⟩ := List.mem_flatMap.mp hy
      exact hFirst l hl x hx y hMem

/-- Grouped by file, the symbols of each file stand together. -/
theorem isContiguous_flatMap_inFile (s : Store) : IsContiguous ⟨s.files.flatMap s.inFile⟩ := by
  apply isContiguous_flatMap
  · intro path _ x hx y hy
    rw [filePath_of_mem_inFile hx, filePath_of_mem_inFile hy]
  · apply s.nodup_files.imp
    intro path other hNe x hx y hy
    rw [filePath_of_mem_inFile hx, filePath_of_mem_inFile hy]
    exact hNe

theorem files_cons (x : Symbol) (rest : List Symbol) :
    files ⟨x :: rest⟩ = x.filePath :: (files ⟨rest⟩).erase x.filePath := by
  rw [files, List.map_cons, firstOccurrences, if_neg List.not_mem_nil, firstOccurrences_eq_filter,
    (nodup_files ⟨rest⟩).erase_eq_filter]
  congr 1
  apply List.filter_congr
  intro path _
  rw [Bool.eq_iff_iff]
  simp

/-- If the symbols of each file stand together, then a file that the first symbol shares with others
is the first file of the others too. -/
theorem IsContiguous.exists_files_eq_cons {x : Symbol} {rest : List Symbol}
    (h : IsContiguous ⟨x :: rest⟩) (hMem : x.filePath ∈ files ⟨rest⟩) :
    ∃ others, files ⟨rest⟩ = x.filePath :: others := by
  obtain ⟨z, hz, hSame⟩ := mem_files.mp hMem
  cases rest with
  | nil => exact (List.not_mem_nil hz).elim
  | cons y rest =>
      have hNext : y.filePath = x.filePath := by
        rcases List.mem_cons.mp hz with rfl | hLater
        · exact hSame
        · obtain ⟨k, hk⟩ := List.mem_iff_getElem?.mp hLater
          exact h 0 1 (k + 2) x y z (by omega) (by omega) rfl rfl hk hSame.symm
      exact ⟨_, hNext ▸ files_cons y rest⟩

/-- A store in which the symbols of each file stand together is already ordered file by file. -/
theorem IsContiguous.flatMap_inFile {symbols : List Symbol} (h : IsContiguous ⟨symbols⟩) :
    (files ⟨symbols⟩).flatMap (inFile ⟨symbols⟩) = symbols := by
  induction symbols with
  | nil => rfl
  | cons x rest ih =>
      have hRest := ih h.tail
      have hOwn : inFile ⟨x :: rest⟩ x.filePath = x :: inFile ⟨rest⟩ x.filePath :=
        List.filter_cons_of_pos (beq_self_eq_true _)
      have hOthers : ((files ⟨rest⟩).erase x.filePath).flatMap (inFile ⟨x :: rest⟩) =
          ((files ⟨rest⟩).erase x.filePath).flatMap (inFile ⟨rest⟩) := by
        apply List.flatMap_congr
        intro path hPath
        have hNe := ((nodup_files ⟨rest⟩).mem_erase_iff.mp hPath).1
        apply List.filter_cons_of_neg
        intro hSame
        exact hNe (beq_iff_eq.mp hSame).symm
      rw [files_cons, List.flatMap_cons, hOwn, hOthers, List.cons_append]
      congr 1
      -- The file of the first symbol is the first file of the rest, or none of its files.
      by_cases hMem : x.filePath ∈ files ⟨rest⟩
      · obtain ⟨others, hFiles⟩ := h.exists_files_eq_cons hMem
        rw [hFiles, List.erase_cons_head, ← List.flatMap_cons, ← hFiles, hRest]
      · rw [inFile_eq_nil_iff.mpr hMem, List.erase_of_not_mem hMem, List.nil_append, hRest]

/-- Grouping by file changes nothing exactly if the symbols of each file stand together already. -/
theorem flatMap_inFile_eq_iff (s : Store) :
    s.files.flatMap s.inFile = s.symbols ↔ s.IsContiguous := by
  constructor
  · intro hEq
    have hGrouped := s.isContiguous_flatMap_inFile
    rw [hEq] at hGrouped
    exact hGrouped
  · intro h
    exact h.flatMap_inFile

/-- Every symbol is a class or a method, and none is both. -/
theorem classes_append_methods_perm (s : Store) : (s.classes ++ s.methods).Perm s.symbols := by
  have hMethods : s.methods = s.symbols.filter fun x => !(x.kind == .classDecl) := by
    apply List.filter_congr
    intro x _
    cases x.kind <;> rfl
  rw [hMethods]
  exact List.filter_append_perm _ _

theorem mem_ofKind {s : Store} {kind : SymbolKind} {x : Symbol} :
    x ∈ s.ofKind kind ↔ x ∈ s.symbols ∧ x.kind = kind := by
  rw [ofKind, List.mem_filter, beq_iff_eq]

end Store

end JavaOutline
