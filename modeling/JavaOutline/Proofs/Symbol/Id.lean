import JavaOutline.Symbol.Id
import Mathlib.Data.List.Count
import Mathlib.Data.List.Nodup

/-! What an id tells. After the path of the file and two colons stands a label: a name, and from its
second occurrence on a number. A name without separators can be read off its label, and a label
without colons can be read off the id, however many separators the path has. -/
namespace JavaOutline.Id

/-- Whether a name has none of the characters that separate the parts of an id. -/
def IsPlain (name : String) : Prop := '#' ∉ name.toList ∧ ':' ∉ name.toList

instance (name : String) : Decidable (IsPlain name) := inferInstanceAs (Decidable (_ ∧ _))

/-- What follows the path and the colons in an id. -/
def label (name : String) (n : Nat) : List Char :=
  if n ≤ 1 then name.toList else name.toList ++ '#' :: Nat.toDigits 10 n

/-- An id is the path, two colons and the label. -/
theorem toList_ofOccurrence (path name : String) (n : Nat) :
    (ofOccurrence path name n).toList = path.toList ++ [':'] ++ ':' :: label name n := by
  unfold ofOccurrence label base
  split_ifs with hFirst
  · simp
  · simp [Nat.toList_repr]

theorem notMem_toDigits {c : Char} (h : c.isDigit = false) (n : Nat) :
    c ∉ Nat.toDigits 10 n := by
  intro hMem
  have hDigit : c.isDigit = true := Nat.isDigit_of_mem_toDigits (by decide) (by decide) hMem
  rw [h] at hDigit
  cases hDigit

/-- Numbers with the same digits are equal. -/
theorem toDigits_injective {m n : Nat} (h : Nat.toDigits 10 m = Nat.toDigits 10 n) : m = n := by
  have hRead := congrArg (fun ds => Nat.ofDigitChars 10 ds 0) h
  simpa only [Nat.ofDigitChars_ten_toDigits] using hRead

/-- A label says which name it is for and which occurrence, if there is no `#` in the name. -/
theorem label_injective {a b : String} {m n : Nat} (ha : '#' ∉ a.toList) (hb : '#' ∉ b.toList)
    (hm : 1 ≤ m) (hn : 1 ≤ n) (h : label a m = label b n) : a = b ∧ m = n := by
  unfold label at h
  split_ifs at h with hFirst hSecond hSecond
  · exact ⟨String.toList_inj.mp h, by omega⟩
  · exact (ha (by simp [h])).elim
  · exact (hb (by simp [← h])).elim
  · obtain ⟨hName, -, hDigits⟩ :=
      (List.append_cons_inj_of_notMem ha (notMem_toDigits (by decide) m)).mp h
    exact ⟨String.toList_inj.mp hName, toDigits_injective hDigits⟩

/-- There is no colon in the label of a name without one. -/
theorem colon_notMem_label {name : String} (h : ':' ∉ name.toList) (n : Nat) :
    ':' ∉ label name n := by
  unfold label
  split_ifs with hFirst
  · exact h
  · have hDigits := notMem_toDigits (show ':'.isDigit = false by decide) n
    simp [h, hDigits]

/-- What follows the last occurrence of a character tells what precedes it. -/
theorem append_cons_inj_of_notMem_right {c : Char} {s t u v : List Char} (ht : c ∉ t)
    (hv : c ∉ v) (h : s ++ c :: t = u ++ c :: v) : s = u ∧ t = v := by
  rcases List.append_eq_append_iff.mp h with ⟨middle, rfl, hRest⟩ | ⟨middle, rfl, hRest⟩
  · cases middle with
    | nil => simpa using hRest
    | cons d middle =>
        obtain ⟨-, rfl⟩ := List.cons.inj hRest
        simp at ht
  · cases middle with
    | nil => simpa [eq_comm] using hRest
    | cons d middle =>
        obtain ⟨-, rfl⟩ := List.cons.inj hRest
        simp at hv

/-- The path of a file can be read off an id in it. -/
theorem path_eq_of_ofOccurrence_eq {p q a b : String} {m n : Nat} (ha : ':' ∉ a.toList)
    (hb : ':' ∉ b.toList) (h : ofOccurrence p a m = ofOccurrence q b n) :
    p = q ∧ label a m = label b n := by
  have hChars := congrArg String.toList h
  rw [toList_ofOccurrence, toList_ofOccurrence] at hChars
  obtain ⟨hPaths, hLabels⟩ := append_cons_inj_of_notMem_right (colon_notMem_label ha m)
    (colon_notMem_label hb n) hChars
  exact ⟨String.toList_inj.mp (List.append_cancel_right hPaths), hLabels⟩

/-- What an id begins with tells the name. -/
theorem base_injective (path : String) : Function.Injective (base path) := by
  intro a b h
  have hChars := congrArg String.toList h
  simp only [base, String.toList_append] at hChars
  exact String.toList_inj.mp (List.append_cancel_left hChars)

/-- Counting names with the path before them comes to counting names: the path does not matter for
the numbers. -/
theorem count_map_base (path : String) (names : List String) (name : String) :
    (names.map (base path)).count (base path name) = names.count name :=
  List.count_map_of_injective names (base path) (base_injective path) name

theorem length_assignAfter (path : String) (seen names : List String) :
    (assignAfter path seen names).length = names.length := by
  induction names generalizing seen with
  | nil => rfl
  | cons name names ih => simp [assignAfter, ih]

/-- Each name gets one id. -/
theorem length_assign (path : String) (names : List String) :
    (assign path names).length = names.length := length_assignAfter path [] names

/-- Each id is that of its name, numbered by the equal names up to it. -/
theorem getElem?_assignAfter (path : String) (seen names : List String) (k : Nat) :
    (assignAfter path (seen.map (base path)) names)[k]? = names[k]?.map fun name =>
      ofOccurrence path name (seen.count name + (names.take k).count name + 1) := by
  induction names generalizing seen k with
  | nil => rfl
  | cons first names ih =>
      rw [assignAfter, count_map_base, ← List.map_cons]
      cases k with
      | zero => simp
      | succ k =>
          rw [List.getElem?_cons_succ, ih, List.getElem?_cons_succ]
          congr 1
          funext name
          rw [List.take_succ_cons, List.count_cons, List.count_cons]
          congr 1
          omega

/-- The id of a name tells how often the name has occurred up to there. -/
theorem getElem?_assign (path : String) (names : List String) (k : Nat) :
    (assign path names)[k]? =
      names[k]?.map fun name => ofOccurrence path name ((names.take k).count name + 1) := by
  rw [assign, ← List.map_nil, getElem?_assignAfter]
  simp

/-- An occurrence counts for all that follow it. -/
theorem count_take_lt {names : List String} {name : String} {i j : Nat} (hij : i < j)
    (h : names[i]? = some name) : (names.take i).count name < (names.take j).count name := by
  have hTake : names.take (i + 1) = names.take i ++ [name] := by
    rw [List.take_add_one, h]
    rfl
  calc (names.take i).count name
      < (names.take (i + 1)).count name := by simp [hTake]
    _ ≤ (names.take j).count name :=
        (List.take_sublist_take_left hij).count_le name

/-- Every id is that of an occurrence of one of the names. -/
theorem exists_of_mem_assign {path id : String} {names : List String} (h : id ∈ assign path names) :
    ∃ name ∈ names, ∃ n, id = ofOccurrence path name n := by
  obtain ⟨k, hk⟩ := List.mem_iff_getElem?.mp h
  rw [getElem?_assign, Option.map_eq_some_iff] at hk
  obtain ⟨name, hName, rfl⟩ := hk
  exact ⟨name, List.mem_of_getElem? hName, _, rfl⟩

/-- The ids of plain names in a file are all different. -/
theorem nodup_assign (path : String) {names : List String} (h : ∀ name ∈ names, IsPlain name) :
    (assign path names).Nodup := by
  rw [List.nodup_iff_getElem?_ne_getElem?]
  intro i j hij hj hEq
  obtain ⟨id, hId⟩ : ∃ id, (assign path names)[j]? = some id := ⟨_, List.getElem?_eq_getElem hj⟩
  rw [hId] at hEq
  rw [getElem?_assign, Option.map_eq_some_iff] at hEq hId
  obtain ⟨a, ha, hFirst⟩ := hEq
  obtain ⟨b, hb, hSecond⟩ := hId
  have hPlainA : IsPlain a := h a (List.mem_of_getElem? ha)
  have hPlainB : IsPlain b := h b (List.mem_of_getElem? hb)
  obtain ⟨-, hLabel⟩ :=
    path_eq_of_ofOccurrence_eq hPlainA.2 hPlainB.2 (hFirst.trans hSecond.symm)
  obtain ⟨rfl, hCount⟩ := label_injective hPlainA.1 hPlainB.1 (by omega) (by omega) hLabel
  have hlt := count_take_lt hij ha
  omega

/-- The ids of plain names in different files are different. -/
theorem disjoint_assign {p q : String} {names others : List String} (hpq : p ≠ q)
    (h : ∀ name ∈ names, IsPlain name) (hOthers : ∀ name ∈ others, IsPlain name) :
    (assign p names).Disjoint (assign q others) := by
  intro id hMem hOther
  obtain ⟨a, ha, m, rfl⟩ := exists_of_mem_assign hMem
  obtain ⟨b, hb, n, hEq⟩ := exists_of_mem_assign hOther
  exact hpq (path_eq_of_ofOccurrence_eq (h a ha).2 (hOthers b hb).2 hEq).1

end JavaOutline.Id
