import JavaOutline.Proofs.Symbol.Id

/-! Equal ids. The number at the end of an id can be read off it, so two ids with numbers are equal
only if they are ids of one occurrence. What remains is a name that itself ends like a numbered
id. -/
namespace JavaOutline.Id

/-- Whether the `n`-th occurrence of a name stands at position `k`. -/
def IsOccurrence (names : List String) (name : String) (n k : Nat) : Prop :=
  names[k]? = some name ∧ (names.take (k + 1)).count name = n

section Occurrence

variable {names : List String} {name : String} {n i j k : Nat}

/-- Up to a name and with it, the name occurs once more than before it. -/
theorem count_take_succ (h : names[k]? = some name) :
    (names.take (k + 1)).count name = (names.take k).count name + 1 := by
  rw [List.take_add_one, h, Option.toList_some, List.count_append, List.count_singleton_self]

/-- At every position stands an occurrence of some name. -/
theorem exists_isOccurrence (h : k < names.length) :
    ∃ name n, 1 ≤ n ∧ IsOccurrence names name n k := by
  have hName : names[k]? = some names[k] := List.getElem?_eq_getElem h
  have hCount := count_take_succ hName
  exact ⟨names[k], _, by omega, hName, rfl⟩

/-- A name occurs for the `n`-th time only once. -/
theorem IsOccurrence.position_unique (hi : IsOccurrence names name n i)
    (hj : IsOccurrence names name n j) : i = j := by
  have hCounti := count_take_succ hi.1
  have hCountj := count_take_succ hj.1
  have hNumbers : (names.take (i + 1)).count name = (names.take (j + 1)).count name :=
    hi.2.trans hj.2.symm
  rcases Nat.lt_trichotomy i j with hLess | hSame | hGreater
  · have := count_take_lt hLess hi.1
    omega
  · exact hSame
  · have := count_take_lt hGreater hj.1
    omega

/-- The `n`-th occurrence of a name gets the `n`-th id of it. -/
theorem IsOccurrence.getElem?_assign (path : String) (h : IsOccurrence names name n k) :
    (assign path names)[k]? = some (ofOccurrence path name n) := by
  have hCount := count_take_succ h.1
  rw [h.2] at hCount
  rw [Id.getElem?_assign, h.1, Option.map_some, hCount]

end Occurrence

theorem ofOccurrence_one (path name : String) :
    ofOccurrence path name 1 = path ++ "::" ++ name := rfl

/-- From the second one on, an id ends in the number of the occurrence. -/
theorem ofOccurrence_of_two_le (path name : String) {n : Nat} (h : 2 ≤ n) :
    ofOccurrence path name n = path ++ "::" ++ name ++ "#" ++ toString n := by
  rw [ofOccurrence, if_neg (by omega), base]

/-- Ids in one file are equal if their labels are. -/
theorem ofOccurrence_eq_iff {path a b : String} {m n : Nat} :
    ofOccurrence path a m = ofOccurrence path b n ↔ label a m = label b n := by
  rw [← String.toList_inj, toList_ofOccurrence, toList_ofOccurrence, List.append_right_inj,
    List.cons_inj_right]

theorem label_one (name : String) : label name 1 = name.toList := rfl

/-- From the second one on, a label ends in the number of the occurrence. -/
theorem label_of_two_le (name : String) {n : Nat} (h : 2 ≤ n) :
    label name n = name.toList ++ '#' :: Nat.toDigits 10 n := by
  rw [label, if_neg (by omega)]

theorem toList_numbered (name : String) (n : Nat) :
    (name ++ "#" ++ toString n).toList = name.toList ++ '#' :: Nat.toDigits 10 n := by
  simp [Nat.toList_repr]

/-- The first occurrence of a name has the label of a later occurrence of another one exactly if it
is the name that spells this label. -/
theorem label_one_eq_iff {a b : String} {n : Nat} (h : 2 ≤ n) :
    label a 1 = label b n ↔ a = b ++ "#" ++ toString n := by
  rw [label_one, label_of_two_le b h, ← toList_numbered, String.toList_inj]

/-- Later occurrences have equal labels only if they are the same of one name, since the number
follows the last `#` of the label. -/
theorem label_eq_iff_of_two_le {a b : String} {m n : Nat} (hm : 2 ≤ m) (hn : 2 ≤ n) :
    label a m = label b n ↔ a = b ∧ m = n := by
  constructor
  · intro hLabel
    rw [label_of_two_le a hm, label_of_two_le b hn] at hLabel
    obtain ⟨hName, hDigits⟩ := append_cons_inj_of_notMem_right
      (notMem_toDigits (by decide) m) (notMem_toDigits (by decide) n) hLabel
    exact ⟨String.toList_inj.mp hName, toDigits_injective hDigits⟩
  · intro hSame
    rw [hSame.1, hSame.2]

/-- A name that is spelled like the id of a later occurrence of another one takes the same id. -/
theorem IsOccurrence.assign_eq_of_spelled {names : List String} {name : String} {n i j : Nat}
    (path : String) (hLater : IsOccurrence names name n i) (hn : 2 ≤ n)
    (hFirst : IsOccurrence names (name ++ "#" ++ toString n) 1 j) :
    (assign path names)[i]? = (assign path names)[j]? := by
  rw [hLater.getElem?_assign, hFirst.getElem?_assign, Option.some.injEq, ofOccurrence_eq_iff,
    eq_comm, label_one_eq_iff hn]

/-- The ids of two occurrences in a file are equal exactly if the occurrences are the same of one
name, or if one is the first occurrence of the name that spells the other with its number. -/
theorem ofOccurrence_eq_cases {path a b : String} {m n : Nat} (hm : 1 ≤ m) (hn : 1 ≤ n) :
    ofOccurrence path a m = ofOccurrence path b n ↔
      a = b ∧ m = n ∨ (2 ≤ m ∧ b = a ++ "#" ++ toString m ∧ n = 1) ∨
        2 ≤ n ∧ a = b ++ "#" ++ toString n ∧ m = 1 := by
  rw [ofOccurrence_eq_iff]
  rcases Nat.eq_or_lt_of_le hm with rfl | hm
  · rcases Nat.eq_or_lt_of_le hn with rfl | hn
    · rw [label_one, label_one, String.toList_inj]
      simp
    · rw [label_one_eq_iff hn]
      have hNumber : 1 ≠ n := by omega
      simp [hNumber, Nat.succ_le_of_lt hn]
  · rcases Nat.eq_or_lt_of_le hn with rfl | hn
    · rw [eq_comm, label_one_eq_iff hm]
      have hNumber : m ≠ 1 := by omega
      simp [hNumber, Nat.succ_le_of_lt hm]
    · rw [label_eq_iff_of_two_le hm hn]
      have hLaterA : m ≠ 1 := by omega
      have hLaterB : n ≠ 1 := by omega
      simp [hLaterA, hLaterB]

/-- The ids of the names of a file in order. The first occurrence of a name has the path and the
name as its id, and the `n`-th occurrence has the number besides. The ids at two positions are
equal exactly if one is that of the `n`-th occurrence of a name, with `n` at least two, and the
other that of the first occurrence of the name that spells this one with its number. -/
theorem assign_getElem?_eq_iff (path : String) (names : List String) :
    (assign path names).length = names.length ∧
    (∀ k name, IsOccurrence names name 1 k →
      (assign path names)[k]? = some (path ++ "::" ++ name)) ∧
    (∀ k name n, 2 ≤ n → IsOccurrence names name n k →
      (assign path names)[k]? = some (path ++ "::" ++ name ++ "#" ++ toString n)) ∧
    ∀ i j, i < names.length → j < names.length → i ≠ j →
      ((assign path names)[i]? = (assign path names)[j]? ↔
        ∃ name n, 2 ≤ n ∧
          (IsOccurrence names name n i ∧ IsOccurrence names (name ++ "#" ++ toString n) 1 j ∨
            IsOccurrence names name n j ∧
              IsOccurrence names (name ++ "#" ++ toString n) 1 i)) := by
  refine ⟨length_assign path names, ?_, ?_, ?_⟩
  · intro k name hFirst
    rw [hFirst.getElem?_assign, ofOccurrence_one]
  · intro k name n hn hLater
    rw [hLater.getElem?_assign, ofOccurrence_of_two_le path name hn]
  · intro i j hi hj hne
    constructor
    · intro hEqual
      obtain ⟨a, m, hm, hA⟩ := exists_isOccurrence hi
      obtain ⟨b, n, hn, hB⟩ := exists_isOccurrence hj
      rw [hA.getElem?_assign, hB.getElem?_assign, Option.some.injEq,
        ofOccurrence_eq_cases hm hn] at hEqual
      rcases hEqual with ⟨rfl, rfl⟩ | ⟨hLater, rfl, rfl⟩ | ⟨hLater, rfl, rfl⟩
      · exact absurd (hA.position_unique hB) hne
      · exact ⟨a, m, hLater, .inl ⟨hA, hB⟩⟩
      · exact ⟨b, n, hLater, .inr ⟨hB, hA⟩⟩
    · intro hSpelled
      obtain ⟨name, n, hn, ⟨hLater, hFirst⟩ | ⟨hLater, hFirst⟩⟩ := hSpelled
      · exact hLater.assign_eq_of_spelled path hn hFirst
      · exact (hLater.assign_eq_of_spelled path hn hFirst).symm

-- The second occurrence of a name has the id of the name that ends with its number.
example : assign "A.java" ["f", "f", "f#2"] =
    ["A.java::f", "A.java::f#2", "A.java::f#2"] := by decide +kernel

end JavaOutline.Id
