import JavaOutline.Proofs.Json.Scalar

/-! Reading back what was written, in whatever layout. Every level and every part of a value takes
at least one character, so the length of a text is enough of a bound on the depth of reading it. -/
namespace JavaOutline.Json

/-- A value that has a spelling: its numbers are spelled as numbers are, and its strings are
texts. -/
inductive IsPlain : Json → Prop
  | null : IsPlain .null
  | bool (b : Bool) : IsPlain (.bool b)
  | nat (n : Nat) : IsPlain (.nat n)
  | number {spelling : String} (h : IsNumber spelling.toList) : IsPlain (.number spelling)
  | str (s : String) : IsPlain (.str s)
  | arr {items : List Json} (h : ∀ v ∈ items, IsPlain v) : IsPlain (.arr items)
  | obj {fields : List (String × Json)} (h : ∀ f ∈ fields, IsPlain f.2) : IsPlain (.obj fields)

attribute [simp] IsPlain.null IsPlain.bool IsPlain.nat IsPlain.str

@[simp] theorem isPlain_arr_iff {items : List Json} :
    (arr items).IsPlain ↔ ∀ v ∈ items, v.IsPlain :=
  ⟨fun h => by cases h; assumption, .arr⟩

@[simp] theorem isPlain_obj_iff {fields : List (String × Json)} :
    (obj fields).IsPlain ↔ ∀ f ∈ fields, f.2.IsPlain :=
  ⟨fun h => by cases h; assumption, .obj⟩

@[simp] theorem isPlain_ofOption (text : Option String) : (ofOption .str text).IsPlain := by
  cases text with
  | none => exact .null
  | some text => exact .str text

@[simp] theorem isPlain_ofTexts (texts : List String) : (ofTexts texts).IsPlain := by
  simp [ofTexts]

section Gap

variable {gap : List Char}

theorem skipGap_append (h : gap.all isGap = true) (cs : List Char) :
    skipGap (gap ++ cs) = skipGap cs :=
  List.dropWhile_append_of_pos (List.all_eq_true.mp h)

theorem skipGap_cons {c : Char} (h : isGap c = false) (cs : List Char) :
    skipGap (c :: cs) = c :: cs :=
  List.dropWhile_cons_of_neg (by simp [h])

theorem readValue_gap (h : gap.all isGap = true) (depth : Nat) (cs : List Char) :
    readValue depth (gap ++ cs) = readValue depth cs := by
  cases depth with
  | zero => rw [readValue, readValue]
  | succ depth => rw [readValue, readValue, skipGap_append h]

theorem endsNumber_gap (h : gap.all isGap = true) {rest : List Char}
    (hRest : endsNumber rest = true) : endsNumber (gap ++ rest) = true := by
  cases gap with
  | nil => exact hRest
  | cons c gap =>
      have hGap : isGap c = true := List.all_eq_true.mp h c List.mem_cons_self
      simp only [isGap, Bool.or_eq_true, beq_iff_eq] at hGap
      rcases hGap with ((rfl | rfl) | rfl) | rfl <;> rfl

end Gap

section Step

variable {depth : Nat} {cs rest gap more : List Char} {v : Json}

theorem readItems_last (hGap : gap.all isGap = true)
    (hValue : readValue depth cs = some (v, gap ++ ']' :: rest)) :
    readItems (depth + 1) cs = some ([v], rest) := by
  simp only [readItems, hValue, skipGap_append hGap, skipGap_cons (show isGap ']' = false from rfl)]

theorem readItems_more {items : List Json} (hValue : readValue depth cs = some (v, ',' :: more))
    (hMore : readItems depth more = some (items, rest)) :
    readItems (depth + 1) cs = some (v :: items, rest) := by
  simp only [readItems, hValue, skipGap_cons (show isGap ',' = false from rfl), hMore,
    Option.map_some]

theorem readFields_last (key : String) (hGap : gap.all isGap = true)
    (hValue : readValue depth cs = some (v, gap ++ '\x7d' :: rest)) :
    readFields (depth + 1) (quote key ++ ':' :: cs) = some ([(some key, v)], rest) := by
  simp only [readFields, quote, List.cons_append, List.append_assoc, List.nil_append,
    skipGap_cons (show isGap '"' = false from rfl), readString_quote,
    skipGap_cons (show isGap ':' = false from rfl), hValue, skipGap_append hGap,
    skipGap_cons (show isGap '\x7d' = false from rfl)]

theorem readFields_more (key : String) {fields : List (Option String × Json)}
    (hValue : readValue depth cs = some (v, ',' :: more))
    (hMore : readFields depth more = some (fields, rest)) :
    readFields (depth + 1) (quote key ++ ':' :: cs) = some ((some key, v) :: fields, rest) := by
  simp only [readFields, quote, List.cons_append, List.append_assoc, List.nil_append,
    skipGap_cons (show isGap '"' = false from rfl), readString_quote,
    skipGap_cons (show isGap ':' = false from rfl), hValue,
    skipGap_cons (show isGap ',' = false from rfl), hMore, Option.map_some]

theorem readFields_gap (h : gap.all isGap = true) (depth : Nat) (cs : List Char) :
    readFields depth (gap ++ cs) = readFields depth cs := by
  cases depth with
  | zero => rw [readFields, readFields]
  | succ depth => rw [readFields, readFields, skipGap_append h]

/-- What follows an opening bracket are items, unless the array is empty. -/
theorem readValue_array {items : List Json} (hOpen : (skipGap cs).head? ≠ some ']')
    (h : readItems depth cs = some (items, rest)) :
    readValue (depth + 1) ('[' :: cs) = some (.arr items, rest) := by
  simp only [readValue, skipGap_cons (show isGap '[' = false from rfl), Char.reduceEq, if_false,
    if_true, h, Option.map_some]
  split <;> simp_all

/-- What follows an opening brace are fields, unless the object is empty. -/
theorem readValue_object {fields : List (Option String × Json)}
    (hOpen : (skipGap cs).head? ≠ some '\x7d') (h : readFields depth cs = some (fields, rest)) :
    readValue (depth + 1) ('\x7b' :: cs) = some (ofFields fields, rest) := by
  simp only [readValue, skipGap_cons (show isGap '\x7b' = false from rfl), Char.reduceEq, if_false,
    if_true, h, Option.map_some]
  split <;> simp_all

end Step

/-- A value is read back at any level, if the depth suffices and what follows ends a number. -/
def ReadsBack (l : Layout) (v : Json) : Prop :=
  ∀ (level depth : Nat) (rest : List Char), (write l level v).length ≤ depth →
    endsNumber rest = true → readValue depth (write l level v ++ rest) = some (v, rest)

section Parts

variable {l : Layout} {gap : List Char}

/-- Items are read back if each of them is, by induction on the items. -/
theorem readItems_writeItems {items : List Json} (hNe : items ≠ [])
    (hItems : ∀ v ∈ items, ReadsBack l v) (hGap : gap.all isGap = true) (level depth : Nat)
    (rest : List Char) (hDepth : (writeItems l level items).length < depth) :
    readItems depth (writeItems l level items ++ (gap ++ ']' :: rest)) = some (items, rest) := by
  induction items generalizing depth with
  | nil => exact (hNe rfl).elim
  | cons v items ih =>
      obtain ⟨depth, rfl⟩ : ∃ d, depth = d + 1 := ⟨depth - 1, by omega⟩
      have hRead : ReadsBack l v := hItems v List.mem_cons_self
      cases items with
      | nil =>
          simp only [writeItems, List.length_append] at hDepth
          simp only [writeItems, List.append_assoc]
          apply readItems_last hGap
          rw [readValue_gap (l.lead_isGap level)]
          exact hRead level depth _ (by omega) (endsNumber_gap hGap rfl)
      | cons w items =>
          simp only [writeItems, List.length_append, List.length_cons] at hDepth
          simp only [writeItems, List.append_assoc, List.cons_append]
          apply readItems_more
          · rw [readValue_gap (l.lead_isGap level)]
            exact hRead level depth _ (by omega) rfl
          · apply ih (by simp) (fun u hu => hItems u (List.mem_cons_of_mem _ hu))
            omega

/-- Fields are read back if each value is, by induction on the fields. -/
theorem readFields_writeFields {fields : List (String × Json)} (hNe : fields ≠ [])
    (hFields : ∀ f ∈ fields, ReadsBack l f.2) (hGap : gap.all isGap = true) (level depth : Nat)
    (rest : List Char) (hDepth : (writeFields l level fields).length < depth) :
    readFields depth (writeFields l level fields ++ (gap ++ '\x7d' :: rest)) =
      some (fields.map fun f => (some f.1, f.2), rest) := by
  induction fields generalizing depth with
  | nil => exact (hNe rfl).elim
  | cons f fields ih =>
      obtain ⟨key, v⟩ := f
      obtain ⟨depth, rfl⟩ : ∃ d, depth = d + 1 := ⟨depth - 1, by omega⟩
      have hRead : ReadsBack l v := hFields (key, v) List.mem_cons_self
      cases fields with
      | nil =>
          simp only [writeFields, List.length_append, List.length_cons] at hDepth
          simp only [writeFields, List.append_assoc, List.cons_append]
          rw [readFields_gap (l.lead_isGap level)]
          apply readFields_last key hGap
          rw [readValue_gap l.space_isGap]
          exact hRead level depth _ (by omega) (endsNumber_gap hGap rfl)
      | cons g fields =>
          simp only [writeFields, List.length_append, List.length_cons] at hDepth
          simp only [writeFields, List.append_assoc, List.cons_append]
          rw [readFields_gap (l.lead_isGap level)]
          apply readFields_more key
          · rw [readValue_gap l.space_isGap]
            exact hRead level depth _ (by omega) rfl
          · apply ih (by simp) (fun u hu => hFields u (List.mem_cons_of_mem _ hu))
            omega

end Parts

section Numeral

variable {text : List Char}

theorem IsNumeral.exists_cons (h : IsNumeral text) :
    ∃ c cs, text = c :: cs ∧ isNumeric c = true := by
  obtain ⟨c, cs, rfl⟩ := List.exists_cons_of_ne_nil h.1
  exact ⟨c, cs, rfl, h.2 c List.mem_cons_self⟩

theorem isNumeral_digits (n : Nat) : IsNumeral (digits n) := (isWhole_digits n).1.isNumeral

/-- A text that begins like a number is read as one. -/
theorem readValue_of_isNumeral (h : IsNumeral text) (depth : Nat) (rest : List Char) :
    readValue (depth + 1) (text ++ rest) = readNumber (text ++ rest) := by
  obtain ⟨c, cs, rfl, hNumeric⟩ := h.exists_cons
  -- No character of a number opens anything else.
  have hOther (d : Char) (hd : isNumeric d = false) : (c = d) = False :=
    eq_false (ne_of_isNumeric hNumeric hd)
  simp only [List.cons_append, readValue, skipGap_cons (isGap_of_isNumeric hNumeric),
    hOther '"' rfl, hOther '[' rfl, hOther '\x7b' rfl, hOther 'n' rfl, hOther 't' rfl,
    hOther 'f' rfl, if_false]

/-- A number begins with no gap and with nothing that closes a level. -/
theorem IsNumeral.exists_first (h : IsNumeral text) :
    ∃ c cs, text = c :: cs ∧ isGap c = false ∧ c ≠ ']' ∧ c ≠ '\x7d' := by
  obtain ⟨c, cs, hText, hNumeric⟩ := h.exists_cons
  exact ⟨c, cs, hText, isGap_of_isNumeric hNumeric, ne_of_isNumeric hNumeric rfl,
    ne_of_isNumeric hNumeric rfl⟩

end Numeral

/-- A written value begins with a character that is no gap and closes nothing. -/
theorem exists_write_eq_cons (l : Layout) (level : Nat) {v : Json} (h : v.IsPlain) :
    ∃ c cs, write l level v = c :: cs ∧ isGap c = false ∧ c ≠ ']' ∧ c ≠ '\x7d' := by
  cases h with
  | null => exact ⟨_, _, rfl, rfl, by decide⟩
  | bool b => cases b <;> exact ⟨_, _, rfl, rfl, by decide⟩
  | nat n => exact (isNumeral_digits n).exists_first
  | number h => exact h.isNumeral.exists_first
  | str s => exact ⟨_, _, rfl, rfl, by decide⟩
  | @arr items h => cases items <;> exact ⟨_, _, rfl, rfl, by decide⟩
  | @obj fields h => cases fields <;> exact ⟨_, _, rfl, rfl, by decide⟩

/-- Items that are there do not begin like an empty array. -/
theorem head?_skipGap_writeItems (l : Layout) (level : Nat) {v : Json} (h : v.IsPlain)
    (items : List Json) (rest : List Char) :
    (skipGap (writeItems l level (v :: items) ++ rest)).head? ≠ some ']' := by
  obtain ⟨c, cs, hWrite, hGap, hOpen, -⟩ := exists_write_eq_cons l level h
  cases items <;>
    simpa only [writeItems, List.append_assoc, skipGap_append (l.lead_isGap level), hWrite,
      List.cons_append, skipGap_cons hGap, List.head?_cons, ne_eq, Option.some.injEq] using hOpen

/-- Fields that are there do not begin like an empty object. -/
theorem head?_skipGap_writeFields (l : Layout) (level : Nat) (f : String × Json)
    (fields : List (String × Json)) (rest : List Char) :
    (skipGap (writeFields l level (f :: fields) ++ rest)).head? ≠ some '\x7d' := by
  cases fields <;>
    simp only [writeFields, List.append_assoc, skipGap_append (l.lead_isGap level), quote,
      List.cons_append, skipGap_cons (show isGap '"' = false from rfl), List.head?_cons] <;>
    decide

/-- An object is made of all its fields if all keys are texts. -/
theorem ofFields_some (fields : List (String × Json)) :
    ofFields (fields.map fun f => (some f.1, f.2)) = .obj fields := by
  have hAll : (fields.map fun f => (some f.1, f.2)).mapM
      (fun f => f.1.map fun k => (k, f.2)) = some fields := by
    induction fields with
    | nil => rfl
    | cons f fields ih => simp [ih]
  rw [ofFields, hAll]

/-- No text of a value is empty, so reading it with no depth at all need not be considered. -/
theorem readsBack_of_succ {l : Layout} {v : Json} (h : v.IsPlain)
    (hSucc : ∀ (level depth : Nat) (rest : List Char), (write l level v).length ≤ depth + 1 →
      endsNumber rest = true →
        readValue (depth + 1) (write l level v ++ rest) = some (v, rest)) :
    ReadsBack l v := by
  intro level depth rest hDepth hRest
  cases depth with
  | zero =>
      obtain ⟨c, cs, hWrite, -⟩ := exists_write_eq_cons l level h
      simp [hWrite] at hDepth
  | succ depth => exact hSucc level depth rest hDepth hRest

/-- Every value that has a spelling is read back. -/
theorem readsBack (l : Layout) {v : Json} (h : v.IsPlain) : ReadsBack l v := by
  induction h with
  | null => exact readsBack_of_succ .null fun _ _ _ _ _ => rfl
  | bool b =>
      apply readsBack_of_succ (.bool b)
      intro level depth rest _ _
      cases b <;> rfl
  | nat n =>
      apply readsBack_of_succ (.nat n)
      intro level depth rest _ hRest
      rw [write, readValue_of_isNumeral (isNumeral_digits n)]
      exact readNumber_digits n hRest
  | @number spelling h =>
      apply readsBack_of_succ (.number h)
      intro level depth rest _ hRest
      rw [write, readValue_of_isNumeral h.isNumeral, readNumber_of_isNumber h hRest,
        String.ofList_toList]
  | str s =>
      apply readsBack_of_succ (.str s)
      intro level depth rest _ _
      simp only [write, quote, List.cons_append, List.append_assoc, List.nil_append, readValue,
        skipGap_cons (show isGap '"' = false from rfl), if_true, readString_quote, Option.map_some,
        Option.elim_some]
  | @arr items h ih =>
      apply readsBack_of_succ (.arr h)
      intro level depth rest hDepth _
      cases items with
      | nil => rfl
      | cons v items =>
          simp only [write, List.length_append, List.length_cons, List.length_nil] at hDepth
          simp only [write, List.cons_append, List.append_assoc, List.nil_append]
          apply readValue_array (head?_skipGap_writeItems l _ (h v List.mem_cons_self) items _)
          apply readItems_writeItems (List.cons_ne_nil _ _) ih (l.lead_isGap level)
          omega
  | @obj fields h ih =>
      apply readsBack_of_succ (.obj h)
      intro level depth rest hDepth _
      cases fields with
      | nil => rfl
      | cons f fields =>
          simp only [write, List.length_append, List.length_cons, List.length_nil] at hDepth
          simp only [write, List.cons_append, List.append_assoc, List.nil_append]
          rw [← ofFields_some (f :: fields)]
          apply readValue_object (head?_skipGap_writeFields l _ f fields _)
          apply readFields_writeFields (List.cons_ne_nil _ _) ih (l.lead_isGap level)
          omega

/-- The text of a value spells that value, whatever its layout and whatever gap follows it. -/
theorem parse?_write (l : Layout) (level : Nat) {v : Json} (h : v.IsPlain) (gap : List Char)
    (hGap : gap.all isGap = true) : parse? (String.ofList (write l level v ++ gap)) = some v := by
  have hEnd : endsNumber (gap ++ []) = true := endsNumber_gap hGap rfl
  have hLeft : skipGap (gap ++ []) = [] := skipGap_append hGap []
  rw [List.append_nil] at hEnd hLeft
  rw [parse?, String.toList_ofList, readsBack l h level _ gap (by simp; omega) hEnd]
  exact if_pos hLeft

/-- Every value is read back from its compact text. -/
theorem parse?_toCompact {v : Json} (h : v.IsPlain) : parse? v.toCompact = some v := by
  simpa [toCompact] using parse?_write .compact 0 h [] rfl

/-- The pretty text of a value spells that value, with or without a line break at the end. -/
theorem parse?_toPretty {v : Json} (h : v.IsPlain) :
    parse? v.toPretty = some v ∧ parse? (v.toPretty ++ "\n") = some v := by
  have hBreak := parse?_write .pretty 0 h ['\n'] rfl
  rw [String.ofList_append] at hBreak
  exact ⟨by simpa [toPretty] using parse?_write .pretty 0 h [] rfl, hBreak⟩

end JavaOutline.Json
