import JavaOutline.Proofs.Path.Components
import JavaOutline.Proofs.Text.Utf8

/-! The path of a documented copy. The copy stands in the directory of its file, whatever is written
after the last component of that directory, and its name is that of the file with a suffix put
before the extension. -/
namespace JavaOutline.Path

/-- To prove something of every path, go through it slash by slash from the end. -/
theorem last_induct {motive : (bytes : List UInt8) → bytes ≠ [] → Prop}
    (single : ∀ bytes h, slash ∉ bytes → motive bytes h)
    (top : ∀ last, slash ∉ last → motive (slash :: last) (List.cons_ne_nil _ _))
    (append : ∀ before last hBefore, slash ∉ last → motive before hBefore →
      motive (before ++ slash :: last) (by simp)) (bytes : List UInt8) (h : bytes ≠ []) :
    motive bytes h := by
  induction hLength : bytes.length using Nat.strongRecOn generalizing bytes with
  | ind n ih =>
      by_cases hSlash : slash ∈ bytes
      · obtain ⟨before, last, rfl, hLast⟩ := exists_last_segment hSlash
        by_cases hBefore : before = []
        · subst hBefore
          exact top last hLast
        · refine append before last hBefore hLast (ih before.length ?_ before hBefore rfl)
          rw [← hLength, List.length_append, List.length_cons]
          omega
      · exact single bytes h hSlash

/-- Empty segments and single dots are no components. -/
theorem inner?_eq_none_iff {segment : Nat × List UInt8} :
    inner? segment = none ↔ segment.2 = [] ∨ segment.2 = [dot] := by
  unfold inner?
  split_ifs <;> simp_all

theorem stop_of_inner? {segment : Nat × List UInt8} {l : Located}
    (h : inner? segment = some l) : l.stop = segment.1 + segment.2.length := by
  unfold inner? at h
  split_ifs at h <;> simp only [Option.some.injEq] at h <;> rw [← h]

/-- A path without slashes is one component. -/
theorem located_of_notMem {bytes : List UInt8} (hBytes : bytes ≠ []) (h : slash ∉ bytes) :
    ∃ l, (⟨bytes⟩ : Path).located = [l] ∧ l.stop = bytes.length := by
  rw [located, segments_of_notMem h]
  by_cases hDot : bytes = [dot]
  · subst hDot
    exact ⟨_, rfl, rfl⟩
  · obtain ⟨l, hl⟩ : ∃ l, inner? (0, bytes) = some l :=
      Option.ne_none_iff_exists'.mp (by simp [inner?_eq_none_iff, hBytes, hDot])
    exact ⟨l, by simp [hBytes, hDot, hl], by simpa using stop_of_inner? hl⟩

/-- A path without some of the slashes and `.` at its end. -/
inductive Settles : List UInt8 → List UInt8 → Prop
  | self (bytes : List UInt8) : Settles bytes bytes
  | top {last : List UInt8} (hLast : last = [] ∨ last = [dot]) : Settles (slash :: last) [slash]
  | drop {before last kept : List UInt8} (hBefore : before ≠ []) (hLast : last = [] ∨ last = [dot])
      (hRest : Settles before kept) : Settles (before ++ slash :: last) kept

theorem notMem_of_settled {last : List UInt8} (h : last = [] ∨ last = [dot]) : slash ∉ last := by
  rcases h with rfl | rfl <;> decide

/-- Up to the end of its last component, a path lacks at most slashes and `.`. -/
theorem exists_last_located (bytes : List UInt8) (hBytes : bytes ≠ []) :
    ∃ l, (⟨bytes⟩ : Path).located.getLast? = some l ∧ l.stop ≤ bytes.length ∧
      Settles bytes (bytes.take l.stop) := by
  -- If the last segment is a component, nothing is cut off.
  have hWhole (before last : List UInt8) (l : Located)
      (hl : inner? (before.length + 1, last) = some l) :
      l.stop ≤ (before ++ slash :: last).length ∧
        Settles (before ++ slash :: last) ((before ++ slash :: last).take l.stop) := by
    have hStop : l.stop = (before ++ slash :: last).length := by
      simp only [stop_of_inner? hl, List.length_append, List.length_cons]
      omega
    rw [hStop, List.take_length]
    exact ⟨Nat.le_refl _, .self _⟩
  induction bytes, hBytes using last_induct with
  | single bytes hBytes hSlash =>
      obtain ⟨l, hLocated, hStop⟩ := located_of_notMem hBytes hSlash
      refine ⟨l, by rw [hLocated]; rfl, hStop.le, ?_⟩
      rw [hStop, List.take_length]
      exact .self bytes
  | top last hLast =>
      have hLocated := located_append [] hLast
      rw [List.nil_append, if_pos rfl] at hLocated
      cases hInner : inner? (([] : List UInt8).length + 1, last) with
      | some l => exact ⟨l, by rw [hLocated, hInner]; rfl, hWhole [] last l hInner⟩
      | none =>
          refine ⟨⟨.root, 0, 1⟩, by rw [hLocated, hInner]; rfl, by simp, ?_⟩
          exact .top (inner?_eq_none_iff.mp hInner)
  | append before last hBefore hLast ih =>
      have hLocated := located_append before hLast
      rw [if_neg hBefore] at hLocated
      cases hInner : inner? (before.length + 1, last) with
      | some l => exact ⟨l, by simp [hLocated, hInner], hWhole before last l hInner⟩
      | none =>
          obtain ⟨l, hl, hStop, hSettles⟩ := ih
          refine ⟨l, by simp [hLocated, hInner, hl], by rw [List.length_append]; omega, ?_⟩
          rw [List.take_append_of_le_length hStop]
          exact .drop hBefore (inner?_eq_none_iff.mp hInner) hSettles

/-- The components of a path are not changed by slashes and `.` at its end. -/
theorem Settles.located {bytes kept : List UInt8} (h : Settles bytes kept) (hBytes : bytes ≠ []) :
    kept ≠ [] ∧ (⟨kept⟩ : Path).located = (⟨bytes⟩ : Path).located := by
  induction h with
  | self bytes => exact ⟨hBytes, rfl⟩
  | top hLast =>
      refine ⟨List.cons_ne_nil _ _, ?_⟩
      have hTop := located_append [] (notMem_of_settled (.inl rfl))
      have hBoth := located_append [] (notMem_of_settled hLast)
      rw [inner?_eq_none_iff.mpr (.inl rfl), List.nil_append] at hTop
      rw [inner?_eq_none_iff.mpr hLast, List.nil_append] at hBoth
      rw [hTop, hBoth]
  | drop hBefore hLast _ ih =>
      refine ⟨(ih hBefore).1, ?_⟩
      rw [(ih hBefore).2, located_append _ (notMem_of_settled hLast), if_neg hBefore,
        inner?_eq_none_iff.mpr hLast]
      simp

/-- The path up to the end of its last component. -/
def trimmed (p : Path) : Path :=
  match p.located.getLast? with
  | none => ⟨[]⟩
  | some l => ⟨p.bytes.take l.stop⟩

/-- What comes after the last component are slashes and dots. -/
theorem settles_trimmed {p : Path} (hp : p.bytes ≠ []) : Settles p.bytes p.trimmed.bytes := by
  obtain ⟨l, hl, -, hSettles⟩ := exists_last_located p.bytes hp
  have hTrimmed : p.trimmed = ⟨p.bytes.take l.stop⟩ := by simp only [trimmed, hl]
  rwa [hTrimmed]

/-- Nothing comes after a name that is joined last. -/
theorem trimmed_join {p : Path} (hp : p.bytes ≠ []) {name : Name} (h : isEntryName name = true) :
    (p.join name).trimmed = p.join name := by
  have hStop : p.opened.length + name.length = (p.join name).bytes.length := by
    rw [bytes_join, List.length_append]
  rw [trimmed, located_join hp (isFileName_of_isEntryName h), List.getLast?_concat]
  simp only [hStop, List.take_length]

/-- The directory of a file in a directory is that directory without what its path has after the
last component. -/
theorem parent_join {p : Path} (hp : p.bytes ≠ []) {name : Name} (h : isEntryName name = true) :
    (p.join name).parent = p.trimmed := by
  obtain ⟨l, hl, hStop, -⟩ := exists_last_located p.bytes hp
  have hTake : (p.join name).bytes.take l.stop = p.bytes.take l.stop := by
    obtain ⟨before, hOpened, hBytes | hBytes⟩ := exists_opened hp
    · rw [bytes_join, hOpened, ← hBytes, List.take_append_of_le_length hStop]
    · rw [bytes_join, hOpened, ← hBytes, List.append_assoc, List.take_append_of_le_length hStop]
  rw [parent, trimmed, located_join hp (isFileName_of_isEntryName h), List.dropLast_concat, hl]
  simp only [hTake]

/-- A name with an extension is divided at its last dot. -/
theorem eq_of_splitName {name stem extension : List UInt8}
    (h : splitName name = (stem, some extension)) : name = stem ++ dot :: extension := by
  unfold splitName at h
  dsimp only at h
  split_ifs at h with hStem
  · simp at h
  · simp only [Prod.mk.injEq, Option.some.injEq] at h
    obtain ⟨rfl, rfl⟩ := h
    cases hDrop : name.reverse.dropWhile fun b => b != dot with
    | nil => simp [hDrop] at hStem
    | cons b rest =>
        have hDot := List.head?_dropWhile_not (fun b => b != dot) name.reverse
        simp only [hDrop, List.head?_cons, bne_eq_false_iff_eq] at hDot
        subst hDot
        calc name = (name.reverse.takeWhile (fun b => b != dot) ++
              name.reverse.dropWhile fun b => b != dot).reverse := by
                rw [List.takeWhile_append_dropWhile, List.reverse_reverse]
          _ = _ := by simp [hDrop]

/-- In a name that is a text, the part before the extension is one too. -/
theorem exists_stem {name : Name} (hText : (Text.decode? name).isSome = true) {extension : String}
    (h : (splitName name).2 = some (Text.encode extension)) :
    ∃ stem : String, splitName name = (Text.encode stem, some (Text.encode extension)) := by
  have hSplit : splitName name = ((splitName name).1, some (Text.encode extension)) :=
    Prod.ext rfl h
  obtain ⟨text, hName⟩ := Option.isSome_iff_exists.mp hText
  rw [Text.decode?_eq_some_iff] at hName
  obtain ⟨first, -, -, hFirst, -⟩ := Text.exists_split_of_ascii (b := dot) (by decide)
    (hName.symm.trans (eq_of_splitName hSplit))
  have hStem : Text.encode (String.ofList first) = (splitName name).1 := by
    rw [Text.encode, String.toList_ofList, hFirst]
  exact ⟨String.ofList first, by rw [hStem, ← hSplit]⟩

/-- The copy of a file whose name is a text with an extension. -/
theorem commentedCopy_join {p : Path} (hp : p.bytes ≠ []) {name : Name}
    (hName : isEntryName name = true) {stem extension : String}
    (hSplit : splitName name = (Text.encode stem, some (Text.encode extension))) :
    (p.join name).commentedCopy =
      p.trimmed.join (Text.encode (stem ++ commentedSuffix ++ "." ++ extension)) := by
  have hFile := fileName?_join hp hName
  have hStem : (p.join name).stem? = some (Text.encode stem) := by
    simp [stem?, hFile, hSplit]
  have hExtension : (p.join name).extension? = some (Text.encode extension) := by
    simp [extension?, hFile, hSplit]
  simp only [commentedCopy, withFileName, hFile, hStem, hExtension, parent_join hp hName,
    Text.decodeLenient_encode]

end JavaOutline.Path
