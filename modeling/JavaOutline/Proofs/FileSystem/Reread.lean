import JavaOutline.Proofs.FileSystem.Write

/-! Reading what was written. A file is written where its path leads once the file is there: what
stands on the way stays where it is, and links at the end of the way are followed for reading as
they were for writing. -/
namespace JavaOutline.FileSystem

open JavaOutline.Path

/-- Following steps, and links at their end, leads to a name in a directory where a file can be
written. -/
inductive WritesTo (root : Entry) : Nat → List Name → List Name → List Name → Name → Prop
  | here {budget : Nat} {location steps l : List Name} {name : Name} {cs : List (Name × Entry)}
      (hFollow : follow root location steps = .ok (.arrived l))
      (hDirectory : root.at? l = some (.directory cs))
      (hName : name ≠ [dot] ∧ name ≠ [dot, dot] ∧ name.length ≤ nameLimit)
      (hFree : ∀ e, cs.lookup name = some e → ∃ old, e = .file old) :
      WritesTo root budget location (steps ++ [name]) l name
  | through {budget : Nat} {location steps place left l : List Name} {last name : Name}
      {target : List UInt8}
      (hFollow : follow root location steps = .ok (.atLink place target left))
      (hRest : WritesTo root budget (startOf place target) (stepsOf target ++ left ++ [last]) l
        name) :
      WritesTo root (budget + 1) location (steps ++ [last]) l name
  | atLink {budget : Nat} {location steps place l : List Name} {last name : Name}
      {target : List UInt8} {cs : List (Name × Entry)}
      (hFollow : follow root location steps = .ok (.arrived place))
      (hDirectory : root.at? place = some (.directory cs))
      (hLast : last ≠ [dot] ∧ last ≠ [dot, dot] ∧ last.length ≤ nameLimit)
      (hLink : cs.lookup last = some (.link target))
      (hRest : WritesTo root budget (startOf place target) (writeStepsOf target) l name) :
      WritesTo root (budget + 1) location (steps ++ [last]) l name

section Target

variable {root larger : Entry} {budget : Nat} {location steps l : List Name} {name : Name}

/-- Where a file would be written, following the steps leads there. -/
theorem writesTo_of_writeTarget (h : writeTarget root budget location steps = .ok (l, name)) :
    WritesTo root budget location steps l name := by
  fun_induction writeTarget root budget location steps with
  | case3 location steps place target left hFollow budget ih =>
      rcases List.eq_nil_or_concat' steps with rfl | ⟨front, last, rfl⟩
      · cases hFollow
      · rw [List.dropLast_concat] at hFollow
        rw [List.getLast?_concat] at ih h
        exact .through hFollow (ih h)
  | case10 location steps place hFollow cs last hLast hDirectory hName hLength target hLink _ ih =>
      obtain ⟨front, rfl⟩ := List.getLast?_eq_some_iff.mp hLast
      rw [List.dropLast_concat] at hFollow
      obtain ⟨hDot, hDots⟩ := not_or.mp hName
      exact .atLink hFollow hDirectory ⟨hDot, hDots, Nat.not_lt.mp hLength⟩ hLink (ih h)
  | case11 _ location steps place hFollow cs last hLast hDirectory hName hLength hNoDirectory
      hNoSealed hOpen hNoLink =>
      obtain ⟨front, rfl⟩ := List.getLast?_eq_some_iff.mp hLast
      rw [List.dropLast_concat] at hFollow
      obtain ⟨hDot, hDots⟩ := not_or.mp hName
      cases h
      refine .here hFollow hDirectory ⟨hDot, hDots, Nat.not_lt.mp hLength⟩ ?_
      intro e he
      cases e with
      | regular content =>
          cases content with
          | ok old => exact ⟨old, rfl⟩
          | error fault => exact (hOpen fault he).elim
      | directory ds => exact (hNoDirectory ds he).elim
      | sealed fault => exact (hNoSealed fault he).elim
      | link target => exact (hNoLink target he).elim
  | case1 | case2 | case4 | case5 | case6 | case7 | case8 | case9 | case12 | case13 => cases h

/-- Where a file can be written there is a directory, and no other one or a link under the name. -/
theorem WritesTo.place (h : WritesTo root budget location steps l name) :
    ∃ cs, root.at? l = some (.directory cs) ∧
      ∀ e, cs.lookup name = some e → ∃ old, e = .file old := by
  induction h with
  | here _ hDirectory _ hFree => exact ⟨_, hDirectory, hFree⟩
  | through _ _ ih => exact ih
  | atLink _ _ _ _ _ ih => exact ih

/-- The last step to a file does not ask for a directory. -/
theorem WritesTo.last (h : WritesTo root budget location steps l name) :
    ∃ front last, steps = front ++ [last] ∧ last ≠ [dot] := by
  induction h with
  | here _ _ hName _ => exact ⟨_, _, rfl, hName.1⟩
  | through _ _ ih =>
      obtain ⟨front, last, hSteps, hLast⟩ := ih
      obtain ⟨-, rfl⟩ := List.append_singleton_inj.mp hSteps
      exact ⟨_, _, rfl, hLast⟩
  | atLink _ _ hLast _ _ _ => exact ⟨_, _, rfl, hLast.1⟩

/-- A path without a slash at its end asks for no more than its names. -/
theorem stepsOf_eq_namesOf {bytes : List UInt8} (hBytes : bytes ≠ [])
    (hLast : bytes.getLast? ≠ some slash) : stepsOf bytes = namesOf bytes := by
  by_cases hSlash : slash ∈ bytes
  · obtain ⟨before, last, rfl, hNoSlash⟩ := exists_last_segment hSlash
    have hNonempty : last ≠ [] := by
      rintro rfl
      exact hLast List.getLast?_concat
    rw [stepsOf_append before hNoSlash, namesOf_append before hNoSlash, if_neg hNonempty,
      if_neg hNonempty]
  · exact stepsOf_of_notMem hSlash hBytes

/-- A path under which a file is written has the same steps for reading. -/
theorem WritesTo.stepsOf_eq {bytes : List UInt8}
    (h : WritesTo root budget location (writeStepsOf bytes) l name) :
    stepsOf bytes = writeStepsOf bytes := by
  obtain ⟨front, last, hSteps, hLast⟩ := h.last
  have hNoSlash : bytes.getLast? ≠ some slash := by
    intro hSlash
    simp only [writeStepsOf, if_pos hSlash] at hSteps
    obtain ⟨-, hDot⟩ := List.append_singleton_inj.mp hSteps
    exact hLast hDot.symm
  have hBytes : bytes ≠ [] := by
    rintro rfl
    simp [writeStepsOf, segments] at hSteps
  rw [stepsOf_eq_namesOf hBytes hNoSlash, writeStepsOf, if_neg hNoSlash]
  rfl

/-- Following one name in a directory looks up its entry. -/
theorem follow_singleton {cs : List (Name × Entry)} (hDirectory : root.at? l = some (.directory cs))
    (hName : name ≠ [dot] ∧ name ≠ [dot, dot] ∧ name.length ≤ nameLimit) :
    follow root l [name] =
      match cs.lookup name with
      | none => .error .notFound
      | some (.link target) => .ok (.atLink l target [])
      | some _ => .ok (.arrived (l ++ [name])) := by
  obtain ⟨hDot, hDots, hLength⟩ := hName
  rw [follow, hDirectory]
  simp only [if_neg hDot, if_neg hDots, if_neg (Nat.not_lt.mpr hLength)]
  cases cs.lookup name with
  | none => rfl
  | some e => cases e <;> rfl

/-- In a tree where the file is there and the rest is as it was, reading leads to the file. -/
theorem WritesTo.resolveSteps_eq {content : List UInt8}
    (h : WritesTo root budget location steps l name) (hKeeps : KeepsKinds root larger)
    (hFile : larger.at? (l ++ [name]) = some (.file content)) :
    resolveSteps larger budget location steps = .ok (l ++ [name]) := by
  induction h with
  | here hFollow hDirectory hName _ =>
      obtain ⟨ds, hLarger⟩ := hKeeps.directory _ _ hDirectory
      rw [Entry.at?_concat_of_directory hLarger] at hFile
      rw [resolveSteps, follow_append, hKeeps.follow hFollow]
      dsimp only
      rw [follow_singleton hLarger hName, hFile]
  | through hFollow _ ih =>
      rw [resolveSteps, follow_append, hKeeps.follow hFollow]
      have hRest := ih hFile
      rw [List.append_assoc] at hRest
      exact hRest
  | atLink hFollow hDirectory hLast hLink hRest ih =>
      obtain ⟨ds, hLarger⟩ := hKeeps.directory _ _ hDirectory
      have hStill := hKeeps.link _ _ ((Entry.at?_concat_of_directory hDirectory _).trans hLink)
      rw [Entry.at?_concat_of_directory hLarger] at hStill
      rw [resolveSteps, follow_append, hKeeps.follow hFollow]
      dsimp only
      rw [follow_singleton hLarger hLast, hStill]
      dsimp only
      rw [List.append_nil, hRest.stepsOf_eq]
      exact ih hFile

/-- Putting a file where there is none, or another file, keeps everything else. -/
theorem keepsKinds_put {cs : List (Name × Entry)} (hDirectory : root.at? l = some (.directory cs))
    (hFree : ∀ e, cs.lookup name = some e → ∃ old, e = .file old) (content : List UInt8) :
    KeepsKinds root (Entry.put (.file content) name l root) ∧
      (Entry.put (.file content) name l root).at? (l ++ [name]) = some (.file content) := by
  have hPut := Entry.faceAt_put hDirectory hFree content
  have hHere : (Entry.put (.file content) name l root).at? (l ++ [name]) = some (.file content) :=
    Entry.faceAt_regular.mp (by rw [hPut, if_pos rfl])
  refine ⟨?_, hHere⟩
  apply keepsKinds_of_faceAt [l ++ [name]]
  · intro x hx
    rw [hPut, if_neg (by simpa using hx)]
  · intro x hx
    obtain rfl := List.mem_singleton.mp hx
    exact ⟨content, hHere⟩
  · intro x hx e he
    obtain rfl := List.mem_singleton.mp hx
    rw [Entry.at?_concat_of_directory hDirectory] at he
    exact hFree e he

end Target

/-- A file that has been written holds what was written to it. -/
theorem read_of_write {fs after : FileSystem} {p : Path} {content : List UInt8}
    (h : fs.write p content = .ok after) : after.read p = .ok content := by
  unfold write at h
  split at h
  · cases h
  · rename_i hFault
    split_ifs at h with hBytes
    split at h
    · cases h
    · rename_i l name hTarget
      cases h
      have hWrites := writesTo_of_writeTarget hTarget
      obtain ⟨cs, hDirectory, hFree⟩ := hWrites.place
      obtain ⟨hKeeps, hFile⟩ := keepsKinds_put hDirectory hFree content
      rw [read_eq_ok_iff, entry?_eq_some_iff]
      refine ⟨l ++ [name], ?_, hFile⟩
      simp only [resolve, hFault, locate, if_neg hBytes]
      rw [hWrites.stepsOf_eq]
      exact hWrites.resolveSteps_eq hKeeps hFile

end JavaOutline.FileSystem
