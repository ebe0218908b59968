import JavaOutline.FileSystem.Resolve
import JavaOutline.Proofs.FileSystem.Location
import JavaOutline.Proofs.Path.Components

/-! Following paths step by step. What a path leads to, and where a file is written, is found by
following the steps of the path from one location to the next, so a longer path goes on where a
shorter one ends, with as many links left to follow. -/
namespace JavaOutline.FileSystem

open JavaOutline.Path

/-- More steps are followed from where the first ones lead; behind a link they have to wait. -/
theorem follow_append (root : Entry) (location steps more : List Name) :
    follow root location (steps ++ more) =
      match follow root location steps with
      | .error fault => .error fault
      | .ok (.arrived l) => follow root l more
      | .ok (.atLink l target left) => .ok (.atLink l target (left ++ more)) := by
  induction steps generalizing location with
  | nil => rfl
  | cons step rest ih =>
      rw [List.cons_append, follow, follow]
      split
      · simp only [ih]
        split_ifs
        · rfl
        · rfl
        · rfl
        · split <;> rfl
      · rfl
      · rfl

/-- Following steps from a location leads to another one, and so many links may still be
followed. -/
inductive LeadsTo (root : Entry) : Nat → List Name → List Name → Nat → List Name → Prop
  | arrived {budget : Nat} {location steps l : List Name}
      (hFollow : follow root location steps = .ok (.arrived l)) :
      LeadsTo root budget location steps budget l
  | link {budget left : Nat} {location steps place waiting l : List Name} {target : List UInt8}
      (hFollow : follow root location steps = .ok (.atLink place target waiting))
      (hRest : LeadsTo root budget (startOf place target) (stepsOf target ++ waiting) left l) :
      LeadsTo root (budget + 1) location steps left l

/-- Steps that are resolved lead somewhere. -/
theorem leadsTo_of_resolveSteps {root : Entry} {budget : Nat} {location steps l : List Name}
    (h : resolveSteps root budget location steps = .ok l) :
    ∃ left, LeadsTo root budget location steps left l := by
  induction budget generalizing location steps with
  | zero =>
      rw [resolveSteps] at h
      split at h
      · cases h
      · rename_i hFollow
        cases h
        exact ⟨0, .arrived hFollow⟩
      · cases h
  | succ budget ih =>
      rw [resolveSteps] at h
      split at h
      · cases h
      · rename_i hFollow
        cases h
        exact ⟨budget + 1, .arrived hFollow⟩
      · rename_i hFollow
        obtain ⟨left, hRest⟩ := ih h
        exact ⟨left, .link hFollow hRest⟩

/-- After steps that lead to a location, further steps are resolved from there. -/
theorem LeadsTo.resolveSteps_append {root : Entry} {budget left : Nat}
    {location steps l : List Name} (h : LeadsTo root budget location steps left l)
    (more : List Name) :
    resolveSteps root budget location (steps ++ more) = resolveSteps root left l more := by
  induction h with
  | arrived hFollow =>
      rw [resolveSteps, resolveSteps, follow_append, hFollow]
  | link hFollow _ ih =>
      rw [resolveSteps, follow_append, hFollow]
      simpa using ih

theorem LeadsTo.resolveSteps_eq {root : Entry} {budget left : Nat} {location steps l : List Name}
    (h : LeadsTo root budget location steps left l) :
    resolveSteps root budget location steps = .ok l := by
  rw [← List.append_nil steps, h.resolveSteps_append, resolveSteps]
  rfl

/-- After steps that lead to a location, a file is written as from there. -/
theorem LeadsTo.writeTarget_append {root : Entry} {budget left : Nat}
    {location steps l : List Name} (h : LeadsTo root budget location steps left l)
    (more : List Name) (name : Name) :
    writeTarget root budget location (steps ++ more ++ [name]) =
      writeTarget root left l (more ++ [name]) := by
  induction h with
  | arrived hFollow =>
      rw [writeTarget, writeTarget]
      simp only [List.dropLast_concat, List.getLast?_concat, follow_append, hFollow]
  | link hFollow _ ih =>
      rw [writeTarget]
      simp only [List.dropLast_concat, List.getLast?_concat, follow_append, hFollow]
      simpa using ih

/-- A step that stays where it is can be left out at the end. -/
theorem LeadsTo.of_concat_dot {root : Entry} {budget left : Nat} {location steps l : List Name}
    (h : LeadsTo root budget location (steps ++ [[dot]]) left l) :
    LeadsTo root budget location steps left l := by
  generalize hSteps : steps ++ [[dot]] = all at h
  induction h generalizing steps with
  | arrived hFollow =>
      subst hSteps
      rw [follow_append] at hFollow
      split at hFollow
      · cases hFollow
      · rename_i place hPlace
        -- The last step needs a directory and stays in it.
        rw [follow] at hFollow
        split at hFollow
        · simp only [if_true, follow, Except.ok.injEq, Stop.arrived.injEq] at hFollow
          exact .arrived (hFollow ▸ hPlace)
        · cases hFollow
        · cases hFollow
      · cases hFollow
  | link hFollow _ ih =>
      subst hSteps
      rw [follow_append] at hFollow
      split at hFollow
      · cases hFollow
      · rename_i place hPlace
        rw [follow] at hFollow
        split at hFollow
        · simp [follow] at hFollow
        · cases hFollow
        · cases hFollow
      · rename_i hLink
        simp only [Except.ok.injEq, Stop.atLink.injEq] at hFollow
        obtain ⟨rfl, rfl, rfl⟩ := hFollow
        exact .link hLink (ih (by simp))

/-- The names in a path, with `.` and `..` among them. -/
def namesOf (bytes : List UInt8) : List Name :=
  ((segments 0 bytes).map fun s => s.2).filter fun s => !s.isEmpty

/-- The last component of a path is its last name, if it is not empty. -/
theorem namesOf_append (before : List UInt8) {last : List UInt8} (h : slash ∉ last) :
    namesOf (before ++ slash :: last) = namesOf before ++ if last = [] then [] else [last] := by
  rw [namesOf, segments_append, segments_of_notMem h, List.map_append, List.filter_append]
  split_ifs with hLast <;> simp [namesOf, hLast]

/-- After a slash at the end a directory is asked for. -/
theorem stepsOf_append (before : List UInt8) {last : List UInt8} (h : slash ∉ last) :
    stepsOf (before ++ slash :: last) =
      namesOf before ++ [if last = [] then [dot] else last] := by
  rw [stepsOf, segments_append, segments_of_notMem h]
  cases last <;> simp [namesOf]

theorem stepsOf_of_notMem {bytes : List UInt8} (h : slash ∉ bytes) (hBytes : bytes ≠ []) :
    stepsOf bytes = namesOf bytes := by
  rw [stepsOf, namesOf, segments_of_notMem h]
  cases bytes with
  | nil => exact (hBytes rfl).elim
  | cons b rest => simp

/-- The steps of a path are its names, with a last step that stays where it is if a slash at the end
asks for a directory. -/
theorem stepsOf_eq {bytes : List UInt8} (hBytes : bytes ≠ []) :
    stepsOf bytes = namesOf bytes ∨ stepsOf bytes = namesOf bytes ++ [[dot]] := by
  by_cases hSlash : slash ∈ bytes
  · obtain ⟨before, last, rfl, hLast⟩ := exists_last_segment hSlash
    rw [stepsOf_append before hLast, namesOf_append before hLast]
    split_ifs
    · simp
    · exact .inl rfl
  · exact .inl (stepsOf_of_notMem hSlash hBytes)

section Join

variable {p : Path} {name : Name}

theorem exists_bytes_join (hp : p.bytes ≠ []) (name : Name) :
    ∃ before, (p.join name).bytes = before ++ slash :: name ∧
      namesOf p.bytes = namesOf before := by
  obtain ⟨before, hOpened, hBytes⟩ := exists_opened hp
  refine ⟨before, by rw [bytes_join, hOpened]; simp, ?_⟩
  rcases hBytes with hBytes | hBytes
  · rw [hBytes, namesOf_append before (by simp)]
    simp
  · rw [hBytes]

/-- The steps to a file in a directory are the names of the directory's path and that of the
file. -/
theorem stepsOf_join (hp : p.bytes ≠ []) (h : isEntryName name = true) :
    stepsOf (p.join name).bytes = namesOf p.bytes ++ [name] := by
  obtain ⟨hNonempty, hSlash, -⟩ := isEntryName_iff.mp h
  obtain ⟨before, hBytes, hNames⟩ := exists_bytes_join hp name
  rw [hBytes, stepsOf_append before hSlash, if_neg hNonempty, hNames]

/-- The names in the path of a file are those of its directory's path and its own. -/
theorem namesOf_join (hp : p.bytes ≠ []) (h : isEntryName name = true) :
    namesOf (p.join name).bytes = namesOf p.bytes ++ [name] := by
  obtain ⟨hNonempty, hSlash, -⟩ := isEntryName_iff.mp h
  obtain ⟨before, hBytes, hNames⟩ := exists_bytes_join hp name
  rw [hBytes, namesOf_append before hSlash, if_neg hNonempty, hNames]

theorem writeStepsOf_join (hp : p.bytes ≠ []) (h : isEntryName name = true) :
    writeStepsOf (p.join name).bytes = namesOf p.bytes ++ [name] := by
  obtain ⟨hNonempty, hSlash, -⟩ := isEntryName_iff.mp h
  have hLast : (p.join name).bytes.getLast? ≠ some slash := by
    rw [bytes_join, List.getLast?_append, List.getLast?_eq_some_getLast hNonempty, Option.some_or]
    intro hEq
    exact hSlash (Option.some.inj hEq ▸ List.getLast_mem hNonempty)
  rw [← namesOf_join hp h, writeStepsOf]
  simp only [if_neg hLast, namesOf]

/-- A file is looked for from where its directory is. -/
theorem startOf_join (location : List Name) (hp : p.bytes ≠ []) (name : Name) :
    startOf location (p.join name).bytes = startOf location p.bytes := by
  obtain ⟨b, rest, hBytes⟩ := List.exists_cons_of_ne_nil hp
  obtain ⟨before, hOpened, hCases⟩ := exists_opened hp
  rw [startOf, startOf, isAbsolute, isAbsolute, bytes_join, hOpened]
  rcases hCases with hCases | hCases
  · rw [← hCases, hBytes]
    simp
  · rw [← hCases, hBytes]
    simp

end Join

/-- A path that leads to a directory leads there by its names alone. -/
theorem exists_leadsTo {fs : FileSystem} {p : Path} {location : List Name}
    (h : fs.resolve p = .ok location) :
    p.bytes ≠ [] ∧ ∃ left, LeadsTo fs.root linkLimit (startOf fs.current p.bytes)
      (namesOf p.bytes) left location := by
  unfold resolve locate at h
  split at h
  · cases h
  · split_ifs at h with hp
    obtain ⟨left, hLeads⟩ := leadsTo_of_resolveSteps h
    refine ⟨hp, left, ?_⟩
    rcases stepsOf_eq hp with hSteps | hSteps
    · rwa [hSteps] at hLeads
    · rw [hSteps] at hLeads
      exact hLeads.of_concat_dot

/-- The names on the way down to an entry that is no link are followed to it, if none is too
long. -/
theorem follow_trail {root e : Entry} {location trail : List Name}
    (hAt : root.at? (location ++ trail) = some e) (hLink : ∀ target, e ≠ .link target)
    (hNames : ∀ name ∈ trail, isEntryName name = true) :
    follow root location trail =
      if ∀ name ∈ trail, name.length ≤ nameLimit then .ok (.arrived (location ++ trail))
      else .error .nameTooLong := by
  induction trail generalizing location with
  | nil => simp [follow]
  | cons name trail ih =>
      obtain ⟨-, -, -, hDot, hDots⟩ := isEntryName_iff.mp (hNames name List.mem_cons_self)
      rw [List.append_cons] at hAt ⊢
      obtain ⟨c, hc, hRest⟩ := Option.bind_eq_some_iff.mp ((Entry.at?_append ..).symm.trans hAt)
      obtain ⟨cs, hDirectory, hLookup⟩ := Entry.at?_concat_eq_some hc
      have hAfter := ih hAt fun n hn => hNames n (List.mem_cons_of_mem _ hn)
      rw [follow, hDirectory]
      simp only [if_neg hDot, if_neg hDots, hLookup, List.forall_mem_cons]
      by_cases hLength : name.length ≤ nameLimit
      · rw [if_neg (Nat.not_lt.mpr hLength)]
        simp only [hLength, true_and]
        cases c with
        | regular content => exact hAfter
        | sealed fault => exact hAfter
        | directory ds => exact hAfter
        | link target =>
            -- Nothing is in a link, so it would be what the trail leads to.
            cases trail with
            | nil => exact (hLink target (by simpa using hRest.symm)).elim
            | cons next rest => simp [Entry.at?, Entry.child?, Entry.children] at hRest
      · rw [if_pos (Nat.lt_of_not_le hLength), if_neg fun h => hLength h.1]

/-- The path of an entry that is no link leads to it. -/
theorem resolve_join {fs : FileSystem} {p : Path} {location : List Name} {name : Name} {e : Entry}
    (h : fs.resolve p = .ok location)
    (hEntry : fs.root.at? (location ++ [name]) = some e) (hLink : ∀ target, e ≠ .link target)
    (hName : isEntryName name = true) (hLength : name.length ≤ nameLimit)
    (hPath : pathFault? (p.join name) = none) :
    fs.resolve (p.join name) = .ok (location ++ [name]) := by
  obtain ⟨hp, left, hLeads⟩ := exists_leadsTo h
  have hFollow : follow fs.root location [name] = .ok (.arrived (location ++ [name])) := by
    rw [follow_trail hEntry hLink (by simpa using hName), if_pos (by simpa using hLength)]
  simp only [resolve, hPath, locate]
  rw [if_neg (bytes_join_ne_nil p hName), startOf_join _ hp, stepsOf_join hp hName,
    hLeads.resolveSteps_append, resolveSteps, hFollow]

/-- If the path of an entry leads anywhere, and the entry is no link, then it leads to the entry. -/
theorem eq_of_resolve_join {fs : FileSystem} {p : Path} {location l : List Name} {name : Name}
    (h : fs.resolve p = .ok location) (hJoin : fs.resolve (p.join name) = .ok l)
    (hName : isEntryName name = true)
    (hLink : ∀ target, fs.root.at? (location ++ [name]) ≠ some (.link target)) :
    pathFault? (p.join name) = none ∧ l = location ++ [name] := by
  obtain ⟨hp, left, hLeads⟩ := exists_leadsTo h
  obtain ⟨-, -, -, hDot, hDots⟩ := isEntryName_iff.mp hName
  unfold resolve locate at hJoin
  split at hJoin
  · cases hJoin
  · refine ⟨‹_›, ?_⟩
    rw [if_neg (bytes_join_ne_nil p hName), startOf_join _ hp, stepsOf_join hp hName,
      hLeads.resolveSteps_append, resolveSteps, follow] at hJoin
    cases hAt : fs.root.at? location with
    | none => simp [hAt] at hJoin
    | some e =>
        cases e with
        | regular content => simp [hAt] at hJoin
        | sealed fault => simp [hAt] at hJoin
        | link target => simp [hAt] at hJoin
        | directory cs =>
            have hEntry := Entry.at?_concat_of_directory hAt name
            simp only [hAt, if_neg hDot, if_neg hDots] at hJoin
            split_ifs at hJoin
            cases hLookup : cs.lookup name with
            | none => simp [hLookup] at hJoin
            | some c =>
                cases c with
                | link target => exact (hLink target (hEntry.trans hLookup)).elim
                | regular content => simpa [hLookup, follow, eq_comm] using hJoin
                | sealed fault => simpa [hLookup, follow, eq_comm] using hJoin
                | directory ds => simpa [hLookup, follow, eq_comm] using hJoin

/-- A path leads to an entry if it is resolved to the entry's location. -/
theorem entry?_eq_some_iff {fs : FileSystem} {p : Path} {e : Entry} :
    fs.entry? p = some e ↔ ∃ l, fs.resolve p = .ok l ∧ fs.root.at? l = some e := by
  unfold entry?
  cases fs.resolve p with
  | error fault => simp
  | ok l => simp

/-- What can be read is a file that the path leads to. -/
theorem read_eq_ok_iff {fs : FileSystem} {p : Path} {content : List UInt8} :
    fs.read p = .ok content ↔ fs.entry? p = some (.file content) := by
  unfold read entry?
  cases fs.resolve p with
  | error fault => simp
  | ok l =>
      dsimp only
      cases fs.root.at? l with
      | none => simp
      | some e => cases e <;> simp

/-- What is read from a file is what it holds, or why it cannot be opened. -/
theorem read_of_entry?_eq {fs : FileSystem} {p : Path} {content : Except FileFault (List UInt8)}
    (h : fs.entry? p = some (.regular content)) : fs.read p = content := by
  obtain ⟨l, hLeads, hFile⟩ := entry?_eq_some_iff.mp h
  simp only [read, hLeads, hFile]

/-- A file is one whether or not it can be opened. -/
theorem isFile_iff {fs : FileSystem} {p : Path} :
    fs.isFile p = true ↔ ∃ content, fs.entry? p = some (.regular content) := by
  rw [isFile]
  cases fs.entry? p with
  | none => simp
  | some e => cases e <;> simp [Entry.isFile]

/-- What a path leads to can be a file that cannot be opened. -/
theorem isFile_of_resolve {fs : FileSystem} {p : Path} {l : List Name}
    {content : Except FileFault (List UInt8)} (h : fs.resolve p = .ok l)
    (hFile : fs.root.at? l = some (.regular content)) : fs.isFile p = true :=
  isFile_iff.mpr ⟨content, entry?_eq_some_iff.mpr ⟨l, h, hFile⟩⟩

theorem isFile_of_read {fs : FileSystem} {p : Path} {content : List UInt8}
    (h : fs.read p = .ok content) : fs.isFile p = true :=
  isFile_iff.mpr ⟨_, read_eq_ok_iff.mp h⟩

/-- A path leads to a directory even if the directory cannot be opened. -/
theorem isDirectory_iff {fs : FileSystem} {p : Path} :
    fs.isDirectory p = true ↔ ∃ e, fs.entry? p = some e ∧ e.isDirectory = true := by
  rw [isDirectory]
  cases fs.entry? p with
  | none => simp
  | some e => simp

end JavaOutline.FileSystem
