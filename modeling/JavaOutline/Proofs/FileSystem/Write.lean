import JavaOutline.Proofs.FileSystem.Reach
import JavaOutline.Proofs.Path.Copy

/-! Writing files. A file that is written appears at one location, and everything else stays as it
is: what is at other locations, and what paths lead to that led anywhere before. -/
namespace JavaOutline

namespace Entry

/-- What an entry is by itself, without what is in it. -/
def face : Entry → Entry
  | .directory _ => .directory []
  | e => e

/-- What is at a location, without what is in it. -/
def faceAt (root : Entry) (l : List Name) : Option Entry := (root.at? l).map face

/-- By what a file is by itself it is known. -/
theorem eq_of_face_eq {e : Entry} {content : List UInt8} (h : e.face = face (.file content)) :
    e = .file content := by
  cases e with
  | regular now => exact h
  | sealed fault => exact h
  | link target => exact h
  | directory cs => cases h

theorem faceAt_nil (root : Entry) : root.faceAt [] = some root.face := by
  rw [faceAt, at?_nil, Option.map_some]

theorem faceAt_directory_cons (cs : List (Name × Entry)) (name : Name) (rest : List Name) :
    faceAt (.directory cs) (name :: rest) = (cs.lookup name).bind fun c => c.faceAt rest := by
  rw [faceAt, at?]
  cases hLookup : cs.lookup name <;> simp [child?, children, hLookup, faceAt]

/-- What is no directory is nothing but its face. -/
theorem faceAt_eq_some_iff {root e : Entry} {l : List Name} (he : ∀ cs, e ≠ .directory cs) :
    root.faceAt l = some e ↔ root.at? l = some e := by
  rw [faceAt, Option.map_eq_some_iff]
  constructor
  · rintro ⟨d, hAt, rfl⟩
    cases d with
    | regular content => exact hAt
    | sealed fault => exact hAt
    | link target => exact hAt
    | directory cs => exact (he [] rfl).elim
  · intro hAt
    cases e with
    | regular content => exact ⟨_, hAt, rfl⟩
    | sealed fault => exact ⟨_, hAt, rfl⟩
    | link target => exact ⟨_, hAt, rfl⟩
    | directory cs => exact (he cs rfl).elim

theorem faceAt_regular {root : Entry} {l : List Name} {content : Except FileFault (List UInt8)} :
    root.faceAt l = some (.regular content) ↔ root.at? l = some (.regular content) :=
  faceAt_eq_some_iff (by simp)

theorem faceAt_sealed {root : Entry} {l : List Name} {fault : FileFault} :
    root.faceAt l = some (.sealed fault) ↔ root.at? l = some (.sealed fault) :=
  faceAt_eq_some_iff (by simp)

theorem faceAt_link {root : Entry} {l : List Name} {target : List UInt8} :
    root.faceAt l = some (.link target) ↔ root.at? l = some (.link target) :=
  faceAt_eq_some_iff (by simp)

/-- A directory is known by its face. -/
theorem faceAt_directory {root : Entry} {l : List Name} :
    root.faceAt l = some (.directory []) ↔ ∃ cs, root.at? l = some (.directory cs) := by
  rw [faceAt, Option.map_eq_some_iff]
  constructor
  · rintro ⟨e, he, hFace⟩
    cases e with
    | regular content => cases hFace
    | sealed fault => cases hFace
    | link target => cases hFace
    | directory cs => exact ⟨cs, he⟩
  · rintro ⟨cs, h⟩
    exact ⟨_, h, rfl⟩

theorem lookup_cons_eq (m n : Name) (e : Entry) (cs : List (Name × Entry)) :
    ((m, e) :: cs).lookup n = if n = m then some e else cs.lookup n := by
  by_cases h : n = m
  · subst h
    simp
  · rw [List.lookup_cons, beq_false_of_ne h, if_neg h]

theorem lookup_putIn (name n : Name) (e : Entry) (cs : List (Name × Entry)) :
    (putIn name e cs).lookup n = if n = name then some e else cs.lookup n := by
  induction cs with
  | nil => rw [putIn, lookup_cons_eq]
  | cons c cs ih =>
      obtain ⟨m, d⟩ := c
      rw [putIn]
      by_cases hSame : m = name
      · rw [if_pos hSame, lookup_cons_eq, lookup_cons_eq, hSame]
        split_ifs <;> rfl
      · rw [if_neg hSame, lookup_cons_eq, lookup_cons_eq, ih]
        by_cases hm : n = m
        · rw [if_pos hm, if_neg (hm ▸ hSame), if_pos hm]
        · rw [if_neg hm, if_neg hm]

/-- Putting a file into a directory changes what is at its location and nothing else. -/
theorem faceAt_put {root : Entry} {location : List Name} {cs : List (Name × Entry)} {name : Name}
    (hDirectory : root.at? location = some (.directory cs))
    (hFree : ∀ e, cs.lookup name = some e → ∃ old, e = .file old) (content : List UInt8)
    (l : List Name) :
    (put (.file content) name location root).faceAt l =
      if l = location ++ [name] then some (.file content) else root.faceAt l := by
  induction location generalizing root l with
  | nil =>
      obtain rfl : root = .directory cs := by simpa using hDirectory
      cases l with
      | nil => simp [put, faceAt_nil, face]
      | cons n rest =>
          rw [put, faceAt_directory_cons, faceAt_directory_cons, lookup_putIn, List.nil_append]
          by_cases hn : n = name
          · subst hn
            cases rest with
            | nil => simp [faceAt_nil, face]
            | cons m rest =>
                -- Nothing is in a file, and nothing was in what it replaces.
                cases hLookup : cs.lookup n with
                | none => simp [faceAt, at?, child?, children]
                | some e =>
                    obtain ⟨old, rfl⟩ := hFree e hLookup
                    simp [faceAt, at?, child?, children]
          · simp [hn]
  | cons step location ih =>
      rw [at?] at hDirectory
      obtain ⟨c, hChild, hRest⟩ := Option.bind_eq_some_iff.mp hDirectory
      obtain ⟨es, rfl, hLookup⟩ := eq_directory_of_child? hChild
      rw [put]
      simp only [hLookup]
      cases l with
      | nil => simp [faceAt_nil, face]
      | cons n rest =>
          rw [faceAt_directory_cons, faceAt_directory_cons, lookup_putIn, List.cons_append]
          by_cases hn : n = step
          · subst hn
            simp [hLookup, ih hRest]
          · simp [hn]

theorem mem_putIn {name n : Name} {e x : Entry} {cs : List (Name × Entry)}
    (h : (n, x) ∈ putIn name e cs) : (n, x) ∈ cs ∨ n = name ∧ x = e := by
  induction cs with
  | nil => simpa [putIn] using h
  | cons c cs ih =>
      obtain ⟨m, d⟩ := c
      rw [putIn] at h
      split_ifs at h with hSame
      · rcases List.mem_cons.mp h with hFirst | hRest
        · simp only [Prod.mk.injEq] at hFirst
          exact .inr ⟨hFirst.1.trans hSame, hFirst.2⟩
        · exact .inl (List.mem_cons_of_mem _ hRest)
      · rcases List.mem_cons.mp h with hFirst | hRest
        · exact .inl (hFirst ▸ List.mem_cons_self)
        · exact (ih hRest).imp_left (List.mem_cons_of_mem _)

theorem nodup_putIn {name : Name} {e : Entry} {cs : List (Name × Entry)}
    (h : (cs.map Prod.fst).Nodup) : ((putIn name e cs).map Prod.fst).Nodup := by
  induction cs with
  | nil => simp [putIn]
  | cons c cs ih =>
      obtain ⟨m, d⟩ := c
      obtain ⟨hFresh, hRest⟩ := List.nodup_cons.mp h
      rw [putIn]
      split_ifs with hSame
      · exact h
      · refine List.nodup_cons.mpr ⟨fun hMem => ?_, ih hRest⟩
        obtain ⟨⟨n, x⟩, hx, rfl⟩ := List.mem_map.mp hMem
        rcases mem_putIn hx with hOld | ⟨hName, -⟩
        · exact hFresh (List.mem_map.mpr ⟨_, hOld, rfl⟩)
        · exact hSame hName

/-- A proper directory stays proper if the new entry is and has a name that can be one. -/
theorem areProper_putIn {name : Name} {e : Entry} {cs : List (Name × Entry)}
    (hName : isEntryName name = true) (he : e.isProper = true) (h : areProper cs = true) :
    areProper (putIn name e cs) = true := by
  obtain ⟨hNodup, hAll⟩ := areProper_iff.mp h
  refine areProper_iff.mpr ⟨nodup_putIn hNodup, fun n x hx => ?_⟩
  rcases mem_putIn hx with hOld | ⟨rfl, rfl⟩
  · exact hAll n x hOld
  · exact ⟨hName, he⟩

/-- A proper entry that is put into a proper one leaves it proper. -/
theorem isProper_put {name : Name} {new root : Entry} {location : List Name}
    (hName : isEntryName name = true) (hNew : new.isProper = true) (h : root.isProper = true) :
    (put new name location root).isProper = true := by
  fun_induction put new name location root with
  | case1 cs => exact areProper_putIn hName hNew h
  | case2 step rest cs c hLookup ih =>
      obtain ⟨hStep, hc⟩ := (areProper_iff.mp h).2 step c (mem_of_lookup hLookup)
      exact areProper_putIn hStep (ih hc) h
  | case3 => exact h
  | case4 => exact h

end Entry

namespace FileSystem

open JavaOutline.Path

section Kinds

variable {root larger : Entry}

/-- Everything in one tree is in another one too: directories as directories, links with their
targets, and files with some content. -/
structure KeepsKinds (root larger : Entry) : Prop where
  regular : ∀ l content, root.at? l = some (.regular content) →
    ∃ other, larger.at? l = some (.regular other)
  directory : ∀ l cs, root.at? l = some (.directory cs) →
    ∃ ds, larger.at? l = some (.directory ds)
  sealed : ∀ l fault, root.at? l = some (.sealed fault) → larger.at? l = some (.sealed fault)
  link : ∀ l target, root.at? l = some (.link target) → larger.at? l = some (.link target)

/-- Adding files at some locations, where there was nothing or a file, keeps everything else. -/
theorem keepsKinds_of_faceAt (added : List (List Name))
    (same : ∀ l, l ∉ added → larger.faceAt l = root.faceAt l)
    (isFile : ∀ l ∈ added, ∃ content, larger.at? l = some (.file content))
    (wasFree : ∀ l ∈ added, ∀ e, root.at? l = some e → ∃ content, e = .file content) :
    KeepsKinds root larger := by
  have hSame (l : List Name) (e : Entry) (hAt : root.at? l = some e)
      (he : ∀ content, e ≠ .file content) : larger.faceAt l = root.faceAt l := by
    apply same
    intro hl
    obtain ⟨content, hContent⟩ := wasFree l hl e hAt
    exact he content hContent
  refine ⟨?_, ?_, ?_, ?_⟩
  · intro l content hFile
    by_cases hl : l ∈ added
    · obtain ⟨other, hOther⟩ := isFile l hl
      exact ⟨_, hOther⟩
    · rw [← Entry.faceAt_regular, ← same l hl, Entry.faceAt_regular] at hFile
      exact ⟨content, hFile⟩
  · intro l cs hDirectory
    rw [← Entry.faceAt_directory, hSame l _ hDirectory (by simp)]
    exact Entry.faceAt_directory.mpr ⟨cs, hDirectory⟩
  · intro l fault hSealed
    rw [← Entry.faceAt_sealed, hSame l _ hSealed (by simp)]
    exact Entry.faceAt_sealed.mpr hSealed
  · intro l target hLink
    rw [← Entry.faceAt_link, hSame l _ hLink (by simp)]
    exact Entry.faceAt_link.mpr hLink

/-- A directory stays one, sealed or not. -/
theorem KeepsKinds.isDirectory {e : Entry} (h : KeepsKinds root larger) {l : List Name}
    (hAt : root.at? l = some e) (hDirectory : e.isDirectory = true) :
    ∃ d, larger.at? l = some d ∧ d.isDirectory = true := by
  cases e with
  | directory cs =>
      obtain ⟨ds, hLarger⟩ := h.directory l cs hAt
      exact ⟨_, hLarger, rfl⟩
  | sealed fault => exact ⟨_, h.sealed l fault hAt, rfl⟩
  | regular content => cases hDirectory
  | link target => cases hDirectory

/-- Where steps led before, they lead still. -/
theorem KeepsKinds.follow (h : KeepsKinds root larger) {location steps : List Name} {stop : Stop}
    (hFollow : follow root location steps = .ok stop) :
    follow larger location steps = .ok stop := by
  induction steps generalizing location with
  | nil => exact hFollow
  | cons step rest ih =>
      rw [FileSystem.follow] at hFollow ⊢
      cases hAt : root.at? location with
      | none => simp [hAt] at hFollow
      | some e =>
          cases e with
          | regular content => simp [hAt] at hFollow
          | sealed fault => simp [hAt] at hFollow
          | link target => simp [hAt] at hFollow
          | directory cs =>
              obtain ⟨ds, hLarger⟩ := h.directory location cs hAt
              simp only [hAt, hLarger] at hFollow ⊢
              split_ifs at hFollow ⊢
              · exact ih hFollow
              · exact ih hFollow
              · have hOld := Entry.at?_concat_of_directory hAt step
                have hNew := Entry.at?_concat_of_directory hLarger step
                cases hLookup : cs.lookup step with
                | none => simp [hLookup] at hFollow
                | some c =>
                    rw [hLookup] at hOld hFollow
                    cases c with
                    | regular content =>
                        obtain ⟨other, hOther⟩ := h.regular _ _ hOld
                        rw [← hNew, hOther]
                        exact ih hFollow
                    | sealed fault =>
                        rw [← hNew, h.sealed _ _ hOld]
                        exact ih hFollow
                    | directory es =>
                        obtain ⟨other, hOther⟩ := h.directory _ _ hOld
                        rw [← hNew, hOther]
                        exact ih hFollow
                    | link target =>
                        rw [← hNew, h.link _ _ hOld]
                        exact hFollow

/-- Where a path led before, it leads still. -/
theorem KeepsKinds.leadsTo (h : KeepsKinds root larger) {budget left : Nat}
    {location steps l : List Name} (hLeads : LeadsTo root budget location steps left l) :
    LeadsTo larger budget location steps left l := by
  induction hLeads with
  | arrived hFollow => exact .arrived (h.follow hFollow)
  | link hFollow _ ih => exact .link (h.follow hFollow) ih

end Kinds

section Descend

variable {p : Path} {trail : List Name}

/-- The names in a path to which a trail leads are those of the path it starts from and those of the
trail. -/
theorem namesOf_descend (hp : p.bytes ≠ []) (h : ∀ name ∈ trail, isEntryName name = true) :
    namesOf (p.descend trail).bytes = namesOf p.bytes ++ trail := by
  induction trail generalizing p with
  | nil => simp
  | cons name trail ih =>
      have hName := h name List.mem_cons_self
      rw [descend_cons, ih (bytes_join_ne_nil p hName) fun n hn => h n (List.mem_cons_of_mem _ hn),
        namesOf_join hp hName, List.append_assoc, List.singleton_append]

theorem startOf_descend (location : List Name) (hp : p.bytes ≠ [])
    (h : ∀ name ∈ trail, isEntryName name = true) :
    startOf location (p.descend trail).bytes = startOf location p.bytes := by
  induction trail generalizing p with
  | nil => rfl
  | cons name trail ih =>
      have hName := h name List.mem_cons_self
      rw [descend_cons, ih (bytes_join_ne_nil p hName) fun n hn => h n (List.mem_cons_of_mem _ hn),
        startOf_join location hp]

/-- Slashes and dots at the end of a path do not change where it starts. -/
theorem startOf_settles (location : List Name) {bytes kept : List UInt8} (h : Settles bytes kept)
    (hBytes : bytes ≠ []) : startOf location kept = startOf location bytes := by
  induction h with
  | self => rfl
  | top => simp [startOf, isAbsolute]
  | @drop before last kept hBefore _ _ ih =>
      obtain ⟨b, rest, rfl⟩ := List.exists_cons_of_ne_nil hBefore
      rw [ih hBefore]
      simp [startOf, isAbsolute]

/-- Slashes and `.` at the end of the path of a directory do not change where it leads. -/
theorem LeadsTo.of_settles {root : Entry} {budget left : Nat} {location l : List Name}
    {bytes kept : List UInt8} (h : Settles bytes kept)
    (hLeads : LeadsTo root budget location (namesOf bytes) left l) :
    LeadsTo root budget location (namesOf kept) left l := by
  have hDrop (before last : List UInt8) (hLast : last = [] ∨ last = [dot])
      (hBoth : LeadsTo root budget location (namesOf (before ++ slash :: last)) left l) :
      LeadsTo root budget location (namesOf before) left l := by
    rw [namesOf_append before (notMem_of_settled hLast)] at hBoth
    rcases hLast with rfl | rfl
    · simpa using hBoth
    · exact hBoth.of_concat_dot
  induction h with
  | self => exact hLeads
  | @top last hLast => exact hDrop [] last hLast hLeads
  | @drop before last kept _ hLast _ ih => exact ih (hDrop before last hLast hLeads)

/-- The directory at the end of a trail, as a file in it is written there: the names of the trail
are followed from where the path leads. -/
theorem exists_leadsTo_trimmed {fs : FileSystem} {location : List Name}
    (h : fs.resolve p = .ok location) (hNames : ∀ name ∈ trail, isEntryName name = true) :
    (p.descend trail).trimmed.bytes ≠ [] ∧ ∃ names left,
      namesOf (p.descend trail).trimmed.bytes = names ++ trail ∧
      LeadsTo fs.root linkLimit (startOf fs.current (p.descend trail).trimmed.bytes) names left
        location := by
  obtain ⟨hp, left, hLeads⟩ := exists_leadsTo h
  cases trail using List.reverseRecOn with
  | nil =>
      have hSettles := settles_trimmed hp
      refine ⟨(hSettles.located hp).1, namesOf p.trimmed.bytes, left, by simp, ?_⟩
      rw [descend_nil, startOf_settles _ hSettles hp]
      exact hLeads.of_settles hSettles
  | append_singleton before name _ =>
      have hDirectory := bytes_descend_ne_nil hp fun n hn => hNames n (List.mem_append_left _ hn)
      have hTrimmed : (p.descend (before ++ [name])).trimmed = p.descend (before ++ [name]) := by
        rw [descend_concat, trimmed_join hDirectory (hNames name (by simp))]
      rw [hTrimmed, namesOf_descend hp hNames, startOf_descend _ hp hNames]
      exact ⟨bytes_descend_ne_nil hp hNames, namesOf p.bytes, left, rfl, hLeads⟩

end Descend

/-- What is at the end of a trail is found by the path under which a file is written there. -/
theorem resolve_trimmed_join {fs : FileSystem} {p : Path} {location trail : List Name}
    {name : Name} {e : Entry} (h : fs.resolve p = .ok location)
    (hAt : fs.root.at? (location ++ (trail ++ [name])) = some e)
    (hLink : ∀ target, e ≠ .link target) (hNames : ∀ n ∈ trail ++ [name], isEntryName n = true)
    (hLengths : ∀ n ∈ trail ++ [name], n.length ≤ nameLimit)
    (hPath : pathFault? ((p.descend trail).trimmed.join name) = none) :
    fs.resolve ((p.descend trail).trimmed.join name) = .ok (location ++ (trail ++ [name])) := by
  have hName := hNames name (by simp)
  obtain ⟨hBytes, names, left, hSplit, hLeads⟩ :=
    exists_leadsTo_trimmed h fun n hn => hNames n (List.mem_append_left _ hn)
  simp only [resolve, hPath, locate]
  rw [if_neg (bytes_join_ne_nil _ hName), startOf_join _ hBytes, stepsOf_join hBytes hName, hSplit,
    List.append_assoc, hLeads.resolveSteps_append, resolveSteps, follow_trail hAt hLink hNames,
    if_pos hLengths]

/-- A file is written at the end of a trail of directories if no name is too long and nothing but a
file that can be opened is in its place. -/
theorem writeTarget_trail {root : Entry} {budget : Nat} {location trail : List Name} {name : Name}
    {cs : List (Name × Entry)} {target : List Name × Name}
    (hDirectory : root.at? (location ++ trail) = some (.directory cs))
    (hNames : ∀ n ∈ trail ++ [name], isEntryName n = true)
    (hLink : ∀ target, cs.lookup name ≠ some (.link target)) :
    writeTarget root budget location (trail ++ [name]) = .ok target ↔
      (∀ n ∈ trail ++ [name], n.length ≤ nameLimit) ∧
        (∀ e, cs.lookup name = some e → ∃ old, e = .file old) ∧
        target = (location ++ trail, name) := by
  obtain ⟨-, -, -, hDot, hDots⟩ := isEntryName_iff.mp (hNames name (by simp))
  have hFollow := follow_trail hDirectory (by simp) fun n hn => hNames n (List.mem_append_left _ hn)
  rw [writeTarget, List.dropLast_concat, List.getLast?_concat, hFollow, List.forall_mem_append,
    List.forall_mem_singleton]
  by_cases hTrail : ∀ n ∈ trail, n.length ≤ nameLimit
  · rw [if_pos hTrail]
    dsimp only
    rw [hDirectory]
    dsimp only
    rw [if_neg (not_or.mpr ⟨hDot, hDots⟩)]
    by_cases hLength : name.length ≤ nameLimit
    · rw [if_neg (Nat.not_lt.mpr hLength)]
      cases hLookup : cs.lookup name with
      | none => simp [hLength, iff_true_intro hTrail, eq_comm]
      | some e =>
          cases e with
          | regular content => cases content <;> simp [hLength, iff_true_intro hTrail, eq_comm]
          | directory ds => simp
          | sealed fault => simp
          | link other => exact (hLink other hLookup).elim
    · rw [if_pos (Nat.lt_of_not_le hLength)]
      simp [hLength]
  · rw [if_neg hTrail]
    simp only [hTrail, false_and, reduceCtorEq]

/-- A path to a written file has no fault of its own. -/
theorem pathFault?_of_write {fs after : FileSystem} {p : Path} {content : List UInt8}
    (h : fs.write p content = .ok after) : pathFault? p = none := by
  unfold write at h
  split at h
  · cases h
  · assumption

/-- What writing a file at the end of a trail of directories does. -/
theorem write_trimmed_join_iff {fs after : FileSystem} {p : Path} {location trail : List Name}
    {name : Name} {cs : List (Name × Entry)} {content : List UInt8}
    (h : fs.resolve p = .ok location)
    (hDirectory : fs.root.at? (location ++ trail) = some (.directory cs))
    (hNames : ∀ n ∈ trail ++ [name], isEntryName n = true)
    (hLink : ∀ target, cs.lookup name ≠ some (.link target)) :
    fs.write ((p.descend trail).trimmed.join name) content = .ok after ↔
      pathFault? ((p.descend trail).trimmed.join name) = none ∧
        (∀ n ∈ trail ++ [name], n.length ≤ nameLimit) ∧
        (∀ e, cs.lookup name = some e → ∃ old, e = .file old) ∧
        after = { fs with root := Entry.put (.file content) name (location ++ trail) fs.root } := by
  have hName := hNames name (by simp)
  obtain ⟨hBytes, names, left, hSplit, hLeads⟩ :=
    exists_leadsTo_trimmed h fun n hn => hNames n (List.mem_append_left _ hn)
  rw [write]
  cases pathFault? ((p.descend trail).trimmed.join name) with
  | some fault => simp
  | none =>
      dsimp only
      rw [if_neg (bytes_join_ne_nil _ hName), startOf_join _ hBytes, writeStepsOf_join hBytes hName,
        hSplit, hLeads.writeTarget_append]
      constructor
      · intro hWrite
        cases hFound : writeTarget fs.root left location (trail ++ [name]) with
        | error fault => simp [hFound] at hWrite
        | ok target =>
            obtain ⟨hLengths, hFree, rfl⟩ :=
              (writeTarget_trail hDirectory hNames hLink).mp hFound
            simp only [hFound, Except.ok.injEq] at hWrite
            exact ⟨rfl, hLengths, hFree, hWrite.symm⟩
      · rintro ⟨-, hLengths, hFree, rfl⟩
        rw [(writeTarget_trail hDirectory hNames hLink).mpr ⟨hLengths, hFree, rfl⟩]

end FileSystem

end JavaOutline
