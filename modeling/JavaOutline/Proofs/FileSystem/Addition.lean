import JavaOutline.Proofs.FileSystem.Write

/-! Adding files to a file system. After files are added, everything else is what it was, so a walk
in a directory without links meets what it met before and the files that were added. -/
namespace JavaOutline

/-- There are no links at or below a location. -/
def Entry.NoLinksAt (root : Entry) (location : List Name) : Prop :=
  ∀ trail target, root.at? (location ++ trail) ≠ some (.link target)

/-- Where there are no links, there are none further down. -/
theorem Entry.NoLinksAt.below {root : Entry} {location : List Name} (h : root.NoLinksAt location)
    (trail : List Name) : root.NoLinksAt (location ++ trail) := by
  intro rest target
  rw [List.append_assoc]
  exact h (trail ++ rest) target

namespace Walk

variable {fs after : FileSystem} {visit : Visit} {visits : List Visit} {trail : List Name}

/-- A file is reached by at least one name. -/
theorem Reaches.ne_nil (h : Reaches fs (visit :: visits) trail) : trail ≠ [] := by
  obtain ⟨name, rest, -, rfl, -⟩ := h.exists_entry
  exact List.cons_ne_nil name rest

/-- Without links, the location of what is reached is found by the names of its trail. -/
theorem Reaches.at?_regular (hNoLinks : fs.root.NoLinksAt visit.location)
    (h : Reaches fs (visit :: visits) trail) :
    ∃ content, fs.root.at? (visit.location ++ trail) = some (.regular content) := by
  induction trail generalizing visit visits with
  | nil => exact (h.ne_nil rfl).elim
  | cons name rest ih =>
      rcases reaches_cons_iff.mp h with ⟨rfl, hFile⟩ | ⟨inner, hEnters, hRest⟩
      · cases hFile with
        | file hEntry => exact ⟨_, hEntry⟩
        | link hEntry _ _ => exact (hNoLinks _ _ hEntry).elim
      · cases hEnters with
        | link hEntry _ _ _ => exact (hNoLinks _ _ hEntry).elim
        | directory _ _ =>
            rw [List.append_cons]
            exact ih (hNoLinks.below [name]) hRest

/-- Without links, a trail that reaches a file does so in any file system where it leads to one. -/
theorem Reaches.transfer {content : Except FileFault (List UInt8)}
    (hNoLinks : fs.root.NoLinksAt visit.location) (h : Reaches fs (visit :: visits) trail)
    (hFile : after.root.at? (visit.location ++ trail) = some (.regular content)) :
    Reaches after (visit :: visits) trail := by
  induction trail generalizing visit visits with
  | nil => exact (h.ne_nil rfl).elim
  | cons name rest ih =>
      rcases reaches_cons_iff.mp h with ⟨rfl, -⟩ | ⟨inner, hEnters, hRest⟩
      · exact .file (.file hFile)
      · cases hEnters with
        | link hEntry _ _ _ => exact (hNoLinks _ _ hEntry).elim
        | directory _ hPath =>
            rw [List.append_cons] at hFile
            -- Something is below the name, so it is a directory in the other one too.
            obtain ⟨next, rest, rfl⟩ := List.exists_cons_of_ne_nil hRest.ne_nil
            have hNext := hFile
            rw [List.append_cons, Entry.at?_append] at hNext
            obtain ⟨e, hNext, -⟩ := Option.bind_eq_some_iff.mp hNext
            obtain ⟨cs, hDirectory, -⟩ := Entry.at?_concat_eq_some hNext
            exact .inside (.directory hDirectory hPath) (ih (hNoLinks.below [name]) hRest hFile)

end Walk

namespace FileSystem

def writeAll : List (Path × List UInt8) → FileSystem → Except FileFault FileSystem
  | [], fs => .ok fs
  | (path, content) :: rest, fs =>
      match fs.write path content with
      | .error fault => .error fault
      | .ok after => writeAll rest after

/-- Files were added to a file system at some locations, where there was nothing or a file that
could be read. -/
structure Adds (fs after : FileSystem) (added : List (List Name)) : Prop where
  proper : after.Proper
  current : after.current = fs.current
  same : ∀ l, l ∉ added → after.root.faceAt l = fs.root.faceAt l
  isFile : ∀ l ∈ added, ∃ content, after.root.at? l = some (.file content)
  wasFree : ∀ l ∈ added, ∀ e, fs.root.at? l = some e → ∃ content, e = .file content

theorem Adds.refl {fs : FileSystem} (hfs : fs.Proper) : Adds fs fs [] :=
  ⟨hfs, rfl, fun _ _ => rfl, by simp, by simp⟩

section Adds

variable {fs after : FileSystem} {added : List (List Name)}

/-- One more file is added. -/
theorem Adds.put (h : Adds fs after added) {location : List Name} {name : Name}
    {cs : List (Name × Entry)} (hName : isEntryName name = true)
    (hDirectory : after.root.at? location = some (.directory cs))
    (hFree : ∀ e, cs.lookup name = some e → ∃ old, e = .file old) (content : List UInt8) :
    Adds fs { after with root := Entry.put (.file content) name location after.root }
      ((location ++ [name]) :: added) := by
  have hPut := Entry.faceAt_put hDirectory hFree content
  refine ⟨?_, h.current, ?_, ?_, ?_⟩
  · exact Entry.isProper_put hName rfl h.proper
  · intro l hl
    obtain ⟨hOther, hNew⟩ := List.ne_and_not_mem_of_not_mem_cons hl
    rw [hPut, if_neg hOther, h.same l hNew]
  · intro l hl
    by_cases hHere : l = location ++ [name]
    · exact ⟨content, Entry.faceAt_regular.mp (by rw [hPut, if_pos hHere])⟩
    · obtain ⟨old, hOld⟩ := h.isFile l ((List.mem_cons.mp hl).resolve_left hHere)
      exact ⟨old, Entry.faceAt_regular.mp
        (by rw [hPut, if_neg hHere, Entry.faceAt_regular.mpr hOld])⟩
  · intro l hl e he
    by_cases hOld : l ∈ added
    · exact h.wasFree l hOld e he
    · obtain rfl := (List.mem_cons.mp hl).resolve_right hOld
      have hSame := h.same _ hOld
      rw [Entry.faceAt, Entry.faceAt, Entry.at?_concat_of_directory hDirectory, he,
        Option.map_some] at hSame
      obtain ⟨d, hd, hFace⟩ := Option.map_eq_some_iff.mp hSame
      obtain ⟨old, rfl⟩ := hFree d hd
      exact ⟨old, Entry.eq_of_face_eq hFace.symm⟩

/-- Added files leave everything else of the kind it was. -/
theorem Adds.keepsKinds (h : Adds fs after added) : KeepsKinds fs.root after.root :=
  keepsKinds_of_faceAt added h.same h.isFile h.wasFree

/-- A file can still be written where one could be written before. -/
theorem Adds.free_of_at? (h : Adds fs after added) {l : List Name} {e : Entry}
    (hOld : ∀ d, fs.root.at? l = some d → ∃ content, d = .file content)
    (hAt : after.root.at? l = some e) : ∃ content, e = .file content := by
  by_cases hl : l ∈ added
  · obtain ⟨content, hFile⟩ := h.isFile l hl
    exact ⟨content, Option.some.inj (hAt.symm.trans hFile)⟩
  · have hFace : fs.root.faceAt l = some e.face := by
      rw [← h.same l hl, Entry.faceAt, hAt, Option.map_some]
    obtain ⟨d, hd, hSame⟩ := Option.map_eq_some_iff.mp hFace
    obtain ⟨content, rfl⟩ := hOld d hd
    exact ⟨content, Entry.eq_of_face_eq hSame.symm⟩

/-- A path that led anywhere still leads there. -/
theorem Adds.resolve (h : Adds fs after added) {p : Path} {location : List Name}
    (hLeads : fs.resolve p = .ok location) : after.resolve p = .ok location := by
  unfold FileSystem.resolve locate at hLeads ⊢
  split at hLeads
  · cases hLeads
  · split_ifs at hLeads ⊢
    obtain ⟨left, hSteps⟩ := leadsTo_of_resolveSteps hLeads
    rw [h.current]
    exact (h.keepsKinds.leadsTo hSteps).resolveSteps_eq

/-- No link is added. -/
theorem Adds.noLinksAt (h : Adds fs after added) {location : List Name}
    (hNoLinks : fs.root.NoLinksAt location) : after.root.NoLinksAt location := by
  intro trail target hLink
  by_cases hl : location ++ trail ∈ added
  · obtain ⟨content, hFile⟩ := h.isFile _ hl
    simp [hLink] at hFile
  · rw [← Entry.faceAt_link, h.same _ hl, Entry.faceAt_link] at hLink
    exact hNoLinks trail target hLink

/-- Without links, the files that can be reached are those from before and some that were added. -/
theorem Adds.reaches_iff (h : Adds fs after added) {p : Path} {location trail : List Name}
    (hLeads : fs.resolve p = .ok location) (hNoLinks : fs.root.NoLinksAt location)
    (hNew : location ++ trail ∉ added) : after.Reaches p trail ↔ fs.Reaches p trail := by
  constructor
  · rintro ⟨other, hOther, hReaches⟩
    obtain rfl : location = other := Except.ok.inj ((h.resolve hLeads).symm.trans hOther)
    obtain ⟨content, hFile⟩ := hReaches.at?_regular (h.noLinksAt hNoLinks)
    rw [← Entry.faceAt_regular, h.same _ hNew, Entry.faceAt_regular] at hFile
    exact ⟨location, hLeads, hReaches.transfer (h.noLinksAt hNoLinks) hFile⟩
  · rintro ⟨other, hOther, hReaches⟩
    obtain rfl : location = other := Except.ok.inj (hLeads.symm.trans hOther)
    obtain ⟨content, hFile⟩ := hReaches.at?_regular hNoLinks
    obtain ⟨now, hNow⟩ := h.keepsKinds.regular _ _ hFile
    exact ⟨location, h.resolve hLeads, hReaches.transfer hNoLinks hNow⟩

/-- Without links, a file in the directory is the one from before, unless it was added. -/
theorem Adds.entry?_join (h : Adds fs after added) {p : Path} {location : List Name} {name : Name}
    {content : Except FileFault (List UInt8)} (hLeads : fs.resolve p = .ok location)
    (hNoLinks : fs.root.NoLinksAt location) (hName : isEntryName name = true)
    (hLength : name.length ≤ nameLimit) (hNew : location ++ [name] ∉ added) :
    after.entry? (p.join name) = some (.regular content) ↔
      fs.entry? (p.join name) = some (.regular content) := by
  have hSame : after.root.at? (location ++ [name]) = some (.regular content) ↔
      fs.root.at? (location ++ [name]) = some (.regular content) := by
    rw [← Entry.faceAt_regular, h.same _ hNew, Entry.faceAt_regular]
  rw [entry?_eq_some_iff, entry?_eq_some_iff]
  constructor
  · rintro ⟨l, hJoin, hFile⟩
    obtain ⟨hPath, rfl⟩ :=
      eq_of_resolve_join (h.resolve hLeads) hJoin hName (h.noLinksAt hNoLinks [name])
    rw [hSame] at hFile
    exact ⟨_, resolve_join hLeads hFile (by simp) hName hLength hPath, hFile⟩
  · rintro ⟨l, hJoin, hFile⟩
    obtain ⟨-, rfl⟩ := eq_of_resolve_join hLeads hJoin hName (hNoLinks [name])
    exact ⟨_, h.resolve hJoin, hSame.mpr hFile⟩

end Adds

end FileSystem

end JavaOutline
