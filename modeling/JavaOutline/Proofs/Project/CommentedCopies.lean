import Mathlib
import JavaOutline.Proofs.FileSystem.Addition
import JavaOutline.Proofs.Project.CopyTrail

/-! Documented copies stay out of their project. In a directory without links, writing copies adds
files at the ends of the trails to the copies and changes nothing else, so the project finds the
same files as before. -/
namespace JavaOutline

namespace Entry

mutual

/-- Whether there are no links in an entry and all names are texts. -/
def isPlain : Entry → Bool
  | .regular _ => true
  | .sealed _ => true
  | .link _ => false
  | .directory cs => arePlain cs

def arePlain : List (Name × Entry) → Bool
  | [] => true
  | (name, e) :: rest => (Text.decode? name).isSome && isPlain e && arePlain rest

end

theorem isPlain_of_mem {cs : List (Name × Entry)} (h : arePlain cs = true) {name : Name}
    {e : Entry} (hMem : (name, e) ∈ cs) :
    (Text.decode? name).isSome = true ∧ e.isPlain = true := by
  induction cs with
  | nil => simp at hMem
  | cons c cs ih =>
      simp only [arePlain, Bool.and_eq_true] at h
      rcases List.mem_cons.mp hMem with rfl | hRest
      · exact h.1
      · exact ih h.2 hRest

/-- Below a plain directory every name is a text and there are no links. -/
theorem isPlain_at? {e c : Entry} {trail : List Name} (h : e.isPlain = true)
    (hAt : e.at? trail = some c) :
    (∀ name ∈ trail, (Text.decode? name).isSome = true) ∧ c.isPlain = true := by
  induction trail generalizing e with
  | nil =>
      obtain rfl : e = c := by simpa using hAt
      exact ⟨by simp, h⟩
  | cons name rest ih =>
      rw [at?] at hAt
      obtain ⟨d, hChild, hRest⟩ := Option.bind_eq_some_iff.mp hAt
      obtain ⟨cs, rfl, hLookup⟩ := eq_directory_of_child? hChild
      obtain ⟨hName, hd⟩ := isPlain_of_mem h (mem_of_lookup hLookup)
      obtain ⟨hNames, hc⟩ := ih hd hRest
      exact ⟨List.forall_mem_cons.mpr ⟨hName, hNames⟩, hc⟩

end Entry

namespace Project

open JavaOutline.Path

/-- What is known of a project of programs whose directory is plain: where its directory is, which
entries say what to leave out, and the trails to its files. -/
structure PlainSources (fs : FileSystem) (p : Project) (location : List Name)
    (entries : List String) (trails : List (List Name)) : Prop where
  leads : fs.resolve p.root = .ok location
  directory : ∃ e, fs.root.at? location = some e ∧ e.isDirectory = true
  noLinks : fs.root.NoLinksAt location
  listed : p.patternEntries fs = .ok entries
  readable : ∀ raw ∈ entries, ExclusionSet.Readable raw
  sorted : trails.Pairwise (· < ·)
  mem_iff : ∀ trail, trail ∈ trails ↔ fs.Reaches p.root trail ∧ p.Wanted entries trail
  isSource : ∀ trail ∈ trails, IsSource trail
  isFile : ∀ trail ∈ trails, ∃ content, fs.root.at? (location ++ trail) = some (.regular content)

/-- The files that are found in a plain directory are reached by trails of texts to programs. -/
theorem exists_plainSources {fs : FileSystem} (hfs : fs.Proper) {p : Project} {files : List Path}
    (hExtension : p.config.extension = Language.java.extension)
    (hPlain : (fs.entry? p.root).all Entry.isPlain = true)
    (hFound : p.discoverFiles fs = .ok files) :
    ∃ location entries trails, PlainSources fs p location entries trails ∧
      files = trails.map p.root.descend := by
  obtain ⟨skipped, hDiscover⟩ := exists_discover_of_discoverFiles hFound
  have hDirectory := isDirectory_of_discover hDiscover
  obtain ⟨set, hSet, -⟩ := discover_eq_ok hDiscover
  obtain ⟨entries, hEntries, hReadable⟩ := exists_patternEntries hSet
  obtain ⟨trails, hFiles, hSorted, hMem⟩ :=
    exists_trails_discoverFiles hfs hDirectory hEntries hReadable
  obtain ⟨root, hEntry, hOpens⟩ := FileSystem.isDirectory_iff.mp hDirectory
  obtain ⟨location, hLeads, hAt⟩ := FileSystem.entry?_eq_some_iff.mp hEntry
  obtain ⟨hRoot, -⟩ := FileSystem.exists_leadsTo hLeads
  have hBelow (trail : List Name) (e : Entry)
      (he : fs.root.at? (location ++ trail) = some e) :
      (∀ name ∈ trail, (Text.decode? name).isSome = true) ∧ e.isPlain = true := by
    have hRootPlain : root.isPlain = true := by simpa [hEntry] using hPlain
    rw [Entry.at?_append, hAt, Option.bind_some] at he
    exact Entry.isPlain_at? hRootPlain he
  have hNoLinks : fs.root.NoLinksAt location := by
    intro trail target hLink
    exact Bool.false_ne_true (hBelow trail _ hLink).2
  have hIsFile (trail : List Name) (hReaches : fs.Reaches p.root trail) :
      ∃ content, fs.root.at? (location ++ trail) = some (.regular content) := by
    obtain ⟨other, hOther, hInside⟩ := hReaches
    obtain rfl : location = other := Except.ok.inj (hLeads.symm.trans hOther)
    exact hInside.at?_regular hNoLinks
  refine ⟨location, entries, trails, ⟨hLeads, ⟨root, hAt, hOpens⟩, hNoLinks, hEntries, hReadable,
    hSorted, hMem, fun trail hTrail => ?_,
    fun trail hTrail => hIsFile trail ((hMem trail).mp hTrail).1⟩,
    Except.ok.inj (hFound.symm.trans hFiles)⟩
  obtain ⟨hReaches, hWanted⟩ := (hMem trail).mp hTrail
  obtain ⟨content, hFile⟩ := hIsFile trail hReaches
  exact isSource_of_wanted hRoot hExtension (hReaches.names hfs) (hBelow trail _ hFile).1
    hWanted

section Copies

open JavaOutline.FileSystem

variable {fs current after : FileSystem} {p : Project} {location : List Name}
  {entries : List String} {trails : List (List Name)} {added : List (List Name)}
  {trail : List Name}

/-- After some files were added, the copy of a file still has a directory to stand in, and no link
is in its place. -/
theorem PlainSources.exists_place (h : PlainSources fs p location entries trails)
    (hAdds : Adds fs current added) (hTrail : trail ∈ trails) :
    ∃ before name cs, copyTrail trail = before ++ [name] ∧
      (p.root.descend trail).commentedCopy = (p.root.descend before).trimmed.join name ∧
      (∀ n ∈ before ++ [name], isEntryName n = true) ∧
      current.root.at? (location ++ before) = some (.directory cs) ∧
      ∀ target, cs.lookup name ≠ some (.link target) := by
  have hCopy := isEntryName_copyTrail (h.isSource trail hTrail)
  obtain ⟨content, hFile⟩ := h.isFile trail hTrail
  obtain ⟨hRoot, -⟩ := exists_leadsTo h.leads
  obtain @⟨before, name, stem, hNames, -, hSplit⟩ := h.isSource trail hTrail
  rw [copyTrail_concat] at hCopy
  rw [← List.append_assoc] at hFile
  obtain ⟨es, hOld, -⟩ := Entry.at?_concat_eq_some hFile
  obtain ⟨cs, hDirectory⟩ := hAdds.keepsKinds.directory _ es hOld
  refine ⟨before, copyName name, cs, copyTrail_concat _ _,
    commentedCopy_descend hRoot hNames hSplit, hCopy, hDirectory, fun target hLink => ?_⟩
  have hAt := Entry.at?_concat_of_directory hDirectory (copyName name)
  rw [hLink, List.append_assoc] at hAt
  exact hAdds.noLinksAt h.noLinks _ target hAt

/-- Writing a copy adds a file at the end of the trail to the copy, and nothing else changes. -/
theorem PlainSources.adds_of_write (h : PlainSources fs p location entries trails)
    (hAdds : Adds fs current added) (hTrail : trail ∈ trails) {content : List UInt8}
    (hWrite : current.write (p.root.descend trail).commentedCopy content = .ok after) :
    Adds fs after ((location ++ copyTrail trail) :: added) ∧
      (∀ name ∈ copyTrail trail, name.length ≤ nameLimit) ∧
      ∀ l, after.root.faceAt l =
        if l = location ++ copyTrail trail then some (.file content)
        else current.root.faceAt l := by
  obtain ⟨before, name, cs, hCopy, hPath, hNames, hDirectory, hLink⟩ :=
    h.exists_place hAdds hTrail
  rw [hPath] at hWrite
  obtain ⟨-, hLengths, hFree, rfl⟩ :=
    (write_trimmed_join_iff (hAdds.resolve h.leads) hDirectory hNames hLink).mp hWrite
  rw [hCopy, ← List.append_assoc]
  exact ⟨hAdds.put (hNames name (by simp)) hDirectory hFree content, hLengths,
    Entry.faceAt_put hDirectory hFree content⟩

/-- Where nothing but a file that can be opened is in the place of a copy, nothing else is found
there. -/
theorem PlainSources.free_of_path (h : PlainSources fs p location entries trails)
    {before : List Name} {name : Name} {e : Entry}
    (hNames : ∀ n ∈ before ++ [name], isEntryName n = true)
    (hLengths : ∀ n ∈ before ++ [name], n.length ≤ nameLimit)
    (hFault : pathFault? ((p.root.descend before).trimmed.join name) = none)
    (hNotDirectory : fs.isDirectory ((p.root.descend before).trimmed.join name) = false)
    (hOpens : ∀ fault, fs.entry? ((p.root.descend before).trimmed.join name) ≠
      some (.regular (.error fault)))
    (hAt : fs.root.at? (location ++ (before ++ [name])) = some e) :
    ∃ content, e = .file content := by
  have hLink (target : List UInt8) : e ≠ .link target := by
    rintro rfl
    exact h.noLinks _ target hAt
  have hEntry := entry?_eq_some_iff.mpr
    ⟨_, resolve_trimmed_join h.leads hAt hLink hNames hLengths hFault, hAt⟩
  cases e with
  | link target => exact (hLink target rfl).elim
  | directory cs => simp [isDirectory, hEntry, Entry.isDirectory] at hNotDirectory
  | sealed fault => simp [isDirectory, hEntry, Entry.isDirectory] at hNotDirectory
  | regular content =>
      cases content with
      | ok old => exact ⟨old, rfl⟩
      | error fault => exact (hOpens fault hEntry).elim

/-- A copy can be written if its path and its names are not too long and in its place there is no
directory and no file that cannot be opened. -/
theorem PlainSources.exists_write (h : PlainSources fs p location entries trails)
    (hAdds : Adds fs current added) (hTrail : trail ∈ trails) (content : List UInt8)
    (hFault : pathFault? (p.root.descend trail).commentedCopy = none)
    (hLengths : ∀ name ∈ copyTrail trail, name.length ≤ nameLimit)
    (hNotDirectory : fs.isDirectory (p.root.descend trail).commentedCopy = false)
    (hOpens : ∀ fault, fs.entry? (p.root.descend trail).commentedCopy ≠
      some (.regular (.error fault))) :
    ∃ next, current.write (p.root.descend trail).commentedCopy content = .ok next := by
  obtain ⟨before, name, cs, hCopy, hPath, hNames, hDirectory, hLink⟩ :=
    h.exists_place hAdds hTrail
  rw [hCopy] at hLengths
  rw [hPath] at hFault hNotDirectory hOpens ⊢
  have hFree (e : Entry) (he : cs.lookup name = some e) : ∃ old, e = .file old := by
    rw [← Entry.at?_concat_of_directory hDirectory name, List.append_assoc] at he
    exact hAdds.free_of_at?
      (fun d hd => h.free_of_path hNames hLengths hFault hNotDirectory hOpens hd) he
  exact ⟨_, (write_trimmed_join_iff (hAdds.resolve h.leads) hDirectory hNames hLink).mpr
    ⟨hFault, hLengths, hFree, rfl⟩⟩

/-- A copy that is there is read under its path. -/
theorem PlainSources.read_commentedCopy (h : PlainSources fs p location entries trails)
    (hAdds : Adds fs current added) (hTrail : trail ∈ trails) {content : List UInt8}
    (hFault : pathFault? (p.root.descend trail).commentedCopy = none)
    (hLengths : ∀ name ∈ copyTrail trail, name.length ≤ nameLimit)
    (hAt : current.root.at? (location ++ copyTrail trail) = some (.file content)) :
    current.read (p.root.descend trail).commentedCopy = .ok content := by
  obtain ⟨before, name, cs, hCopy, hPath, hNames, -, -⟩ := h.exists_place hAdds hTrail
  rw [hCopy] at hLengths hAt
  rw [hPath] at hFault ⊢
  rw [read_eq_ok_iff, entry?_eq_some_iff]
  exact ⟨_, resolve_trimmed_join (hAdds.resolve h.leads) hAt (by simp) hNames hLengths hFault, hAt⟩

/-- The copies of some files of a project, each with its content. -/
def copiesOf (p : Project) (contents : Path → List UInt8) (trails : List (List Name)) :
    List (Path × List UInt8) :=
  trails.map fun trail =>
    ((p.root.descend trail).commentedCopy, contents (p.root.descend trail))

/-- Writing copies adds files at the ends of the trails to the copies and nowhere else. -/
theorem PlainSources.adds_of_writeAll (h : PlainSources fs p location entries trails)
    (hAdds : Adds fs current added) {contents : Path → List UInt8} {chosen : List (List Name)}
    (hChosen : chosen ⊆ trails)
    (hWrite : writeAll (p.copiesOf contents chosen) current = .ok after) :
    ∃ all, Adds fs after all ∧
      (∀ l ∈ all, l ∈ added ∨ ∃ trail ∈ chosen, l = location ++ copyTrail trail) ∧
      ∀ l, (∀ trail ∈ chosen, l ≠ location ++ copyTrail trail) →
        after.root.faceAt l = current.root.faceAt l := by
  induction chosen generalizing current added with
  | nil =>
      obtain rfl : current = after := Except.ok.inj hWrite
      exact ⟨added, hAdds, fun l hl => .inl hl, fun _ _ => rfl⟩
  | cons trail rest ih =>
      obtain ⟨hTrail, hRest⟩ := List.cons_subset.mp hChosen
      rw [copiesOf, List.map_cons, writeAll] at hWrite
      split at hWrite
      · cases hWrite
      · rename_i next hNext
        obtain ⟨hStep, -, hFace⟩ := h.adds_of_write hAdds hTrail hNext
        obtain ⟨all, hAll, hMem, hKept⟩ := ih hStep hRest hWrite
        refine ⟨all, hAll, fun l hl => ?_, fun l hl => ?_⟩
        · rcases hMem l hl with hl | ⟨t, ht, rfl⟩
          · rcases List.mem_cons.mp hl with rfl | hl
            · exact .inr ⟨trail, List.mem_cons_self, rfl⟩
            · exact .inl hl
          · exact .inr ⟨t, List.mem_cons_of_mem _ ht, rfl⟩
        · rw [List.forall_mem_cons] at hl
          rw [hKept l hl.2, hFace, if_neg hl.1]

/-- Copies that have been written hold what was written to them, since no copy is written in the
place of another one. -/
theorem PlainSources.read_of_writeAll (h : PlainSources fs p location entries trails)
    (hAdds : Adds fs current added) {contents : Path → List UInt8} {chosen : List (List Name)}
    (hChosen : chosen ⊆ trails) (hNodup : chosen.Nodup)
    (hWrite : writeAll (p.copiesOf contents chosen) current = .ok after) :
    ∀ trail ∈ chosen, after.read (p.root.descend trail).commentedCopy =
      .ok (contents (p.root.descend trail)) := by
  induction chosen generalizing current added with
  | nil => simp
  | cons trail rest ih =>
      obtain ⟨hTrail, hRest⟩ := List.cons_subset.mp hChosen
      obtain ⟨hFresh, hRestNodup⟩ := List.nodup_cons.mp hNodup
      rw [copiesOf, List.map_cons, writeAll] at hWrite
      split at hWrite
      · cases hWrite
      · rename_i next hNext
        obtain ⟨hStep, hLengths, hFace⟩ := h.adds_of_write hAdds hTrail hNext
        refine List.forall_mem_cons.mpr ⟨?_, ih hStep hRest hRestNodup hWrite⟩
        obtain ⟨all, hAll, -, hKept⟩ := h.adds_of_writeAll hStep hRest hWrite
        have hApart : ∀ t ∈ rest, location ++ copyTrail trail ≠ location ++ copyTrail t := by
          intro t ht hEq
          have hSame := copyTrail_injective (h.isSource trail hTrail) (h.isSource t (hRest ht))
            (List.append_cancel_left hEq)
          exact hFresh (hSame ▸ ht)
        refine h.read_commentedCopy hAll hTrail (pathFault?_of_write hNext) hLengths ?_
        rw [← Entry.faceAt_regular, hKept _ hApart, hFace, if_pos rfl]

/-- Copies can be written one after another, since each goes into a directory that is there and
writing one does not stand in the way of the next. -/
theorem PlainSources.exists_writeAll (h : PlainSources fs p location entries trails)
    (hAdds : Adds fs current added) (contents : Path → List UInt8) {chosen : List (List Name)}
    (hChosen : chosen ⊆ trails)
    (hFault : ∀ trail ∈ chosen, pathFault? (p.root.descend trail).commentedCopy = none)
    (hLengths : ∀ trail ∈ chosen, ∀ name ∈ copyTrail trail, name.length ≤ nameLimit)
    (hNotDirectory : ∀ trail ∈ chosen,
      fs.isDirectory (p.root.descend trail).commentedCopy = false)
    (hOpens : ∀ trail ∈ chosen, ∀ fault,
      fs.entry? (p.root.descend trail).commentedCopy ≠ some (.regular (.error fault))) :
    ∃ after, writeAll (p.copiesOf contents chosen) current = .ok after := by
  induction chosen generalizing current added with
  | nil => exact ⟨current, rfl⟩
  | cons trail rest ih =>
      obtain ⟨hTrail, hRest⟩ := List.cons_subset.mp hChosen
      rw [List.forall_mem_cons] at hFault hLengths hNotDirectory hOpens
      obtain ⟨next, hNext⟩ := h.exists_write hAdds hTrail (contents (p.root.descend trail))
        hFault.1 hLengths.1 hNotDirectory.1 hOpens.1
      obtain ⟨hStep, -⟩ := h.adds_of_write hAdds hTrail hNext
      obtain ⟨last, hLast⟩ :=
        ih hStep hRest hFault.2 hLengths.2 hNotDirectory.2 hOpens.2
      refine ⟨last, ?_⟩
      rw [copiesOf, List.map_cons, writeAll, hNext]
      exact hLast

/-- The entries of the configuration are among those that say what to leave out. -/
theorem PlainSources.exclude_subset (h : PlainSources fs p location entries trails) :
    p.config.exclude ⊆ entries := by
  have hListed := h.listed
  rw [patternEntries] at hListed
  split_ifs at hListed with hUse
  · cases hLoad : loadIgnoreFile fs p.root with
    | error e => simp [hLoad, Except.map] at hListed
    | ok more =>
        rw [hLoad] at hListed
        obtain rfl : p.config.exclude ++ more = entries := Except.ok.inj hListed
        exact List.subset_append_left _ _
  · obtain rfl : p.config.exclude = entries := Except.ok.inj hListed
    exact List.Subset.refl _

/-- What the ignore file says depends on its content alone. -/
theorem loadIgnoreFile_congr {root : Path}
    (h : ∀ content,
      after.entry? (root.join (Text.encode ignoreFileName)) = some (.regular content) ↔
        fs.entry? (root.join (Text.encode ignoreFileName)) = some (.regular content)) :
    loadIgnoreFile after root = loadIgnoreFile fs root := by
  have hFile : after.isFile (root.join (Text.encode ignoreFileName)) =
      fs.isFile (root.join (Text.encode ignoreFileName)) := by
    rw [Bool.eq_iff_iff, isFile_iff, isFile_iff]
    exact exists_congr h
  simp only [loadIgnoreFile, hFile]
  split_ifs with hIsFile
  · obtain ⟨content, hContent⟩ := isFile_iff.mp hIsFile
    rw [read_of_entry?_eq hContent, read_of_entry?_eq ((h content).mpr hContent)]
  · rfl

/-- No copy is an ignore file, so the entries stay the same. -/
theorem PlainSources.patternEntries_of_adds (h : PlainSources fs p location entries trails)
    (hAdds : Adds fs after added)
    (hAdded : ∀ l ∈ added, ∃ trail ∈ trails, l = location ++ copyTrail trail) :
    p.patternEntries after = .ok entries := by
  have hSame : loadIgnoreFile after p.root = loadIgnoreFile fs p.root := by
    refine loadIgnoreFile_congr fun content => ?_
    refine hAdds.entry?_join h.leads h.noLinks (by decide) (by decide) fun hMem => ?_
    obtain ⟨trail, hTrail, hEq⟩ := hAdded _ hMem
    exact ignoreFile_ne_copyTrail (h.isSource trail hTrail) (List.append_cancel_left hEq)
  rw [patternEntries, hSame, ← patternEntries, h.listed]

/-- Once copies are there, the same files are found. -/
theorem PlainSources.discoverFiles_of_adds (h : PlainSources fs p location entries trails)
    (hPattern : "*" ++ copyEnding ∈ entries) (hAdds : Adds fs after added)
    (hAdded : ∀ l ∈ added, ∃ trail ∈ trails, l = location ++ copyTrail trail) :
    p.discoverFiles after = .ok (trails.map p.root.descend) := by
  obtain ⟨root, hAt, hDirectory⟩ := h.directory
  obtain ⟨larger, hStill, hOpens⟩ := hAdds.keepsKinds.isDirectory hAt hDirectory
  have hRoot : after.isDirectory p.root = true := isDirectory_iff.mpr
    ⟨larger, entry?_eq_some_iff.mpr ⟨location, hAdds.resolve h.leads, hStill⟩, hOpens⟩
  obtain ⟨found, hFound, hSorted, hMem⟩ := exists_trails_discoverFiles hAdds.proper hRoot
    (h.patternEntries_of_adds hAdds hAdded) h.readable
  have hSame (trail : List Name) : trail ∈ found ↔ trail ∈ trails := by
    rw [hMem, h.mem_iff]
    refine and_congr_left fun hWanted => ?_
    -- What is wanted is no copy, so it is where it was.
    refine hAdds.reaches_iff h.leads h.noLinks fun hNew => ?_
    obtain ⟨source, hSource, hEq⟩ := hAdded _ hNew
    rw [List.append_cancel_left hEq] at hWanted
    exact not_wanted_copyTrail hPattern (h.isSource source hSource) hWanted
  rw [hFound, hSorted.eq_of_mem_iff h.sorted fun trail => hSame trail]

end Copies

/-- The documented copies of the files of a project of programs, in a directory where all names are
texts and there are no links, are apart from each other and from the files of the project, if the
configuration leaves out what is named like a copy. When they have been written, whatever is written
to them, each holds what was written to it and the project has the same files in the same order as
before; and they can be written if no path or name is too long and in the place of none there is a
directory or a file that cannot be opened. -/
theorem discoverFiles_writeAll_commentedCopies {fs : FileSystem} (hfs : fs.Proper) {p : Project}
    {files : List Path} (hExtension : p.config.extension = "java")
    (hPattern : "*_commented.java" ∈ p.config.exclude)
    (hPlain : (fs.entry? p.root).all Entry.isPlain = true)
    (hFound : p.discoverFiles fs = .ok files) :
    (files.map fun q => q.commentedCopy.components).Nodup ∧
      (∀ q ∈ files, ∀ other ∈ files, q.commentedCopy.components ≠ other.components) ∧
      ∀ contents : Path → List UInt8,
        let copies := files.map fun q => (q.commentedCopy, contents q)
        (∀ after, FileSystem.writeAll copies fs = .ok after →
          (∀ q ∈ files, after.read q.commentedCopy = .ok (contents q)) ∧
          p.discoverFiles after = .ok files) ∧
        ((∀ q ∈ files, fs.isDirectory q.commentedCopy = false ∧
            (∀ fault, fs.entry? q.commentedCopy ≠ some (.regular (.error fault))) ∧
            FileSystem.pathFault? q.commentedCopy = none ∧
            ∀ name, .name name ∈ q.commentedCopy.components →
              name.length ≤ FileSystem.nameLimit) →
          ∃ after, FileSystem.writeAll copies fs = .ok after) := by
  obtain ⟨location, entries, trails, h, rfl⟩ :=
    exists_plainSources hfs hExtension hPlain hFound
  have hEntries : "*" ++ copyEnding ∈ entries := h.exclude_subset hPattern
  obtain ⟨hRoot, -⟩ := FileSystem.exists_leadsTo h.leads
  have hCopy (trail : List Name) (hTrail : trail ∈ trails) :=
    components_commentedCopy hRoot (h.isSource trail hTrail)
  have hCopies (contents : Path → List UInt8) : ((trails.map p.root.descend).map fun q =>
      (q.commentedCopy, contents q)) = p.copiesOf contents trails := by
    rw [List.map_map]
    rfl
  refine ⟨?_, ?_, fun contents => ⟨fun after hWrite => ?_, fun hFree => ?_⟩⟩
  · rw [List.map_map]
    refine List.Nodup.map_on (fun s hs t ht hEq => ?_) h.sorted.nodup
    rw [Function.comp_apply, Function.comp_apply, hCopy s hs, hCopy t ht] at hEq
    exact copyTrail_injective (h.isSource s hs) (h.isSource t ht)
      (List.map_injective_iff.mpr (fun _ _ => Component.name.inj) (List.append_cancel_left hEq))
  · intro q hq other hOther hEq
    obtain ⟨s, hs, rfl⟩ := List.mem_map.mp hq
    obtain ⟨t, ht, rfl⟩ := List.mem_map.mp hOther
    obtain ⟨hReaches, hWanted⟩ := (h.mem_iff t).mp ht
    rw [hCopy s hs, components_descend hRoot (hReaches.names hfs).2] at hEq
    obtain rfl := List.map_injective_iff.mpr (fun _ _ => Component.name.inj)
      (List.append_cancel_left hEq)
    exact not_wanted_copyTrail hEntries (h.isSource s hs) hWanted
  · rw [hCopies] at hWrite
    obtain ⟨all, hAdds, hAll, -⟩ :=
      h.adds_of_writeAll (.refl hfs) (List.Subset.refl trails) hWrite
    constructor
    · rw [List.forall_mem_map]
      exact h.read_of_writeAll (.refl hfs) (List.Subset.refl trails) h.sorted.nodup hWrite
    · exact h.discoverFiles_of_adds hEntries hAdds fun l hl => (hAll l hl).resolve_left (by simp)
  · rw [List.forall_mem_map] at hFree
    rw [hCopies]
    refine h.exists_writeAll (.refl hfs) contents (List.Subset.refl trails)
      (fun trail hTrail => (hFree trail hTrail).2.2.1) (fun trail hTrail name hName => ?_)
      (fun trail hTrail => (hFree trail hTrail).1) fun trail hTrail => (hFree trail hTrail).2.1
    refine (hFree trail hTrail).2.2.2 name ?_
    rw [hCopy trail hTrail]
    exact List.mem_append_right _ (List.mem_map_of_mem hName)

/-- Programs in a directory and in one below it, and the copy of one of them. -/
def documentedCars : FileSystem :=
  { root := .directory [(Text.encode "p", .directory
      [(Text.encode "lib", .directory [(Text.encode "Car.java", .file [])]),
        (Text.encode "Car_commented.java", .file []),
        (Text.encode "Car.java", .file []),
        (Text.encode "Car.Wheel.java", .file [])])]
    current := [] }

def carProject : Project := ⟨Path.ofString "p", ProjectConfig.standard⟩

def carFiles : List Path :=
  [Path.ofString "p/Car.Wheel.java", Path.ofString "p/Car.java", Path.ofString "p/lib/Car.java"]

theorem discoverFiles_carProject : carProject.discoverFiles documentedCars = .ok carFiles := by
  have hRoot : documentedCars.isDirectory carProject.root = true := by decide +kernel
  have hSet : carProject.exclusions documentedCars =
      .ok ⟨[.anySequence :: "_commented.java".toList.map .literal]⟩ := by decide +kernel
  have hWalk : documentedCars.walk carProject.root =
      [.file (Path.ofString "p/Car.Wheel.java"), .file (Path.ofString "p/Car.java"),
        .file (Path.ofString "p/Car_commented.java"), .file (Path.ofString "p/lib/Car.java")] := by
    cbv
  rw [discoverFiles, discover_eq hRoot hSet, hWalk]
  decide +kernel

theorem discoverFiles_writeAll_commentedCopies_cars :
    documentedCars.Proper ∧ (documentedCars.entry? carProject.root).all Entry.isPlain = true ∧
      "*_commented.java" ∈ carProject.config.exclude ∧
      carProject.discoverFiles documentedCars = .ok carFiles ∧
      (carFiles.map fun q => q.commentedCopy.components).Nodup ∧
      ∃ after, FileSystem.writeAll (carFiles.map fun q => (q.commentedCopy, q.bytes))
          documentedCars = .ok after ∧
        (∀ q ∈ carFiles, after.read q.commentedCopy = .ok q.bytes) ∧
        carProject.discoverFiles after = .ok carFiles := by
  have hProper : documentedCars.Proper := by decide +kernel
  have hPlain : (documentedCars.entry? carProject.root).all Entry.isPlain = true := by
    decide +kernel
  have hPattern : "*_commented.java" ∈ carProject.config.exclude := by decide +kernel
  obtain ⟨hNodup, -, hWrite⟩ := discoverFiles_writeAll_commentedCopies hProper rfl hPattern hPlain
    discoverFiles_carProject
  obtain ⟨hSame, hExists⟩ := hWrite Path.bytes
  have hNames : ∀ q ∈ carFiles, ∀ c ∈ q.commentedCopy.components,
      ∃ name ∈ ["p", "lib", "Car.Wheel_commented.java", "Car_commented.java"].map Text.encode,
        c = .name name ∧ name.length ≤ FileSystem.nameLimit := by
    decide +kernel
  have hFree : ∀ q ∈ carFiles, documentedCars.isDirectory q.commentedCopy = false ∧
      FileSystem.pathFault? q.commentedCopy = none := by
    decide +kernel
  have hOpens : ∀ q ∈ carFiles, ∀ fault,
      documentedCars.entry? q.commentedCopy ≠ some (.regular (.error fault)) := by
    have hRead : ∀ q ∈ carFiles, documentedCars.isFile q.commentedCopy = true →
        documentedCars.read q.commentedCopy = .ok [] := by
      decide +kernel
    intro q hq fault hEntry
    have hFault := FileSystem.read_of_entry?_eq hEntry
    rw [hRead q hq (FileSystem.isFile_iff.mpr ⟨_, hEntry⟩)] at hFault
    cases hFault
  have hShort : ∀ q ∈ carFiles, ∀ name, .name name ∈ q.commentedCopy.components →
      name.length ≤ FileSystem.nameLimit := by
    intro q hq name hName
    obtain ⟨_, -, hSame, hLength⟩ := hNames q hq _ hName
    cases hSame
    exact hLength
  obtain ⟨after, hAfter⟩ := hExists fun q hq =>
    ⟨(hFree q hq).1, hOpens q hq, (hFree q hq).2, hShort q hq⟩
  exact ⟨hProper, hPlain, hPattern, discoverFiles_carProject, hNodup, after, hAfter,
    hSame after hAfter⟩

end Project

end JavaOutline
