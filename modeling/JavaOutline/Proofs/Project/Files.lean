import Mathlib.Data.List.Sort
import JavaOutline.Proofs.Exclusion.Set
import JavaOutline.Proofs.FileSystem.Reach
import JavaOutline.Proofs.FileSystem.Shape
import JavaOutline.Proofs.Project.Discover
import JavaOutline.Proofs.Text.Utf8

/-! Which files a project has: those that can be reached from its root, have its extension and are
matched by no entry of what to leave out. They come in the order of their trails, so more entries
can only take files away. -/
namespace JavaOutline.Project

open JavaOutline.Path

/-- The entries that say what to leave out: those of the configuration, and those of the ignore file
if it is used. -/
def patternEntries (fs : FileSystem) (p : Project) : Except Error (List String) :=
  if p.config.useIgnoreFile then
    (loadIgnoreFile fs p.root).map fun more => p.config.exclude ++ more
  else .ok p.config.exclude

/-- A file at the end of a trail has the extension of a project, and no entry matches its path below
the root, if that is a text. -/
structure Wanted (p : Project) (entries : List String) (trail : List Name) : Prop where
  extension : (p.root.descend trail).extension? = some (Text.encode p.config.extension)
  unmatched : ∀ relative, Text.decode? ([slash].intercalate trail) = some relative →
    ∀ raw ∈ entries, ¬ ExclusionSet.Matches raw relative

/-- What is left out is given by the entries alone. -/
theorem exclusions_eq (fs : FileSystem) (p : Project) :
    p.exclusions fs = (p.patternEntries fs).bind fun entries =>
      (ExclusionSet.ofEntries entries).mapError .pattern := by
  unfold exclusions
  rw [← patternEntries]
  cases p.patternEntries fs with
  | error e => rfl
  | ok entries =>
      simp only [Except.bind]
      cases ExclusionSet.ofEntries entries <;> rfl

/-- If all entries can be read, a path is left out if one of them matches it. -/
theorem exists_exclusions {fs : FileSystem} {p : Project} {entries : List String}
    (hEntries : p.patternEntries fs = .ok entries)
    (hReadable : ∀ raw ∈ entries, ExclusionSet.Readable raw) :
    ∃ set, p.exclusions fs = .ok set ∧
      ∀ path, set.excludes path = true ↔ ∃ raw ∈ entries, ExclusionSet.Matches raw path := by
  obtain ⟨set, hSet, hExcludes⟩ := ExclusionSet.exists_ofEntries hReadable
  refine ⟨set, ?_, hExcludes⟩
  rw [exclusions_eq, hEntries, Except.bind, hSet]
  rfl

/-- If there is a set of what to leave out, all entries can be read. -/
theorem exists_patternEntries {fs : FileSystem} {p : Project} {set : ExclusionSet}
    (h : p.exclusions fs = .ok set) :
    ∃ entries, p.patternEntries fs = .ok entries ∧
      ∀ raw ∈ entries, ExclusionSet.Readable raw := by
  rw [exclusions_eq] at h
  cases hEntries : p.patternEntries fs with
  | error e => simp [hEntries, Except.bind] at h
  | ok entries =>
      cases hSet : ExclusionSet.ofEntries entries with
      | error bad => simp [hEntries, hSet, Except.bind, Except.mapError] at h
      | ok read => exact ⟨entries, rfl, ExclusionSet.readable_of_ofEntries hSet⟩

theorem hasExtension_iff {path : Path} {extension : String} :
    path.hasExtension extension = true ↔ path.extension? = some (Text.encode extension) := by
  rw [hasExtension]
  cases path.extension? with
  | none => simp
  | some bytes => simp [Text.decode?_eq_some_iff]

/-- A project wants the file of a trail if it has the extension and no entry matches it. -/
theorem wants_descend {p : Project} {set : ExclusionSet} {entries : List String}
    {trail : List Name} (hExcludes : ∀ path,
      set.excludes path = true ↔ ∃ raw ∈ entries, ExclusionSet.Matches raw path)
    (hTrail : trail ≠ [] ∧ ∀ name ∈ trail, isEntryName name = true) :
    p.wants set (p.root.descend trail) = true ↔ p.Wanted entries trail := by
  have hExcluded : p.isExcluded set (p.root.descend trail) = true ↔
      ∃ relative, Text.decode? ([slash].intercalate trail) = some relative ∧
        ∃ raw ∈ entries, ExclusionSet.Matches raw relative := by
    rw [isExcluded, relativeTo_descend p.root hTrail.1 fun name hName =>
      isFileName_of_isEntryName (hTrail.2 name hName)]
    cases Text.decode? ([slash].intercalate trail) with
    | none => simp
    | some relative => simp [hExcludes]
  rw [wants, Bool.and_eq_true, Bool.not_eq_true', ← Bool.not_eq_true, hasExtension_iff, hExcluded]
  constructor
  · rintro ⟨hExtension, hNot⟩
    exact ⟨hExtension, fun relative hText raw hRaw hMatch =>
      hNot ⟨relative, hText, raw, hRaw, hMatch⟩⟩
  · rintro ⟨hExtension, hUnmatched⟩
    exact ⟨hExtension, fun ⟨relative, hText, raw, hRaw, hMatch⟩ =>
      hUnmatched relative hText raw hRaw hMatch⟩

/-- The files of a project are at the ends of the trails that reach a wanted file, in strictly
increasing order of the trails. -/
theorem exists_trails_discoverFiles {fs : FileSystem} (hfs : fs.Proper) {p : Project}
    {entries : List String} (hRoot : fs.isDirectory p.root = true)
    (hEntries : p.patternEntries fs = .ok entries)
    (hReadable : ∀ raw ∈ entries, ExclusionSet.Readable raw) :
    ∃ trails : List (List Name), p.discoverFiles fs = .ok (trails.map p.root.descend) ∧
      trails.Pairwise (· < ·) ∧
      ∀ trail, trail ∈ trails ↔ fs.Reaches p.root trail ∧ p.Wanted entries trail := by
  obtain ⟨set, hSet, hExcludes⟩ := exists_exclusions hEntries hReadable
  obtain ⟨trails, hPaths, hSorted, hMem⟩ := fs.exists_trails_walk hfs p.root
  refine ⟨trails.filter fun trail => p.wants set (p.root.descend trail), ?_, hSorted.filter _, ?_⟩
  · rw [discoverFiles, discover_eq hRoot hSet, hPaths, List.filter_map]
    rfl
  · intro trail
    rw [List.mem_filter, hMem]
    exact and_congr_right fun hReaches => wants_descend hExcludes (hReaches.names hfs)

/-- What a project that leaves out more wants, the other one wants too. -/
theorem wants_of_subset {p q : Project} {set larger : ExclusionSet} {path : Path}
    (hRoot : q.root = p.root) (hExtension : q.config.extension = p.config.extension)
    (hSets : ∀ relative, set.excludes relative = true → larger.excludes relative = true)
    (h : q.wants larger path = true) : p.wants set path = true := by
  simp only [wants, isExcluded, hRoot, hExtension, Bool.and_eq_true, Bool.not_eq_true'] at h ⊢
  refine ⟨h.1, ?_⟩
  cases hRelative : path.relativeTo p.root with
  | error e => rfl
  | ok relative =>
      have hLarger := h.2
      simp only [hRelative] at hLarger ⊢
      rw [← Bool.not_eq_true] at hLarger ⊢
      exact fun hSet => hLarger (hSets relative hSet)

/-- With more entries, or an ignore file with more entries, no file comes in and none changes its
place. -/
theorem discoverFiles_sublist {fs other : FileSystem} {p q : Project} {entries more : List String}
    (hShape : fs.SameShape other) (hRoot : q.root = p.root)
    (hExtension : q.config.extension = p.config.extension)
    (hDirectory : fs.isDirectory p.root = true) (hEntries : p.patternEntries fs = .ok entries)
    (hReadable : ∀ raw ∈ entries, ExclusionSet.Readable raw)
    (hMore : q.patternEntries other = .ok more)
    (hMoreReadable : ∀ raw ∈ more, ExclusionSet.Readable raw) (hSubset : entries ⊆ more) :
    ∃ files fewer, p.discoverFiles fs = .ok files ∧ q.discoverFiles other = .ok fewer ∧
      fewer.Sublist files := by
  obtain ⟨set, hSet, hExcludes⟩ := exists_exclusions hEntries hReadable
  obtain ⟨larger, hLarger, hExcludesMore⟩ := exists_exclusions hMore hMoreReadable
  have hOther : other.isDirectory q.root = true := by rw [hShape.isDirectory, hRoot, hDirectory]
  refine ⟨_, _, by rw [discoverFiles, discover_eq hDirectory hSet]; rfl,
    by rw [discoverFiles, discover_eq hOther hLarger]; rfl, ?_⟩
  rw [hShape.walk, hRoot]
  refine List.monotone_filter_right _ fun path hPath => ?_
  refine wants_of_subset hRoot hExtension (fun relative hRelative => ?_) hPath
  obtain ⟨raw, hRaw, hMatch⟩ := (hExcludes relative).mp hRelative
  exact (hExcludesMore relative).mpr ⟨raw, hSubset hRaw, hMatch⟩

/-- The files of a project whose entries can all be read are exactly those at the ends of the trails
from its root that reach a file without a loop, where the file has the extension and its path below
the root is no text or matched by no entry. They come in strictly increasing order of the trails,
name by name and byte by byte, so none comes twice. Entries that are added, in the configuration or
in the ignore file, only take files away. -/
theorem discoverFiles_eq_reached {fs : FileSystem} (hfs : fs.Proper) {p : Project}
    {entries : List String} (hRoot : fs.isDirectory p.root = true)
    (hEntries : p.patternEntries fs = .ok entries)
    (hReadable : ∀ raw ∈ entries, ExclusionSet.Readable raw) :
    ∃ trails : List (List Name),
      p.discoverFiles fs = .ok (trails.map p.root.descend) ∧
      (∀ trail, trail ∈ trails ↔ fs.Reaches p.root trail ∧ p.Wanted entries trail) ∧
      (∀ trail ∈ trails, (∀ name ∈ trail, name.length ≤ FileSystem.nameLimit) →
        FileSystem.pathFault? (p.root.descend trail) = none →
        fs.isFile (p.root.descend trail) = true) ∧
      trails.Pairwise (· < ·) ∧ (trails.map p.root.descend).Nodup ∧
      ∀ (other : FileSystem) (q : Project) (more : List String), fs.SameShape other →
        q.root = p.root → q.config.extension = p.config.extension →
        q.patternEntries other = .ok more → (∀ raw ∈ more, ExclusionSet.Readable raw) →
        entries ⊆ more →
        ∃ fewer, q.discoverFiles other = .ok fewer ∧
          fewer.Sublist (trails.map p.root.descend) := by
  obtain ⟨trails, hFiles, hSorted, hMem⟩ := exists_trails_discoverFiles hfs hRoot hEntries hReadable
  have hReaches (trail : List Name) (h : trail ∈ trails) : fs.Reaches p.root trail :=
    ((hMem trail).mp h).1
  refine ⟨trails, hFiles, hMem, ?_, hSorted, ?_, ?_⟩
  · exact fun trail h hLengths hPath => (hReaches trail h).isFile hfs hLengths hPath
  · refine List.Nodup.map_on (fun s hs t ht hEq => ?_) hSorted.nodup
    exact p.root.descend_injective ((hReaches s hs).names hfs) ((hReaches t ht).names hfs) hEq
  · intro other q more hShape hSameRoot hExtension hMore hMoreReadable hSubset
    obtain ⟨files, fewer, hAll, hFewer, hSublist⟩ := discoverFiles_sublist hShape hSameRoot
      hExtension hRoot hEntries hReadable hMore hMoreReadable hSubset
    obtain rfl : _ = files := Except.ok.inj (hFiles.symm.trans hAll)
    exact ⟨fewer, hFewer, hSublist⟩

/-- A directory, a file that comes after it by its name but not by the bytes of its path, a link
back to the directory around them, and a directory that the ignore file leaves out. -/
def looping : FileSystem :=
  { root := .directory [(Text.encode "p", .directory
      [(Text.encode "skip", .directory [(Text.encode "C.java", .file [])]),
        (Text.encode ignoreFileName, .file (Text.encode "skip/")),
        (Text.encode "a.java", .file []),
        (Text.encode "a", .directory [(Text.encode "B.java", .file [])]),
        (Text.encode "again", .link (Text.encode "."))])]
    current := [] }

def loopingProject (exclude : List String) : Project :=
  ⟨Path.ofString "p", { ProjectConfig.standard with exclude := exclude }⟩

theorem discoverFiles_eq_reached_looping :
    looping.Proper ∧ looping.isDirectory (loopingProject []).root = true ∧
      (loopingProject []).patternEntries looping = .ok ["skip/"] ∧
      (∀ raw ∈ ["skip/"], ExclusionSet.Readable raw) ∧
      ∃ trails : List (List Name), (loopingProject []).discoverFiles looping =
          .ok (trails.map (loopingProject []).root.descend) ∧
        [Text.encode "a", Text.encode "B.java"] ∈ trails ∧ trails.Pairwise (· < ·) ∧
        ∃ fewer, (loopingProject ["a/"]).discoverFiles looping = .ok fewer ∧
          fewer.Sublist (trails.map (loopingProject []).root.descend) := by
  have hProper : looping.Proper := by decide +kernel
  have hRoot : looping.isDirectory (loopingProject []).root = true := by decide +kernel
  have hEntries : (loopingProject []).patternEntries looping = .ok ["skip/"] := by decide +kernel
  have hMore : (loopingProject ["a/"]).patternEntries looping = .ok ["a/", "skip/"] := by
    decide +kernel
  have hReadable : ∀ raw ∈ ["skip/"], ExclusionSet.Readable raw := by decide +kernel
  obtain ⟨trails, hFiles, hMem, -, hSorted, -, hFewer⟩ :=
    discoverFiles_eq_reached hProper hRoot hEntries hReadable
  refine ⟨hProper, hRoot, hEntries, hReadable, trails, hFiles, ?_, hSorted, ?_⟩
  · have hReaches : looping.Reaches (loopingProject []).root
        [Text.encode "a", Text.encode "B.java"] :=
      ⟨[Text.encode "p"], by decide +kernel,
        .inside (.directory rfl (by decide +kernel)) (.file (.file rfl))⟩
    refine (hMem _).mpr ⟨hReaches, by decide +kernel, fun relative hText => ?_⟩
    obtain rfl : "a/B.java" = relative := Option.some.inj ((by decide +kernel :
      Text.decode? ([slash].intercalate [Text.encode "a", Text.encode "B.java"]) =
        some "a/B.java").symm.trans hText)
    decide +kernel
  · exact hFewer looping (loopingProject ["a/"]) ["a/", "skip/"] rfl rfl rfl hMore
      (by decide +kernel) (by simp)

end JavaOutline.Project
