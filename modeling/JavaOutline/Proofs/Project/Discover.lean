import JavaOutline.Project.Discover
import JavaOutline.Proofs.FileSystem.Walk

/-! The files of a project among those that a walk meets. Which of them are wanted is decided for
each by itself, so they keep their order and none occurs twice. -/
namespace JavaOutline

theorem FileSystem.fileExists_of_isDirectory {fs : FileSystem} {p : Path}
    (h : fs.isDirectory p = true) : fs.fileExists p = true := by
  unfold FileSystem.isDirectory at h
  rw [FileSystem.fileExists]
  cases hEntry : fs.entry? p with
  | none => simp [hEntry] at h
  | some e => rfl

namespace Project

def wants (p : Project) (set : ExclusionSet) (path : Path) : Bool :=
  path.hasExtension p.config.extension && !p.isExcluded set path

/-- The files of a project are filtered from the files that were met. -/
theorem filterMap_wanted? (p : Project) (set : ExclusionSet) (found : List Found) :
    found.filterMap (p.wanted? set) = (found.filterMap Found.filePath?).filter (p.wants set) := by
  induction found with
  | nil => rfl
  | cons x found ih =>
      cases x with
      | failure fault =>
          rw [List.filterMap_cons_none rfl, List.filterMap_cons_none rfl, ih]
      | file path =>
          have hFile : Found.filePath? (.file path) = some path := rfl
          have hWanted : p.wanted? set (.file path) =
              if p.wants set path then some path else none := rfl
          rw [List.filterMap_cons, hWanted, List.filterMap_cons_some hFile, List.filter_cons, ih]
          cases p.wants set path <;> rfl

/-- When discovery succeeds, the files are the wanted ones that the walk met and what is skipped is
what it could not visit. -/
theorem discover_eq_ok {fs : FileSystem} {p : Project} {files : List Path} {skipped : List Skipped}
    (h : p.discover fs = .ok (files, skipped)) :
    ∃ set, p.exclusions fs = .ok set ∧
      files = ((fs.walk p.root).filterMap Found.filePath?).filter (p.wants set) ∧
      skipped = (fs.walk p.root).filterMap unreachable? := by
  unfold discover at h
  split_ifs at h with hExists hDirectory
  cases hSet : p.exclusions fs with
  | error e => simp [hSet] at h
  | ok set =>
      simp only [hSet, Except.ok.injEq, Prod.mk.injEq] at h
      exact ⟨set, rfl, by rw [← h.1, filterMap_wanted?], h.2.symm⟩

/-- Files are discovered only in a directory. -/
theorem isDirectory_of_discover {fs : FileSystem} {p : Project}
    {found : List Path × List Skipped} (h : p.discover fs = .ok found) :
    fs.isDirectory p.root = true := by
  unfold discover at h
  split_ifs at h with hExists hDirectory
  simpa using hDirectory

/-- In a directory, discovery succeeds as soon as what to leave out is known. -/
theorem discover_eq {fs : FileSystem} {p : Project} {set : ExclusionSet}
    (hRoot : fs.isDirectory p.root = true) (hSet : p.exclusions fs = .ok set) :
    p.discover fs = .ok (((fs.walk p.root).filterMap Found.filePath?).filter (p.wants set),
      (fs.walk p.root).filterMap unreachable?) := by
  simp only [discover, FileSystem.fileExists_of_isDirectory hRoot, hRoot, hSet, filterMap_wanted?,
    Bool.not_true, Bool.false_eq_true, if_false]

/-- Where files are found, it is known too what had to be skipped. -/
theorem exists_discover_of_discoverFiles {fs : FileSystem} {p : Project} {files : List Path}
    (h : p.discoverFiles fs = .ok files) : ∃ skipped, p.discover fs = .ok (files, skipped) := by
  rw [discoverFiles] at h
  cases hFound : p.discover fs with
  | error e =>
      rw [hFound] at h
      cases h
  | ok found =>
      rw [hFound] at h
      cases h
      exact ⟨found.2, rfl⟩

/-- No file of a project is found twice. -/
theorem nodup_of_discover {fs : FileSystem} {p : Project} {files : List Path}
    {skipped : List Skipped} (hfs : fs.Proper) (h : p.discover fs = .ok (files, skipped)) :
    files.Nodup := by
  obtain ⟨set, -, rfl, -⟩ := discover_eq_ok h
  exact (fs.nodup_walk hfs p.root).filter _

end Project

end JavaOutline
