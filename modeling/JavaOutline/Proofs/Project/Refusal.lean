import JavaOutline.Proofs.FileSystem.Resolve
import JavaOutline.Proofs.Project.Extract
import JavaOutline.Proofs.Project.Files

/-! What ends the extraction of a project. All of it happens before the first file is opened: the
root, the ignore file and the entries are checked, and from then on errors only skip files. -/
namespace JavaOutline.Project

def ignorePath (p : Project) : Path := p.root.join (Text.encode ignoreFileName)

/-- Whether a project uses an ignore file that is there and cannot be read as text, for the given
fault: it cannot be opened, or what it holds is no text. -/
def HasBrokenIgnoreFile (fs : FileSystem) (p : Project) (fault : FileFault) : Prop :=
  p.config.useIgnoreFile = true ∧ fs.isFile p.ignorePath = true ∧
    (fs.read p.ignorePath = .error fault ∨
      ∃ bytes, fs.read p.ignorePath = .ok bytes ∧ Text.decode? bytes = none ∧ fault = .notText)

/-- The errors with which a project is refused. -/
inductive Refused (fs : FileSystem) (p : Project) : Error → Prop
  | rootNotFound (hRoot : fs.fileExists p.root = false) : Refused fs p (.rootNotFound p.root)
  | rootNotDirectory (hExists : fs.fileExists p.root = true)
      (hRoot : fs.isDirectory p.root = false) : Refused fs p (.rootNotDirectory p.root)
  | ignoreFile {fault : FileFault} (hRoot : fs.isDirectory p.root = true)
      (hBroken : p.HasBrokenIgnoreFile fs fault) : Refused fs p (.read p.ignorePath fault)
  | pattern {entries : List String} {bad : BadPattern} (hRoot : fs.isDirectory p.root = true)
      (hEntries : p.patternEntries fs = .ok entries)
      (hBad : ExclusionSet.ofEntries entries = .error bad) : Refused fs p (.pattern bad)

/-- Loading fails only if the ignore file is there and cannot be read as text. -/
theorem loadIgnoreFile_eq_error_iff {fs : FileSystem} {p : Project} {e : Error}
    (hUse : p.config.useIgnoreFile = true) :
    loadIgnoreFile fs p.root = .error e ↔
      ∃ fault, p.HasBrokenIgnoreFile fs fault ∧ e = .read p.ignorePath fault := by
  unfold loadIgnoreFile HasBrokenIgnoreFile
  rw [← ignorePath]
  dsimp only
  cases hFile : fs.isFile p.ignorePath with
  | false => simp
  | true =>
      cases hRead : fs.read p.ignorePath with
      | error fault => simp [hUse, eq_comm]
      | ok bytes =>
          cases hText : Text.decode? bytes with
          | none => simp [hUse, hText, eq_comm]
          | some text => simp [hText]

/-- There are entries unless the ignore file is used and broken. -/
theorem patternEntries_eq_error_iff {fs : FileSystem} {p : Project} {e : Error} :
    p.patternEntries fs = .error e ↔
      ∃ fault, p.HasBrokenIgnoreFile fs fault ∧ e = .read p.ignorePath fault := by
  unfold patternEntries
  split_ifs with hUse
  · rw [← loadIgnoreFile_eq_error_iff hUse]
    cases loadIgnoreFile fs p.root <;> simp [Except.map]
  · simp [HasBrokenIgnoreFile, hUse]

/-- There is a set of what to leave out unless the ignore file is broken or a pattern cannot be
read. -/
theorem exclusions_eq_error_iff {fs : FileSystem} {p : Project} {e : Error} :
    p.exclusions fs = .error e ↔
      p.patternEntries fs = .error e ∨
        ∃ entries bad, p.patternEntries fs = .ok entries ∧
          ExclusionSet.ofEntries entries = .error bad ∧ e = .pattern bad := by
  rw [exclusions_eq]
  cases p.patternEntries fs with
  | error fault => simp [Except.bind]
  | ok entries =>
      cases hSet : ExclusionSet.ofEntries entries <;>
        simp [hSet, Except.bind, Except.mapError, eq_comm]

theorem discover_eq_error {fs : FileSystem} {p : Project} {e : Error}
    (hRoot : fs.isDirectory p.root = true) (hSet : p.exclusions fs = .error e) :
    p.discover fs = .error e := by
  simp [discover, FileSystem.fileExists_of_isDirectory hRoot, hRoot, hSet]

/-- A project is refused with exactly these errors. -/
theorem discover_eq_error_iff {fs : FileSystem} {p : Project} {e : Error} :
    p.discover fs = .error e ↔ Refused fs p e := by
  constructor
  · intro h
    unfold discover at h
    split_ifs at h with hExists hDirectory
    · cases h
      exact .rootNotFound (by simpa using hExists)
    · cases h
      exact .rootNotDirectory (by simpa using hExists) (by simpa using hDirectory)
    · have hRoot : fs.isDirectory p.root = true := by simpa using hDirectory
      cases hSet : p.exclusions fs with
      | ok set => simp [hSet] at h
      | error fault =>
          simp only [hSet, Except.error.injEq] at h
          subst h
          rcases exclusions_eq_error_iff.mp hSet with hEntries | ⟨entries, bad, hEntries, hBad, rfl⟩
          · obtain ⟨fault, hBroken, rfl⟩ := patternEntries_eq_error_iff.mp hEntries
            exact .ignoreFile hRoot hBroken
          · exact .pattern hRoot hEntries hBad
  · intro h
    cases h with
    | rootNotFound hRoot => simp [discover, hRoot]
    | rootNotDirectory hExists hRoot => simp [discover, hExists, hRoot]
    | ignoreFile hRoot hBroken =>
        have hEntries := patternEntries_eq_error_iff.mpr ⟨_, hBroken, rfl⟩
        exact discover_eq_error hRoot (exclusions_eq_error_iff.mpr (.inl hEntries))
    | pattern hRoot hEntries hBad =>
        apply discover_eq_error hRoot
        exact exclusions_eq_error_iff.mpr (.inr ⟨_, _, hEntries, hBad, rfl⟩)

/-- Only finding the files can fail: once they are found, the project is extracted. -/
theorem extract_eq_error_iff {fs : FileSystem} {p : Project} {e : Error} :
    p.extract fs = .error e ↔ Refused fs p e := by
  rw [← discover_eq_error_iff]
  cases hFound : p.discover fs with
  | error fault => simp [extract, hFound]
  | ok found =>
      obtain ⟨files, faults⟩ := found
      simp [extract_eq_ok hFound]

/-- Files are found unless the project is refused. -/
theorem discoverFiles_eq_error_iff {fs : FileSystem} {p : Project} {e : Error} :
    p.discoverFiles fs = .error e ↔ Refused fs p e := by
  rw [← discover_eq_error_iff, discoverFiles]
  cases p.discover fs <;> simp [Except.map]

/-- A refusal that is not fatal is about the ignore file. -/
theorem Refused.eq_of_isFatal {fs : FileSystem} {p : Project} {e : Error} (h : Refused fs p e)
    (hFatal : e.isFatal = false) : ∃ fault, e = .read p.ignorePath fault := by
  cases h with
  | rootNotFound | rootNotDirectory | pattern => cases hFatal
  | ignoreFile => exact ⟨_, rfl⟩

/-- A project whose directory is there is refused because of its ignore file if that is broken. -/
theorem refused_ignorePath_iff {fs : FileSystem} {p : Project} {fault : FileFault} :
    Refused fs p (.read p.ignorePath fault) ↔
      fs.isDirectory p.root = true ∧ p.HasBrokenIgnoreFile fs fault := by
  constructor
  · intro h
    cases h with
    | ignoreFile hRoot hBroken => exact ⟨hRoot, hBroken⟩
  · rintro ⟨hRoot, hBroken⟩
    exact .ignoreFile hRoot hBroken

/-- A file is skipped with the error that its extraction gives. -/
theorem skippedIn?_eq_some_iff {fs : FileSystem} {path : Path} {s : Skipped} :
    skippedIn? fs path = some s ↔ ∃ e, extractFile fs path = .error e ∧ s = ⟨path, e⟩ := by
  rw [skippedIn?]
  cases extractFile fs path <;> simp [eq_comm]

/-- What a project skips are the faults of the walk and the errors of its files. -/
theorem mem_skipped_iff {fs : FileSystem} {p : Project} {files : List Path}
    {faults : List Skipped} (hFound : p.discover fs = .ok (files, faults)) {result : Extraction}
    (hResult : p.extract fs = .ok result) {s : Skipped} :
    s ∈ result.skipped ↔
      (∃ fault, Found.failure fault ∈ fs.walk p.root ∧ s = ⟨fault.path, .walk fault⟩) ∨
        ∃ path ∈ files, ∃ e, extractFile fs path = .error e ∧ s = ⟨path, e⟩ := by
  obtain ⟨set, -, -, rfl⟩ := discover_eq_ok hFound
  rw [extract_eq_ok hFound, Except.ok.injEq] at hResult
  subst hResult
  rw [List.mem_append, List.mem_filterMap, List.mem_filterMap]
  simp only [skippedIn?_eq_some_iff]
  refine or_congr_left ?_
  constructor
  · rintro ⟨found, hMem, hFault⟩
    cases found with
    | file path => cases hFault
    | failure fault =>
        cases hFault
        exact ⟨fault, hMem, rfl⟩
  · rintro ⟨fault, hMem, rfl⟩
    exact ⟨.failure fault, hMem, rfl⟩

/-- A project is ended by errors that concern it as a whole, with one exception: an ignore file that
is used and cannot be read as text ends it too, whatever the fault, with an error that counts as one
of a single file. In a project that is extracted, whatever goes wrong with a file or on the walk is
among what is skipped, and nothing there counts as fatal. -/
theorem extract_fatal_unless_ignoreFile (fs : FileSystem) (p : Project) :
    (∀ e, p.extract fs = .error e ↔ Refused fs p e) ∧
      (∀ e, p.discoverFiles fs = .error e ↔ p.extract fs = .error e) ∧
      (∀ e, p.extract fs = .error e → e.isFatal = true ∨ ∃ fault, e = .read p.ignorePath fault) ∧
      (∀ fault, p.extract fs = .error (.read p.ignorePath fault) ↔
        fs.isDirectory p.root = true ∧ p.HasBrokenIgnoreFile fs fault) ∧
      ∀ result, p.extract fs = .ok result →
        ∃ files, p.discoverFiles fs = .ok files ∧
          (∀ fault, Found.failure fault ∈ fs.walk p.root →
            ⟨fault.path, .walk fault⟩ ∈ result.skipped) ∧
          (∀ path ∈ files, ∀ e, extractFile fs path = .error e → ⟨path, e⟩ ∈ result.skipped) ∧
          ∀ s ∈ result.skipped, s.error.isFatal = false := by
  refine ⟨fun _ => extract_eq_error_iff, ?_, ?_, ?_, ?_⟩
  · intro e
    rw [extract_eq_error_iff, discoverFiles_eq_error_iff]
  · intro e hError
    cases hFatal : e.isFatal with
    | true => exact .inl rfl
    | false => exact .inr ((extract_eq_error_iff.mp hError).eq_of_isFatal hFatal)
  · intro fault
    rw [extract_eq_error_iff, refused_ignorePath_iff]
  · intro result hResult
    cases hFound : p.discover fs with
    | error e => simp [extract, hFound] at hResult
    | ok found =>
        obtain ⟨files, faults⟩ := found
        refine ⟨files, by rw [discoverFiles, hFound]; rfl, ?_, ?_, ?_⟩
        · intro fault hFault
          exact (mem_skipped_iff hFound hResult).mpr (.inl ⟨fault, hFault, rfl⟩)
        · intro path hPath e hError
          exact (mem_skipped_iff hFound hResult).mpr (.inr ⟨path, hPath, e, hError, rfl⟩)
        · intro s hs
          rcases (mem_skipped_iff hFound hResult).mp hs with
            ⟨fault, -, rfl⟩ | ⟨path, -, e, hError, rfl⟩
          · rfl
          · exact isFatal_of_extractFile hError

/-- A directory with a file and an ignore file of the given content. -/
def ignoring (content : Except FileFault (List UInt8)) : FileSystem :=
  { root := .directory [(Text.encode "proj", .directory
      [(Text.encode ignoreFileName, .regular content),
        (Text.encode "A.java", .file (Text.encode "class A { }"))])]
    current := [] }

def ignoringProject : Project := ⟨Path.ofString "proj", ProjectConfig.standard⟩

/-- An ignore file that is no text ends it with an error that is not fatal. -/
theorem extract_ignoring_notText :
    ∃ e, ignoringProject.extract (ignoring (.ok [0xFF])) = .error e ∧
      ignoringProject.discoverFiles (ignoring (.ok [0xFF])) = .error e ∧ e.isFatal = false := by
  have hRefused : Refused (ignoring (.ok [0xFF])) ignoringProject
      (.read ignoringProject.ignorePath .notText) :=
    .ignoreFile (by decide +kernel)
      ⟨rfl, by decide +kernel, .inr ⟨[0xFF], by decide +kernel, by decide +kernel, rfl⟩⟩
  exact ⟨_, extract_eq_error_iff.mpr hRefused, discoverFiles_eq_error_iff.mpr hRefused, rfl⟩

example : ignoringProject.extract (ignoring (.error .denied)) =
    .error (.read ignoringProject.ignorePath .denied) := by
  have hRead : (ignoring (.error .denied)).read ignoringProject.ignorePath = .error .denied := by
    decide +kernel
  exact extract_eq_error_iff.mpr
    (.ignoreFile (by decide +kernel) ⟨rfl, by decide +kernel, .inl hRead⟩)

end JavaOutline.Project
