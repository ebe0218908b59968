import JavaOutline.Proofs.Exclusion.Listing
import JavaOutline.Proofs.FileSystem.Reread
import JavaOutline.Proofs.Project.Refusal

/-! The ignore file and the entries of the configuration say the same. A project reads its ignore
file after its own entries, so it finds what it would find with both in the configuration; where
one of them cannot be read, it is refused for the same entry. -/
namespace JavaOutline.Project

def usingIgnoreFile (p : Project) : Project :=
  { p with config := { p.config with useIgnoreFile := true } }

/-- A project with more entries that does not read its ignore file. -/
def excludingOnly (p : Project) (more : List String) : Project :=
  { p with config := { p.config with exclude := p.config.exclude ++ more, useIgnoreFile := false } }

/-- What a project finds depends on its root, its extension and what it leaves out. -/
theorem discover_congr {fs : FileSystem} {p q : Project} (hRoot : p.root = q.root)
    (hExtension : p.config.extension = q.config.extension)
    (hSet : p.exclusions fs = q.exclusions fs) : p.discover fs = q.discover fs := by
  have hWanted (set : ExclusionSet) : p.wanted? set = q.wanted? set := by
    funext found
    cases found with
    | file path => rw [wanted?, wanted?, isExcluded, isExcluded, hRoot, hExtension]
    | failure fault => rfl
  simp only [discover, hRoot, hSet, hWanted]

/-- The ignore file of a project gives the entries that its text lists. -/
theorem loadIgnoreFile_eq_ok {fs : FileSystem} {p : Project} {text : String}
    {entries : List String} (hRead : fs.read p.ignorePath = .ok (Text.encode text))
    (hText : IgnoreText text.toList entries) : loadIgnoreFile fs p.root = .ok entries := by
  have hFile : fs.isFile p.ignorePath = true := FileSystem.isFile_of_read hRead
  unfold ignorePath at hRead hFile
  simp only [loadIgnoreFile, hFile, hRead, if_true, Text.decode?_encode]
  rw [ignoreEntries_eq, hText.filterMap_listed?]

/-- The entries of the ignore file come after those of the configuration. -/
theorem patternEntries_usingIgnoreFile {fs : FileSystem} {p : Project} {entries : List String}
    (hLoad : loadIgnoreFile fs p.root = .ok entries) :
    p.usingIgnoreFile.patternEntries fs = .ok (p.config.exclude ++ entries) := by
  simp only [patternEntries, usingIgnoreFile, hLoad, if_true, Except.map]

theorem patternEntries_excludingOnly (fs : FileSystem) (p : Project) (more : List String) :
    (p.excludingOnly more).patternEntries fs = .ok (p.config.exclude ++ more) := rfl

/-- A project whose ignore file lists entries finds the same as one with these entries. -/
theorem discover_eq_of_read {fs : FileSystem} {p : Project} {text : String}
    {entries : List String} (hRead : fs.read p.ignorePath = .ok (Text.encode text))
    (hText : IgnoreText text.toList entries) :
    p.usingIgnoreFile.discover fs = (p.excludingOnly entries).discover fs := by
  have hLoad := loadIgnoreFile_eq_ok hRead hText
  have hSet : p.usingIgnoreFile.exclusions fs = (p.excludingOnly entries).exclusions fs := by
    rw [exclusions_eq, exclusions_eq, patternEntries_usingIgnoreFile hLoad,
      patternEntries_excludingOnly]
  exact discover_congr rfl rfl hSet

/-- Entries in the ignore file of a project are as good as entries in its configuration, whatever
blanks stand around them and whatever blank lines and comments between them: the files are the same
and so is what is skipped, and if an entry cannot be read, it is the same one that is reported. This
holds wherever the ignore file has such a text, and so once the text has been written to it. -/
theorem discover_usingIgnoreFile (p : Project) {text : String} {entries : List String}
    (hText : IgnoreText text.toList entries) :
    (∀ fs : FileSystem, fs.read p.ignorePath = .ok (Text.encode text) →
        p.usingIgnoreFile.discover fs = (p.excludingOnly entries).discover fs) ∧
      ∀ fs after : FileSystem, fs.write p.ignorePath (Text.encode text) = .ok after →
        p.usingIgnoreFile.discover after = (p.excludingOnly entries).discover after := by
  constructor
  · intro fs hRead
    exact discover_eq_of_read hRead hText
  · intro fs after hWrite
    exact discover_eq_of_read (FileSystem.read_of_write hWrite) hText

/-- A project with a program, a test of it and a program that was generated, and the other entries
of its directory. -/
def generating (others : List (Name × Entry)) : FileSystem :=
  { root := .directory [(Text.encode "proj", .directory
      ([(Text.encode "App.java", .file []), (Text.encode "AppTest.java", .file []),
        (Text.encode "build", .directory [(Text.encode "Made.java", .file [])])] ++ others))]
    current := [] }

def generatingProject : Project := ⟨Path.ofString "proj", ProjectConfig.standard⟩

/-- A comment, an empty line, and two entries, the first of them with blanks around it. -/
def generatingIgnore : String := "\t# made\r\n\n\u00a0build/ \t\r\n*Test.java"

theorem ignoreText_generatingIgnore :
    IgnoreText generatingIgnore.toList ["build/", "*Test.java"] := by
  have hLines : generatingIgnore.toList = (['\t'] ++ '#' :: " made".toList) ++ ['\r', '\n'] ++
      ([] ++ ['\n'] ++ ((['\u00a0'] ++ "build/".toList ++ [' ', '\t']) ++ ['\r', '\n'] ++
        ([] ++ "*Test.java".toList ++ []))) := by
    decide +kernel
  have hFirst : IsListable "build/" := by decide
  have hSecond : IsListable "*Test.java" := by decide
  rw [hLines]
  apply IgnoreText.ended (.comment (by decide) (by decide)) (.inr rfl)
  apply IgnoreText.ended (.blank (by decide)) (.inl rfl)
  apply IgnoreText.ended (.entry (by decide) hFirst (by decide)) (.inr rfl)
  exact .last (.entry (by decide) hSecond (by decide))

theorem discover_usingIgnoreFile_generating :
    IgnoreText generatingIgnore.toList ["build/", "*Test.java"] ∧
      ∃ after, (generating []).write generatingProject.ignorePath (Text.encode generatingIgnore) =
          .ok after ∧
        generatingProject.usingIgnoreFile.discover after =
          (generatingProject.excludingOnly ["build/", "*Test.java"]).discover after := by
  have hWrite : (generating []).write generatingProject.ignorePath (Text.encode generatingIgnore) =
      .ok (generating [(Text.encode ignoreFileName, .file (Text.encode generatingIgnore))]) := by
    rfl
  have hSame := (discover_usingIgnoreFile generatingProject ignoreText_generatingIgnore).2 _ _
    hWrite
  exact ⟨ignoreText_generatingIgnore, _, hWrite, hSame⟩

end JavaOutline.Project
