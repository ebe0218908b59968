import Mathlib
import JavaOutline.Proofs.Project.Isolation
import JavaOutline.Proofs.Project.UniqueIds
import JavaOutline.Proofs.Symbol.Grouping

/-! Projects come file by file. A project is extracted one file after another and no file occurs
twice in it, so in its store the symbols of each file stand together. -/
namespace JavaOutline

/-- Extraction goes file by file, so the symbols of each file stand together. -/
theorem Project.isContiguous_of_extract {fs : FileSystem} (hfs : fs.Proper) {p : Project}
    {s : Store} {skipped : List Skipped} (h : p.extract fs = .ok ⟨s, skipped⟩) :
    s.IsContiguous := by
  cases hFound : p.discover fs with
  | error e => simp [extract, hFound] at h
  | ok found =>
      obtain ⟨files, faults⟩ := found
      rw [extract_eq_ok hFound, Except.ok.injEq, Extraction.mk.injEq] at h
      rw [← h.1]
      apply Store.isContiguous_flatMap
      · intro path _ x hx y hy
        have hName := filePath_of_mem_symbolsIn hx
        rw [filePath_of_mem_symbolsIn hy, Option.some.injEq] at hName
        exact hName.symm
      · apply (nodup_of_discover hfs hFound).imp
        intro path other hNe x hx y hy hSame
        apply hNe
        exact eq_of_text? (filePath_of_mem_symbolsIn hx) (hSame ▸ filePath_of_mem_symbolsIn hy)

/-- The files of a store are the paths of its symbols, each once and in the order in which they
first occur. The symbols of one file after another are those of the store, and those of each file
are in the order of the store. They are the store as it is exactly if the symbols of each file stand
together, as they do in the store of a project. The classes and the methods are all symbols too, and
each of both stand in the order of the store. -/
theorem Store.grouped_by_file_and_by_kind (s : Store) :
    ((∀ path, path ∈ s.files ↔ ∃ x ∈ s.symbols, x.filePath = path) ∧ s.files.Nodup ∧
        s.files.Pairwise fun path other =>
          (s.symbols.map Symbol.filePath).idxOf path <
            (s.symbols.map Symbol.filePath).idxOf other) ∧
      ((s.files.flatMap s.inFile).Perm s.symbols ∧
        ∀ path, ((s.files.flatMap s.inFile).filter fun x => x.filePath == path) =
          s.symbols.filter fun x => x.filePath == path) ∧
      ((s.files.flatMap s.inFile = s.symbols ↔ s.IsContiguous) ∧
        ∀ (fs : FileSystem) (p : Project) (skipped : List Skipped), fs.Proper →
          p.extract fs = .ok ⟨s, skipped⟩ → s.IsContiguous) ∧
      (s.classes ++ s.methods).Perm s.symbols ∧
      (s.classes.Sublist s.symbols ∧
        ∀ x, x ∈ s.classes ↔ x ∈ s.symbols ∧ x.kind = .classDecl) ∧
      s.methods.Sublist s.symbols ∧
        ∀ x, x ∈ s.methods ↔ x ∈ s.symbols ∧ x.kind = .methodDecl := by
  refine ⟨⟨fun _ => mem_files, s.nodup_files, pairwise_firstOccurrences [] _⟩,
    ⟨s.flatMap_inFile_perm, s.filter_flatMap_inFile⟩, ⟨s.flatMap_inFile_eq_iff, ?_⟩,
    s.classes_append_methods_perm, ⟨List.filter_sublist, fun _ => mem_ofKind⟩,
    List.filter_sublist, fun _ => mem_ofKind⟩
  intro fs p skipped hfs hExtract
  exact Project.isContiguous_of_extract hfs hExtract

/-- Two symbols of one file with a symbol of another one between them. -/
def Store.interleaved : Store :=
  ⟨[{ (default : Symbol) with name := "first", filePath := "b/B.java" },
    { (default : Symbol) with name := "second", filePath := "a/A.java" },
    { (default : Symbol) with name := "third", filePath := "b/B.java" }]⟩

theorem Store.grouped_by_file_and_by_kind_linkedProject :
    Project.linkedCopies.Proper ∧
      (∃ s skipped, Project.linkedProject.extract Project.linkedCopies = .ok ⟨s, skipped⟩ ∧
        s.IsContiguous ∧ s.files.flatMap s.inFile = s.symbols) ∧
      interleaved.files = ["b/B.java", "a/A.java"] ∧ ¬interleaved.IsContiguous := by
  have hProper : Project.linkedCopies.Proper := by decide +kernel
  have hExtract := Project.extract_eq_ok Project.discover_linkedProject
  obtain ⟨-, -, ⟨hIff, hProject⟩, -⟩ := grouped_by_file_and_by_kind
    ⟨Project.linkedFiles.flatMap (Project.symbolsIn Project.linkedCopies)⟩
  have hContiguous := hProject _ _ _ hProper hExtract
  obtain ⟨-, -, ⟨hInterleaved, -⟩, -⟩ := grouped_by_file_and_by_kind interleaved
  have hMoved : interleaved.files.flatMap interleaved.inFile ≠ interleaved.symbols := by decide
  exact ⟨hProper, ⟨_, _, hExtract, hContiguous, hIff.mpr hContiguous⟩, by decide,
    fun h => hMoved (hInterleaved.mpr h)⟩

end JavaOutline
