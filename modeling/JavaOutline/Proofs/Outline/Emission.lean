import JavaOutline.Proofs.Outline.Walk
import JavaOutline.Proofs.Symbol.Id

/-! The symbols of a tree. They stand for the declarations of the tree, one for each, in postorder.
Paths, ids and summaries are put on top of drafts and take nothing away from them. -/
namespace JavaOutline

open Syntax

/-- What a symbol says of its declaration: everything but the path, the id and the summary. -/
def Symbol.draft (s : Symbol) : Draft :=
  { kind := s.kind
    name := s.name
    code := s.code
    startLine := s.startLine
    endLine := s.endLine
    indent := s.indent
    parentClass := s.parentClass
    superclasses := s.superclasses
    interfaces := s.interfaces
    methods := s.methods
    calls := s.calls }

/-- Tying drafts to a file keeps them all, in order. -/
theorem Draft.map_draft_tie (path : String) (drafts : List Draft) :
    (Draft.tie path drafts).map Symbol.draft = drafts := by
  have hLength : drafts.length ≤ (Id.assign path (drafts.map Draft.qualifiedName)).length := by
    simp [Id.length_assign]
  rw [Draft.tie, List.map_zipWith]
  have hSecond := List.map_snd_zip hLength
  rwa [List.zip, List.map_zipWith] at hSecond

/-- Each symbol has the draft of its declaration. -/
theorem symbolsOf_drafts (path content : String) (root : Node) :
    (symbolsOf path content root).map (fun s => some s.draft) =
      root.declarations.map (Draft.ofAddress? (Text.encode content) none root) := by
  rw [← Findings.ofNode_drafts, ← Draft.map_draft_tie path
    (Findings.ofNode (Text.encode content) none root).drafts, List.map_map]
  rfl

/-- There are as many symbols as declarations. -/
theorem length_symbolsOf (path content : String) (root : Node) :
    (symbolsOf path content root).length = root.declarations.length := by
  simpa using congrArg List.length (symbolsOf_drafts path content root)

/-- The symbol at a position has the draft of the declaration at that position. -/
theorem ofAddress?_of_getElem? {path content : String} {root : Node} {i : Nat} {a : Address}
    {s : Symbol} (ha : root.declarations[i]? = some a)
    (hs : (symbolsOf path content root)[i]? = some s) :
    Draft.ofAddress? (Text.encode content) none root a = some s.draft := by
  have h := congrArg (·[i]?) (symbolsOf_drafts path content root)
  simpa [ha, hs, eq_comm] using h

/-- A symbol as a node declares it: a class for a class and a method for a method, with the name,
the text and the place of the node. -/
structure Symbol.DeclaredBy (content : List UInt8) (n : Node) (s : Symbol) : Prop where
  kind : n.kind = classKind ∧ s.kind = .classDecl ∨ n.kind = methodKind ∧ s.kind = .methodDecl
  name : s.name = Draft.nameOf content n
  code : s.code = Draft.textOf content n
  startLine : s.startLine = lineNumber n.info.start.row
  endLine : s.endLine = lineNumber n.info.stop.row
  indent : s.indent = n.info.start.column.toUInt32

/-- The draft of a declaration has the kind, the name, the text and the place of its node. -/
theorem Symbol.declaredBy_of_ofAddress? {content : List UInt8} {outer : Option String}
    {root : Node} {a : Address} {s : Symbol} (hDeclared : a ∈ root.declarations)
    (h : Draft.ofAddress? content outer root a = some s.draft) :
    ∃ n, root.at? a = some n ∧ s.DeclaredBy content n := by
  obtain ⟨n, hNode, hDraft⟩ := Option.map_eq_some_iff.mp h
  refine ⟨n, hNode, ?_⟩
  by_cases hClass : n.kind = classKind
  · rw [if_pos hClass] at hDraft
    cases s
    cases hDraft
    exact ⟨.inl ⟨hClass, rfl⟩, rfl, rfl, rfl, rfl, rfl⟩
  · have hMethod : n.kind = methodKind := by
      have hKind := (Node.mem_declarations_iff.mp hDeclared).1
      simpa [Node.hasKindAt, hNode, hClass] using hKind
    rw [if_neg hClass] at hDraft
    cases s
    cases hDraft
    exact ⟨.inr ⟨hMethod, rfl⟩, rfl, rfl, rfl, rfl, rfl⟩

/-- The symbol at a position is declared by the node of the declaration at that position. -/
theorem exists_declaredBy_of_getElem? {path content : String} {root : Node} {i : Nat} {s : Symbol}
    (hs : (symbolsOf path content root)[i]? = some s) :
    ∃ a n, root.declarations[i]? = some a ∧ root.at? a = some n ∧
      s.DeclaredBy (Text.encode content) n := by
  obtain ⟨hi, -⟩ := List.getElem?_eq_some_iff.mp hs
  rw [length_symbolsOf] at hi
  have ha : root.declarations[i]? = some root.declarations[i] := List.getElem?_eq_getElem hi
  obtain ⟨n, hn, hBy⟩ := Symbol.declaredBy_of_ofAddress? (List.mem_of_getElem? ha)
    (ofAddress?_of_getElem? ha hs)
  exact ⟨_, n, ha, hn, hBy⟩

/-- The outline of a tree has one symbol for each class and each method that lies in no method, in
postorder, so a class comes after everything declared inside it. -/
theorem symbolsOf_declarations (path content : String) (root : Node) :
    List.Forall₂ (fun a s => ∃ n, root.at? a = some n ∧ s.DeclaredBy (Text.encode content) n)
        root.declarations (symbolsOf path content root) ∧
      root.declarations.Nodup ∧
      (∀ a, a ∈ root.declarations ↔
        (∃ n, root.at? a = some n ∧ (n.kind = classKind ∨ n.kind = methodKind)) ∧
          ∀ b, b <+: a → b ≠ a → ∀ m, root.at? b = some m → m.kind ≠ methodKind) ∧
      ∀ (i j : Nat) (a b : Address), root.declarations[i]? = some a →
        root.declarations[j]? = some b → b <+: a → b ≠ a → i < j := by
  refine ⟨?_, root.nodup_declarations, ?_, ?_⟩
  · rw [List.forall₂_iff_get]
    refine ⟨(length_symbolsOf path content root).symm, ?_⟩
    intro i ha hs
    have hDraft := ofAddress?_of_getElem? (List.getElem?_eq_getElem ha)
      (List.getElem?_eq_getElem hs)
    exact Symbol.declaredBy_of_ofAddress? (List.get_mem _ _) hDraft
  · intro a
    rw [Node.mem_declarations_iff]
    refine and_congr ?_ ?_
    · simp only [Node.hasKindAt_iff]
      rw [← exists_or]
      exact exists_congr fun n => and_or_left.symm
    · simp only [mem_ancestors_iff, and_imp, ← Bool.not_eq_true, Node.hasKindAt_iff, not_exists,
        not_and, ne_eq]
  · intro i j a b ha hb hPrefix hNe
    exact Node.lt_of_mem_ancestors ha hb (mem_ancestors_iff.mpr ⟨hPrefix, hNe⟩)

end JavaOutline
