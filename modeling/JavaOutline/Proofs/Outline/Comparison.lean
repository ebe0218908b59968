import JavaOutline.Proofs.Outline.Emission

/-! Outlines compared. Of all that a symbol says, only its id depends on the path and on the
declarations before it, and on these only through how often its name has occurred. So two runs over
the same declarations agree symbol by symbol, even if they start from different paths and after
different names. -/
namespace JavaOutline

open Syntax

namespace Draft

def tieAfter (path : String) (seen : List String) (drafts : List Draft) : List Symbol :=
  List.zipWith (toSymbol path)
    (Id.assignAfter path (seen.map (Id.base path)) (drafts.map qualifiedName)) drafts

/-- The symbol of a draft in a file in which some names have occurred already. -/
def symbolAfter (path : String) (seen : List String) (d : Draft) : Symbol :=
  d.toSymbol path (Id.ofOccurrence path d.qualifiedName (seen.count d.qualifiedName + 1))

/-- A draft is tied to the file with the names before it, and those after it with its own name as
well. -/
theorem tieAfter_cons (path : String) (seen : List String) (d : Draft) (drafts : List Draft) :
    tieAfter path seen (d :: drafts) =
      d.symbolAfter path seen :: tieAfter path (d.qualifiedName :: seen) drafts := by
  rw [tieAfter, List.map_cons, Id.assignAfter, Id.count_map_base]
  rfl

/-- The names of the first drafts have occurred when the later ones are tied. -/
theorem tieAfter_append (path : String) (seen : List String) (drafts later : List Draft) :
    tieAfter path seen (drafts ++ later) =
      tieAfter path seen drafts ++
        tieAfter path ((drafts.map qualifiedName).reverse ++ seen) later := by
  induction drafts generalizing seen with
  | nil => rfl
  | cons d drafts ih =>
      rw [List.cons_append, tieAfter_cons, tieAfter_cons, ih, List.map_cons, List.reverse_cons,
        List.append_assoc, List.singleton_append, List.cons_append]

end Draft

/-- An id is the path, two colons and the label of the occurrence. -/
theorem Id.ofOccurrence_eq_label (path name : String) (n : Nat) :
    ofOccurrence path name n = path ++ "::" ++ String.ofList (label name n) := by
  rw [← String.toList_inj, toList_ofOccurrence]
  simp

/-- Two symbols stand for one declaration, in a file at `p` where the names `seen` have occurred and
in a file at `q` where the names `other` have: they agree in everything but the path and the id, and
if the name has occurred equally often, then after the path in the id too. -/
structure Symbol.Corresponds (p q : String) (seen other : List String) (s t : Symbol) : Prop where
  leaves : s.filePath = p
  arrives : t.filePath = q
  same : { s with id := t.id, filePath := t.filePath } = t
  ids : seen.count t.draft.qualifiedName = other.count t.draft.qualifiedName →
    ∃ rest, s.id = p ++ "::" ++ rest ∧ t.id = q ++ "::" ++ rest

section Runs

variable {p q : String} {seen other : List String} {s t : Symbol}

/-- The symbols of one draft in two files stand for one declaration. -/
theorem Draft.symbolAfter_corresponds (p q : String) (seen other : List String) (d : Draft) :
    (d.symbolAfter p seen).Corresponds p q seen other (d.symbolAfter q other) := by
  refine ⟨rfl, rfl, rfl, ?_⟩
  intro hCount
  have hName : (d.symbolAfter q other).draft.qualifiedName = d.qualifiedName := rfl
  rw [hName] at hCount
  refine ⟨String.ofList (Id.label d.qualifiedName (other.count d.qualifiedName + 1)), ?_, ?_⟩
  · rw [← hCount]
    exact Id.ofOccurrence_eq_label p d.qualifiedName _
  · exact Id.ofOccurrence_eq_label q d.qualifiedName _

/-- One more name in both files keeps the difference between them. -/
theorem Symbol.Corresponds.of_cons {name : String}
    (h : s.Corresponds p q (name :: seen) (name :: other) t) :
    s.Corresponds p q seen other t := by
  refine ⟨h.leaves, h.arrives, h.same, ?_⟩
  intro hCount
  apply h.ids
  rw [List.count_cons, List.count_cons, hCount]

/-- Two runs over the same drafts correspond symbol by symbol, whatever they start from. -/
theorem Draft.tieAfter_corresponds (p q : String) (seen other : List String)
    (drafts : List Draft) :
    List.Forall₂ (Symbol.Corresponds p q seen other) (tieAfter p seen drafts)
      (tieAfter q other drafts) := by
  induction drafts generalizing seen other with
  | nil => exact .nil
  | cons d drafts ih =>
      rw [tieAfter_cons, tieAfter_cons]
      apply List.Forall₂.cons (d.symbolAfter_corresponds p q seen other)
      exact (ih (d.qualifiedName :: seen) (d.qualifiedName :: other)).imp
        fun _ _ h => h.of_cons

/-- In one file, corresponding symbols can differ in nothing but the id. -/
theorem Symbol.Corresponds.same_of_path (h : s.Corresponds p p seen other t) :
    { s with id := t.id } = t := by
  have hPath : s.filePath = t.filePath := h.leaves.trans h.arrives.symm
  have hSame := h.same
  rwa [← hPath] at hSame

/-- In one file, the ids of corresponding symbols are equal if the name has occurred equally often
before. -/
theorem Symbol.Corresponds.id_eq (h : s.Corresponds p p seen other t)
    (hCount : seen.count t.draft.qualifiedName = other.count t.draft.qualifiedName) :
    s.id = t.id := by
  obtain ⟨rest, hs, ht⟩ := h.ids hCount
  exact hs.trans ht.symm

/-- In one file, two runs give the same symbols if each name has occurred equally often before. -/
theorem Symbol.Corresponds.eq_of_forall₂ {symbols others : List Symbol}
    (h : List.Forall₂ (Symbol.Corresponds p p seen other) symbols others)
    (hCount : ∀ t ∈ others,
      seen.count t.draft.qualifiedName = other.count t.draft.qualifiedName) :
    symbols = others := by
  induction h with
  | nil => rfl
  | @cons s t symbols others hFirst _ ih =>
      obtain ⟨hHere, hRest⟩ := List.forall_mem_cons.mp hCount
      have hSame := hFirst.same_of_path
      rw [← hFirst.id_eq hHere] at hSame
      rw [ih hRest, ← hSame]

end Runs

/-- A file that is moved keeps its outline. Under two paths, the symbols of a tree are equally many,
and one after another they agree in everything but the path, which is that of the file, and the
first part of the id, which is the path too. -/
theorem symbolsOf_relocated (p q content : String) (root : Node) :
    List.Forall₂
      (fun s t => s.filePath = p ∧ t.filePath = q ∧
        { s with id := t.id, filePath := t.filePath } = t ∧
        ∃ rest, s.id = p ++ "::" ++ rest ∧ t.id = q ++ "::" ++ rest)
      (symbolsOf p content root) (symbolsOf q content root) := by
  have hRuns := Draft.tieAfter_corresponds p q [] []
    (Findings.ofNode (Text.encode content) none root).drafts
  apply hRuns.imp
  intro s t h
  exact ⟨h.leaves, h.arrives, h.same, h.ids rfl⟩

section TopLevel

variable (path content : String) {i : NodeInfo} (nodes : List Node)

/-- The drafts of a file are those of its top-level nodes. -/
theorem symbolsOf_eq_tie (h : Role.ofKind i.kind = .other) :
    symbolsOf path content (.mk i nodes) =
      Draft.tie path (Findings.ofNodes (Text.encode content) none nodes).drafts := by
  rw [symbolsOf, Findings.ofNode, h]

/-- Symbols that follow others correspond to those of a run of their own. -/
theorem Draft.exists_tie_append (drafts others : List Draft) :
    ∃ later, tie path (drafts ++ others) = tie path drafts ++ later ∧
      List.Forall₂ (Symbol.Corresponds path path (drafts.map qualifiedName).reverse []) later
        (tie path others) := by
  refine ⟨_, ?_, tieAfter_corresponds path path _ [] others⟩
  have hSplit := tieAfter_append path [] drafts others
  rwa [List.append_nil] at hSplit

/-- A name that no symbol has is not that of a draft. -/
theorem Draft.count_qualifiedName_eq_zero {path name : String} {drafts : List Draft}
    (h : ∀ s ∈ tie path drafts, s.draft.qualifiedName ≠ name) :
    (drafts.map qualifiedName).reverse.count name = 0 := by
  rw [List.count_reverse, List.count_eq_zero]
  intro hMem
  obtain ⟨d, hd, hName⟩ := List.mem_map.mp hMem
  rw [← map_draft_tie path drafts] at hd
  obtain ⟨s, hs, rfl⟩ := List.mem_map.mp hd
  exact h s hs hName

end TopLevel

/-- Declarations at the top of a file are outlined independently. When nodes follow others there,
the symbols of the first ones stay as they are, ids included, and the symbols of the later ones come
after them as they would without the first ones, except for their ids. The id too is the same for
every symbol whose qualified name is not that of one of the first ones, so if they have no name in
common, one outline simply follows the other. -/
theorem symbolsOf_append (path content : String) {whole first second : NodeInfo}
    (hWhole : Role.ofKind whole.kind = .other) (hFirst : Role.ofKind first.kind = .other)
    (hSecond : Role.ofKind second.kind = .other) (nodes more : List Node) :
    let earlier := symbolsOf path content (.mk first nodes)
    let alone := symbolsOf path content (.mk second more)
    ∃ later, symbolsOf path content (.mk whole (nodes ++ more)) = earlier ++ later ∧
      List.Forall₂
        (fun s t => { s with id := t.id } = t ∧
          ((∀ r ∈ earlier, r.draft.qualifiedName ≠ t.draft.qualifiedName) → s.id = t.id))
        later alone ∧
      ((∀ t ∈ alone, ∀ r ∈ earlier, r.draft.qualifiedName ≠ t.draft.qualifiedName) →
        later = alone) := by
  intro earlier alone
  obtain ⟨later, hLater, hRuns⟩ := Draft.exists_tie_append path
    (Findings.ofNodes (Text.encode content) none nodes).drafts
    (Findings.ofNodes (Text.encode content) none more).drafts
  have hEarlier : earlier = Draft.tie path _ := symbolsOf_eq_tie path content nodes hFirst
  have hAlone : alone = Draft.tie path _ := symbolsOf_eq_tie path content more hSecond
  rw [← hEarlier] at hLater
  rw [← hAlone] at hRuns
  have hFresh (t : Symbol)
      (hNew : ∀ r ∈ earlier, r.draft.qualifiedName ≠ t.draft.qualifiedName) :=
    Draft.count_qualifiedName_eq_zero (hEarlier ▸ hNew)
  refine ⟨later, ?_, ?_, ?_⟩
  · rw [symbolsOf_eq_tie path content (nodes ++ more) hWhole, Findings.ofNodes_drafts,
      List.flatMap_append, ← Findings.ofNodes_drafts, ← Findings.ofNodes_drafts, hLater]
  · apply hRuns.imp
    intro s t h
    exact ⟨h.same_of_path, fun hNew => h.id_eq (hFresh t hNew)⟩
  · intro hNew
    exact Symbol.Corresponds.eq_of_forall₂ hRuns fun t ht => hFresh t (hNew t ht)

/-- A method, the same method again and a class, one after another. -/
def repeatedMethod : String := "void f()\x7b\x7dvoid f()\x7b\x7dclass B\x7b\x7d"

def repeatedMethodRoot : NodeInfo := ⟨"program", false, ⟨0, 0, 0⟩, ⟨29, 0, 29⟩, false, false, false⟩

def repeatedMethodNode (kind : String) (start name stop : Nat) : Node :=
  .mk ⟨kind, false, ⟨start, 0, start⟩, ⟨stop, 0, stop⟩, false, false, false⟩
    [.mk ⟨"identifier", true, ⟨name, 0, name⟩, ⟨name + 1, 0, name + 1⟩, false, false, false⟩ []]

theorem symbolsOf_append_repeatedMethod :
    let root (nodes : List Node) : Node := .mk repeatedMethodRoot nodes
    let method := repeatedMethodNode methodKind 0 5 10
    let again := repeatedMethodNode methodKind 10 15 20
    let last := repeatedMethodNode classKind 20 26 29
    (symbolsOf "A.java" repeatedMethod (root [method, again, last])).map Symbol.id =
        ["A.java::f", "A.java::f#2", "A.java::B"] ∧
      symbolsOf "A.java" repeatedMethod (root [method, again, last]) =
        symbolsOf "A.java" repeatedMethod (root [method, again]) ++
          symbolsOf "A.java" repeatedMethod (root [last]) ∧
      ∃ later, symbolsOf "A.java" repeatedMethod (root [method, again, last]) =
          symbolsOf "A.java" repeatedMethod (root [method]) ++ later ∧
        List.Forall₂ (fun s t => { s with id := t.id } = t) later
          (symbolsOf "A.java" repeatedMethod (root [again, last])) := by
  intro root method again last
  have hRoot : Role.ofKind repeatedMethodRoot.kind = .other := by decide
  have hNew : ∀ t ∈ symbolsOf "A.java" repeatedMethod (root [last]),
      ∀ r ∈ symbolsOf "A.java" repeatedMethod (root [method, again]),
        r.draft.qualifiedName ≠ t.draft.qualifiedName := by decide +kernel
  obtain ⟨newer, hNewer, -, hSame⟩ := symbolsOf_append "A.java" repeatedMethod hRoot hRoot hRoot
    [method, again] [last]
  obtain ⟨later, hLater, hAgree, -⟩ := symbolsOf_append "A.java" repeatedMethod hRoot hRoot hRoot
    [method] [again, last]
  refine ⟨by decide +kernel, ?_, later, hLater, hAgree.imp fun _ _ h => h.1⟩
  rw [← hSame hNew]
  exact hNewer

end JavaOutline
