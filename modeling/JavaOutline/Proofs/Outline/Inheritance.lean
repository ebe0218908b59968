import JavaOutline.Proofs.Outline.Membership

/-! The supertypes of a class. They are read from the entries of its clauses alone: the nodes one
level below a clause, where those below a list of types stand for the list. The entries are
described by addresses, and no node anywhere else in the class has a say. -/
namespace JavaOutline

open Syntax

namespace Syntax.Node

/-- Whether a node is an entry of the clause that is the root: a child that is no list of types, or
a child of such a list. -/
def isEntry (clause : Node) : Address → Bool
  | [j] => !clause.hasKindAt typeListKind [j]
  | [j, _] => clause.hasKindAt typeListKind [j]
  | _ => false

def entries (clause : Node) : List Node :=
  (clause.preorder.filter clause.isEntry).filterMap clause.at?

/-- Whether a node is an entry of a clause of the given kind in the class that is the root. -/
def isClauseEntry (n : Node) (kind : String) : Address → Bool
  | [i, j] => n.hasKindAt kind [i] && !n.hasKindAt typeListKind [i, j]
  | [i, j, _] => n.hasKindAt kind [i] && n.hasKindAt typeListKind [i, j]
  | _ => false

def clauses (n : Node) : List Node :=
  n.children.filter fun c => c.kind = superclassKind ∨ c.kind = interfacesKind

theorem hasKindAt_root (n : Node) (kind : String) :
    n.hasKindAt kind [] = decide (n.kind = kind) := by
  cases n with
  | mk i cs => exact hasKindAt_nil i cs kind

/-- The root is the only node with an empty address. -/
theorem preorder_filter_isEmpty (n : Node) : n.preorder.filter List.isEmpty = [[]] := by
  cases n with
  | mk i cs =>
      have hInside : (inChildren preorder cs).filter List.isEmpty = [] := by
        rw [List.filter_eq_nil_iff]
        intro a ha
        obtain ⟨k, c, b, -, -, rfl⟩ := mem_inChildren.mp ha
        simp
      rw [preorder_mk, List.filter_cons_of_pos rfl, hInside]

/-- One step from the root are its children. -/
theorem filterMap_preorder_children (n : Node) :
    (n.preorder.filter fun b => b.length == 1).filterMap n.at? = n.children := by
  cases n with
  | mk i cs =>
      have hStep (k : Nat) (c : Node) (_hChild : cs[k]? = some c) (b : Address) :
          ((k :: b).length == 1) = b.isEmpty := by
        cases b <;> rfl
      rw [preorder_mk, List.filter_cons_of_neg (by simp), filter_inChildren hStep,
        filterMap_inChildren fun k c hChild b => at?_child hChild b]
      simp only [preorder_filter_isEmpty, List.filterMap_cons, at?_nil, List.filterMap_nil,
        List.flatMap_singleton', children]

section Child

variable {i : NodeInfo} {cs : List Node} {j : Nat} {c : Node}

/-- The entries in a child of a clause: those of the child if it is a list of types, else the child
itself. -/
theorem isEntry_child (hChild : cs[j]? = some c) (b : Address) :
    (Node.mk i cs).isEntry (j :: b) =
      if c.kind = typeListKind then b.length == 1 else b.isEmpty := by
  have hKind : (Node.mk i cs).hasKindAt typeListKind [j] = decide (c.kind = typeListKind) := by
    rw [hasKindAt_child hChild, hasKindAt_root]
  rcases b with _ | ⟨k, _ | ⟨l, b⟩⟩
  · rw [isEntry, hKind]
    split_ifs with hList <;> simp [hList]
  · rw [isEntry, hKind]
    split_ifs with hList <;> simp [hList]
  · simp [isEntry]

/-- The entries in a clause of the given kind are those of the clause. -/
theorem isClauseEntry_child (hChild : cs[j]? = some c) (kind : String) (b : Address) :
    (Node.mk i cs).isClauseEntry kind (j :: b) = (decide (c.kind = kind) && c.isEntry b) := by
  have hKind : (Node.mk i cs).hasKindAt kind [j] = decide (c.kind = kind) := by
    rw [hasKindAt_child hChild, hasKindAt_root]
  rcases b with _ | ⟨k, _ | ⟨l, _ | ⟨m, b⟩⟩⟩
  · simp [isClauseEntry, isEntry]
  · rw [isClauseEntry, hKind, hasKindAt_child hChild, isEntry]
  · rw [isClauseEntry, hKind, hasKindAt_child hChild, isEntry]
  · simp [isClauseEntry, isEntry]

end Child

/-- The entries of a clause by their addresses are those that the reading of the clause goes
through. -/
theorem entries_eq (clause : Node) : clause.entries = Draft.clauseEntries clause := by
  cases clause with
  | mk i cs =>
      have hInside : (inChildren preorder cs).filter (Node.mk i cs).isEntry =
          inChildren (fun c => c.preorder.filter fun b =>
            if c.kind = typeListKind then b.length == 1 else b.isEmpty) cs :=
        filter_inChildren fun j c hChild b => isEntry_child hChild b
      rw [entries, preorder_mk, List.filter_cons_of_neg (by simp [isEntry]), hInside,
        filterMap_inChildren fun j c hChild b => at?_child hChild b, Draft.clauseEntries]
      apply List.flatMap_congr
      intro c _
      split_ifs
      · exact filterMap_preorder_children c
      · rw [preorder_filter_isEmpty]
        simp

/-- The entries of the clauses of one kind by their addresses in the class. -/
theorem filterMap_isClauseEntry (n : Node) (kind : String) :
    (n.preorder.filter (n.isClauseEntry kind)).filterMap n.at? =
      (n.children.filter fun c => c.kind = kind).flatMap entries := by
  cases n with
  | mk i cs =>
      have hInside : (inChildren preorder cs).filter ((Node.mk i cs).isClauseEntry kind) =
          inChildren (fun c => c.preorder.filter fun b =>
            decide (c.kind = kind) && c.isEntry b) cs :=
        filter_inChildren fun j c hChild b => isClauseEntry_child hChild kind b
      rw [preorder_mk, List.filter_cons_of_neg (by simp [isClauseEntry]), hInside,
        filterMap_inChildren fun j c hChild b => at?_child hChild b, children]
      clear hInside
      induction cs with
      | nil => rfl
      | cons c cs ih =>
          rw [List.flatMap_cons, ih]
          by_cases hKind : c.kind = kind <;> simp [hKind, entries]

end Syntax.Node

namespace Draft

/-- The name of the entry at an address, if the entry is a plain name. -/
def supertypeAt? (content : List UInt8) (n : Node) (a : Address) : Option String :=
  (n.at? a).bind fun e =>
    if e.kind = plainTypeKind then some (Text.trim (textOf content e)) else none

/-- The plain names among the entries of the clauses of one kind, in document order. -/
def supertypes (content : List UInt8) (kind : String) (n : Node) : List String :=
  (n.preorder.filter (n.isClauseEntry kind)).filterMap (supertypeAt? content n)

/-- What a clause adds to the names of one kind of clause. -/
def namesIn (content : List UInt8) (kind : String) (clause : Node) : List String :=
  if clause.kind = kind then
    (clause.entries.filter fun e => e.kind = plainTypeKind).map fun e =>
      Text.trim (textOf content e)
  else []

/-- Two clauses with their contents say the same: they are of one kind, and one after another their
entries are of one kind and cover the same text. -/
structure ClausesAgree (content other : List UInt8) (c d : Node) : Prop where
  kind : c.kind = d.kind
  entries : List.Forall₂ (fun e f => e.kind = f.kind ∧ textOf content e = textOf other f)
    c.entries d.entries

variable {content other : List UInt8}

/-- The names of one kind of clause are gathered clause by clause. -/
theorem clauseNames_eq_flatMap (content : List UInt8) {kind : String}
    (hKind : kind = superclassKind ∨ kind = interfacesKind) (n : Node) :
    clauseNames content kind n = n.clauses.flatMap (namesIn content kind) := by
  rw [clauseNames, Node.clauses]
  induction n.children with
  | nil => rfl
  | cons c cs ih =>
      by_cases hHere : c.kind = kind
      · have hClause : c.kind = superclassKind ∨ c.kind = interfacesKind := by rwa [hHere]
        rw [List.filter_cons_of_pos (by simpa using hHere),
          List.filter_cons_of_pos (by simpa using hClause), List.flatMap_cons, List.flatMap_cons,
          List.filter_append, List.map_append, ih, namesIn, if_pos hHere, Node.entries_eq]
      · have hNone : namesIn content kind c = [] := if_neg hHere
        rw [List.filter_cons_of_neg (by simp [hHere]), ih, List.filter_cons]
        split_ifs
        · rw [List.flatMap_cons, hNone, List.nil_append]
        · rfl

/-- Clauses that agree give the same names. -/
theorem ClausesAgree.namesIn_eq {c d : Node} (h : ClausesAgree content other c d)
    (kind : String) : namesIn content kind c = namesIn other kind d := by
  have hNames : (c.entries.filter fun e => e.kind = plainTypeKind).map
        (fun e => Text.trim (textOf content e)) =
      (d.entries.filter fun e => e.kind = plainTypeKind).map
        (fun e => Text.trim (textOf other e)) := by
    have hEntries := h.entries
    generalize c.entries = es at hEntries ⊢
    generalize d.entries = fs at hEntries ⊢
    induction hEntries with
    | nil => rw [List.filter_nil, List.map_nil, List.map_nil]
    | cons hFirst _ ih =>
        obtain ⟨hKind, hText⟩ := hFirst
        simp only [List.filter_cons, hKind]
        split_ifs
        · rw [List.map_cons, List.map_cons, hText, ih]
        · exact ih
  rw [namesIn, namesIn, h.kind, hNames]

/-- Classes whose clauses agree have the same names in them. -/
theorem clauseNames_eq_of_agree {kind : String}
    (hKind : kind = superclassKind ∨ kind = interfacesKind) {n m : Node}
    (h : List.Forall₂ (ClausesAgree content other) n.clauses m.clauses) :
    clauseNames content kind n = clauseNames other kind m := by
  rw [clauseNames_eq_flatMap content hKind, clauseNames_eq_flatMap other hKind]
  generalize n.clauses = cs at h ⊢
  generalize m.clauses = ds at h ⊢
  induction h with
  | nil => rw [List.flatMap_nil, List.flatMap_nil]
  | cons hFirst _ ih => rw [List.flatMap_cons, List.flatMap_cons, hFirst.namesIn_eq kind, ih]

/-- The names in the clauses are those of the entries that are plain names. -/
theorem clauseNames_eq_supertypes (content : List UInt8) (kind : String) (n : Node) :
    clauseNames content kind n = supertypes content kind n := by
  have hEntries : (n.children.filter fun c => c.kind = kind).flatMap clauseEntries =
      (n.preorder.filter (n.isClauseEntry kind)).filterMap n.at? := by
    rw [Node.filterMap_isClauseEntry]
    exact List.flatMap_congr fun c _ => (Node.entries_eq c).symm
  rw [clauseNames, hEntries, ← List.filterMap_eq_map', List.filterMap_filter,
    List.filterMap_filterMap]
  simp only [decide_eq_true_eq]
  rfl

end Draft

/-- The supertypes of a class symbol are those of its node. -/
theorem supertypes_of_getElem? {path content : String} {root : Node} {i : Nat} {a : Address}
    {s : Symbol} (ha : root.declarations[i]? = some a)
    (hs : (symbolsOf path content root)[i]? = some s) (hClass : s.isClass = true) :
    ∃ n, root.at? a = some n ∧ n.kind = classKind ∧
      s.superclasses = Draft.supertypes (Text.encode content) superclassKind n ∧
      s.interfaces = Draft.supertypes (Text.encode content) interfacesKind n := by
  obtain ⟨n, hNode, hDraft⟩ := Option.map_eq_some_iff.mp (ofAddress?_of_getElem? ha hs)
  have hKind : n.kind = classKind := by
    rw [(isClass_isMethod_of_getElem? ha hs).1] at hClass
    simpa [Node.hasKindAt, hNode] using hClass
  rw [if_pos hKind] at hDraft
  refine ⟨n, hNode, hKind, ?_, ?_⟩
  · rw [← Draft.clauseNames_eq_supertypes]
    exact (congrArg Draft.superclasses hDraft).symm
  · rw [← Draft.clauseNames_eq_supertypes]
    exact (congrArg Draft.interfaces hDraft).symm

/-- The supertypes of a class are the plain names among the entries of its clauses, in document
order and each as often as it stands there: the names in its `extends` clauses and those in its
`implements` clauses. Nothing else in the class has a say in them. Take two classes, with any two
contents, whose clauses agree one after another in their kinds and in the kinds and the texts of
their entries; then the classes have the same supertypes, whatever else stands in them or below the
entries. The class symbols of a tree have the supertypes of their nodes. -/
theorem symbolsOf_inheritance :
    (∀ (content : List UInt8) (methods : List String) (n : Node),
      (Draft.ofClass content methods n).superclasses =
          Draft.supertypes content superclassKind n ∧
        (Draft.ofClass content methods n).interfaces =
          Draft.supertypes content interfacesKind n) ∧
      (∀ (content other : List UInt8) (methods others : List String) (n m : Node),
        List.Forall₂ (Draft.ClausesAgree content other) n.clauses m.clauses →
        (Draft.ofClass content methods n).superclasses =
            (Draft.ofClass other others m).superclasses ∧
          (Draft.ofClass content methods n).interfaces =
            (Draft.ofClass other others m).interfaces) ∧
      ∀ (path content : String) (root : Node) (i : Nat) (a : Address) (s : Symbol),
        root.declarations[i]? = some a → (symbolsOf path content root)[i]? = some s →
        s.isClass = true →
        ∃ n, root.at? a = some n ∧ n.kind = classKind ∧
          s.superclasses = Draft.supertypes (Text.encode content) superclassKind n ∧
          s.interfaces = Draft.supertypes (Text.encode content) interfacesKind n := by
  refine ⟨?_, ?_, ?_⟩
  · intro content methods n
    exact ⟨Draft.clauseNames_eq_supertypes content superclassKind n,
      Draft.clauseNames_eq_supertypes content interfacesKind n⟩
  · intro content other methods others n m hAgree
    exact ⟨Draft.clauseNames_eq_of_agree (.inl rfl) hAgree,
      Draft.clauseNames_eq_of_agree (.inr rfl) hAgree⟩
  · intro path content root i a s ha hs hClass
    exact supertypes_of_getElem? ha hs hClass

end JavaOutline
