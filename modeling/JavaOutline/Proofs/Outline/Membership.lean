import JavaOutline.Proofs.Outline.Emission

/-! Classes and their methods. A method is told the name of its class on the way down, and a class
is told the names of its methods on the way up. Both come from the innermost class around the
method, so the two accounts agree. -/
namespace JavaOutline

open Syntax

namespace Syntax.Node

theorem mem_ancestors_trans {a b c : Address} (hab : a ∈ ancestors b) (hbc : b ∈ ancestors c) :
    a ∈ ancestors c := by
  rw [mem_ancestors_iff] at *
  refine ⟨hab.1.trans hbc.1, ?_⟩
  rintro rfl
  exact hab.2 (hab.1.eq_of_length_le hbc.1.length_le)

/-- The innermost class around a declaration is a declaration. -/
theorem nearestClass_mem_declarations {root : Node} {a b : Address}
    (ha : a ∈ root.declarations) (h : root.nearestClass a = some b) : b ∈ root.declarations := by
  obtain ⟨hAbove, hClass⟩ := nearestClass_mem h
  refine mem_declarations_iff.mpr ⟨.inl hClass, ?_⟩
  intro c hc
  exact (mem_declarations_iff.mp ha).2 c (mem_ancestors_trans hc hAbove)

/-- No declared method lies in another, so methods are emitted in document order. -/
theorem declarations_filter_method (root : Node) :
    root.declarations.filter (root.hasKindAt methodKind) =
      root.preorder.filter fun a => root.isDeclaredAt a && root.hasKindAt methodKind a := by
  induction root using Node.induct with
  | step i cs ih =>
      rw [preorder_mk]
      by_cases hMethod : i.kind = methodKind
      · have hInside : (inChildren preorder cs).filter (fun a =>
            (Node.mk i cs).isDeclaredAt a && (Node.mk i cs).hasKindAt methodKind a) = [] := by
          rw [List.filter_eq_nil_iff]
          intro a ha
          obtain ⟨k, c, b, hChild, -, rfl⟩ := mem_inChildren.mp ha
          simp [isDeclaredAt, outermostMethod_child hChild, hMethod]
        conv_rhs => rw [List.filter_cons, hInside]
        simp [declarations_method cs hMethod, isDeclaredAt, hMethod]
      · have hSelf : (if i.kind = classKind then [[]] else []).filter
            ((Node.mk i cs).hasKindAt methodKind) = [] := by
          split_ifs <;> simp [hMethod]
        rw [declarations_of_ne_method cs hMethod, List.filter_append, hSelf, List.append_nil,
          filter_inChildren fun k c hChild a => hasKindAt_child hChild methodKind a,
          inChildren_congr ih, List.filter_cons_of_neg (by simp [hMethod]), filter_inChildren]
        intro k c hChild a
        rw [isDeclaredAt_child hChild hMethod, hasKindAt_child hChild]

end Syntax.Node

/-- The methods of some drafts that have a class, each with the name of its class. -/
def Draft.owned (drafts : List Draft) : List (String × String) :=
  drafts.filterMap fun d =>
    if d.kind == .methodDecl then d.parentClass.map fun parent => (parent, d.name) else none

/-- The methods that the classes among some drafts list, each with the name of the class. -/
def Draft.listed (drafts : List Draft) : List (String × String) :=
  drafts.flatMap fun d =>
    if d.kind == .classDecl then d.methods.map fun method => (d.name, method) else []

/-- Methods that a class around a tree will list. -/
def Findings.pending (parent : Option String) (names : List String) : List (String × String) :=
  parent.toList.flatMap fun p => names.map fun name => (p, name)

namespace Findings

theorem pending_append (parent : Option String) (names more : List String) :
    pending parent (names ++ more) = pending parent names ++ pending parent more := by
  cases parent <;> simp [pending]

variable (content : List UInt8)

/-- Every method that was given the name of a class is listed by a class of that name, or it will
be by the class around the tree. -/
theorem ofNode_owned_perm (parent : Option String) (n : Node) :
    (Draft.owned (ofNode content parent n).drafts).Perm
      (Draft.listed (ofNode content parent n).drafts ++
        pending parent (ofNode content parent n).unclaimed) := by
  induction n using Node.induct generalizing parent with
  | step i cs ih =>
      have hInner (outer : Option String) :
          (Draft.owned (ofNodes content outer cs).drafts).Perm
            (Draft.listed (ofNodes content outer cs).drafts ++
              pending outer (ofNodes content outer cs).unclaimed) := by
        clear * - ih
        induction cs with
        | nil => cases outer <;> exact List.Perm.refl _
        | cons c cs ihCs =>
            have hFirst := ih c List.mem_cons_self outer
            have hRest := ihCs fun d hd => ih d (List.mem_cons_of_mem _ hd)
            simp only [ofNodes, append, Draft.owned, Draft.listed, List.filterMap_append,
              List.flatMap_append, pending_append]
            refine (hFirst.append hRest).trans ?_
            simp only [List.append_assoc]
            exact (List.perm_append_comm_assoc _ _ _).append_left _
      by_cases hMethod : i.kind = methodKind
      · rw [ofNode_method content parent cs hMethod]
        cases parent <;> exact List.Perm.refl _
      by_cases hClass : i.kind = classKind
      · rw [ofNode_class content parent cs hClass]
        have hBelow := hInner (some (Draft.nameOf content (.mk i cs)))
        have hOwned (drafts : List Draft) (names : List String) :
            Draft.owned (drafts ++ [Draft.ofClass content names (.mk i cs)]) =
              Draft.owned drafts := by
          simp [Draft.owned, Draft.ofClass, Draft.located]
        have hListed (drafts : List Draft) (names : List String) :
            Draft.listed (drafts ++ [Draft.ofClass content names (.mk i cs)]) =
              Draft.listed drafts ++ pending (some (Draft.nameOf content (.mk i cs))) names := by
          simp [Draft.listed, Draft.ofClass, Draft.located, pending]
        have hNothing : pending parent [] = [] := by cases parent <;> rfl
        rw [hOwned, hListed, hNothing, List.append_nil]
        exact hBelow
      · rw [ofNode_other content parent cs hClass hMethod]
        exact hInner parent

end Findings

section Symbols

variable {path content : String} {root : Node} {i : Nat} {a : Address} {s : Symbol}

/-- The symbol at the position of a declaration. -/
theorem exists_symbol_of_declaration (path content : String) (ha : root.declarations[i]? = some a) :
    ∃ s, (symbolsOf path content root)[i]? = some s := by
  obtain ⟨hi, -⟩ := List.getElem?_eq_some_iff.mp ha
  exact ⟨_, List.getElem?_eq_getElem (length_symbolsOf path content root ▸ hi)⟩

/-- A symbol has the name of its declaration. -/
theorem name_of_getElem? (ha : root.declarations[i]? = some a)
    (hs : (symbolsOf path content root)[i]? = some s) :
    s.name = Draft.nameAt (Text.encode content) root a := by
  obtain ⟨n, hNode, hBy⟩ := Symbol.declaredBy_of_ofAddress? (List.mem_of_getElem? ha)
    (ofAddress?_of_getElem? ha hs)
  rw [hBy.name, Draft.nameAt, hNode]
  rfl

/-- A symbol is a class or a method exactly if its declaration is. -/
theorem isClass_isMethod_of_getElem? (ha : root.declarations[i]? = some a)
    (hs : (symbolsOf path content root)[i]? = some s) :
    s.isClass = root.hasKindAt classKind a ∧ s.isMethod = root.hasKindAt methodKind a := by
  obtain ⟨n, hNode, hBy⟩ := Symbol.declaredBy_of_ofAddress? (List.mem_of_getElem? ha)
    (ofAddress?_of_getElem? ha hs)
  have hNe : classKind ≠ methodKind := by decide
  rcases hBy.kind with ⟨hKind, hSymbol⟩ | ⟨hKind, hSymbol⟩
  · simp [Symbol.isClass, Symbol.isMethod, hSymbol, Node.hasKindAt, hNode, hKind, hNe]
  · simp [Symbol.isClass, Symbol.isMethod, hSymbol, Node.hasKindAt, hNode, hKind, hNe.symm]

/-- A method names the innermost class around it. -/
theorem parentClass_of_getElem? (ha : root.declarations[i]? = some a)
    (hs : (symbolsOf path content root)[i]? = some s) (hMethod : s.kind = .methodDecl) :
    s.parentClass =
      (root.nearestClass a).map (Draft.nameAt (Text.encode content) root) := by
  obtain ⟨n, hNode, hDraft⟩ := Option.map_eq_some_iff.mp (ofAddress?_of_getElem? ha hs)
  by_cases hClass : n.kind = classKind
  · rw [if_pos hClass] at hDraft
    have hKind := congrArg Draft.kind hDraft
    simp [Draft.ofClass, Draft.located, Symbol.draft, hMethod] at hKind
  · rw [if_neg hClass] at hDraft
    have hParent := congrArg Draft.parentClass hDraft
    simpa [Draft.ofMethod, Draft.ownerName, Symbol.draft] using hParent.symm

/-- The innermost class around a method has a symbol too, later on, and the method has its name. -/
theorem exists_class_of_nearestClass {b : Address} (ha : root.declarations[i]? = some a)
    (hs : (symbolsOf path content root)[i]? = some s) (hMethod : s.isMethod = true)
    (hNear : root.nearestClass a = some b) :
    ∃ (j : Nat) (t : Symbol), i < j ∧ root.declarations[j]? = some b ∧
      (symbolsOf path content root)[j]? = some t ∧ t.isClass = true ∧
      s.parentClass = some t.name := by
  have hParent := parentClass_of_getElem? ha hs (by simpa [Symbol.isMethod] using hMethod)
  have hDeclared := Node.nearestClass_mem_declarations (List.mem_of_getElem? ha) hNear
  obtain ⟨hAbove, hClass⟩ := Node.nearestClass_mem hNear
  obtain ⟨j, hb⟩ := List.mem_iff_getElem?.mp hDeclared
  obtain ⟨t, ht⟩ := exists_symbol_of_declaration path content hb
  refine ⟨j, t, Node.lt_of_mem_ancestors ha hb hAbove, hb, ht, ?_, ?_⟩
  · rw [(isClass_isMethod_of_getElem? hb ht).1, hClass]
  · rw [hParent, hNear, name_of_getElem? hb ht, Option.map_some]

/-- A class lists the methods whose innermost class it is. -/
theorem methods_of_getElem? (ha : root.declarations[i]? = some a)
    (hs : (symbolsOf path content root)[i]? = some s) (hClass : s.kind = .classDecl) :
    s.methods = Draft.memberNames (Text.encode content) root (some a) := by
  obtain ⟨n, hNode, hDraft⟩ := Option.map_eq_some_iff.mp (ofAddress?_of_getElem? ha hs)
  by_cases hKind : n.kind = classKind
  · rw [if_pos hKind] at hDraft
    exact (congrArg Draft.methods hDraft).symm
  · rw [if_neg hKind] at hDraft
    have hSymbol := congrArg Draft.kind hDraft
    simp [Draft.ofMethod, Draft.located, Symbol.draft, hClass] at hSymbol

/-- Emitted methods are told apart from classes, and named, by their addresses. -/
theorem zip_filter_methods (path content : String) (root : Node) (a : Address) :
    ((root.declarations.zip (symbolsOf path content root)).filter fun m =>
        m.2.isMethod && root.nearestClass m.1 == some a).map (fun m => m.2.name) =
      Draft.memberNames (Text.encode content) root (some a) := by
  have hPair (m : Address × Symbol)
      (hm : m ∈ root.declarations.zip (symbolsOf path content root)) :
      (m.2.isMethod && root.nearestClass m.1 == some a) = root.isMethodOf (some a) m.1 ∧
        m.2.name = Draft.nameAt (Text.encode content) root m.1 := by
    obtain ⟨i, hi⟩ := List.mem_iff_getElem?.mp hm
    obtain ⟨ha, hs⟩ := List.getElem?_zip_eq_some.mp hi
    refine ⟨?_, name_of_getElem? ha hs⟩
    rw [(isClass_isMethod_of_getElem? ha hs).2, Node.isMethodOf]
  have hFirst : (root.declarations.zip (symbolsOf path content root)).map Prod.fst =
      root.declarations := List.map_fst_zip (length_symbolsOf path content root).ge
  rw [List.filter_congr fun m hm => (hPair m hm).1,
    List.map_congr_left fun m hm => (hPair m (List.mem_of_mem_filter hm)).2, Draft.memberNames]
  conv_rhs => rw [← hFirst, List.filter_map, List.map_map]
  rfl

end Symbols

/-- Methods and classes agree on who belongs to whom. A method names the class that stands for the
innermost class around it, which comes later, and a class lists the methods whose innermost class it
is, in document order. So the methods with a class and the entries of the classes are the same,
however often names repeat. -/
theorem symbolsOf_membership (path content : String) (root : Node) :
    (∀ (i : Nat) (a : Address) (s : Symbol), root.declarations[i]? = some a →
      (symbolsOf path content root)[i]? = some s → s.isMethod = true →
        (root.nearestClass a = none ∧ s.parentClass = none) ∨
        ∃ (j : Nat) (b : Address) (t : Symbol), root.nearestClass a = some b ∧ i < j ∧
          root.declarations[j]? = some b ∧ (symbolsOf path content root)[j]? = some t ∧
          t.isClass = true ∧ s.parentClass = some t.name) ∧
      (∀ (i : Nat) (a : Address) (s : Symbol), root.declarations[i]? = some a →
        (symbolsOf path content root)[i]? = some s → s.isClass = true →
          s.methods = ((root.declarations.zip (symbolsOf path content root)).filter fun m =>
            m.2.isMethod && root.nearestClass m.1 == some a).map fun m => m.2.name) ∧
      root.declarations.filter (root.hasKindAt methodKind) =
        (root.preorder.filter fun a => root.isDeclaredAt a && root.hasKindAt methodKind a) ∧
      ((symbolsOf path content root).filterMap fun s =>
          if s.isMethod then s.parentClass.map fun parent => (parent, s.name) else none).Perm
        ((symbolsOf path content root).flatMap fun t =>
          if t.isClass then t.methods.map fun method => (t.name, method) else []) := by
  refine ⟨?_, ?_, root.declarations_filter_method, ?_⟩
  · intro i a s ha hs hMethod
    cases hNear : root.nearestClass a with
    | none =>
        have hParent := parentClass_of_getElem? ha hs (by simpa [Symbol.isMethod] using hMethod)
        exact .inl ⟨rfl, by simp [hParent, hNear]⟩
    | some b =>
        obtain ⟨j, t, hlt, hb, ht, hClass, hName⟩ :=
          exists_class_of_nearestClass ha hs hMethod hNear
        exact .inr ⟨j, b, t, rfl, hlt, hb, ht, hClass, hName⟩
  · intro i a s ha hs hClass
    rw [zip_filter_methods]
    exact methods_of_getElem? ha hs (by simpa [Symbol.isClass] using hClass)
  · have hPerm := Findings.ofNode_owned_perm (Text.encode content) none root
    rw [← Draft.map_draft_tie path (Findings.ofNode _ none root).drafts, Draft.owned,
      Draft.listed, List.filterMap_map, List.flatMap_map] at hPerm
    simp only [Findings.pending, Option.toList_none, List.flatMap_nil, List.append_nil] at hPerm
    exact hPerm

end JavaOutline
