import JavaOutline.Proofs.Outline.Membership

/-! Calls of methods. The walk stops at a method and then looks for calls everywhere inside it, so
a call is recorded once, with the outermost method around it. -/
namespace JavaOutline

open Syntax

namespace Syntax.Node

/-- There is an outermost method around a node if there is any method around it. -/
theorem isSome_outermostMethod (root : Node) (b : Address) :
    (root.outermostMethod b).isSome = (ancestors b).any (root.hasKindAt methodKind) := by
  rw [outermostMethod, ancestorsOfKind, List.head?_filter, List.isSome_find?]

/-- The outermost method around a node is the one above which there is none. -/
theorem outermostMethod_eq_some_iff {root : Node} {a b : Address} :
    root.outermostMethod b = some a ↔ a ∈ ancestors b ∧ root.hasKindAt methodKind a = true ∧
      ∀ c ∈ ancestors a, root.hasKindAt methodKind c = false := by
  rw [outermostMethod, ancestorsOfKind, List.head?_filter]
  constructor
  · intro h
    have hAbove := List.mem_of_find?_eq_some h
    refine ⟨hAbove, List.find?_some h, ?_⟩
    intro c hc
    by_contra hMethod
    obtain ⟨rest, hRest⟩ := ancestors_split hAbove
    have hFound : ((ancestors a).find? (root.hasKindAt methodKind)).isSome = true :=
      List.find?_isSome.mpr ⟨c, hc, by simpa using hMethod⟩
    obtain ⟨d, hd⟩ := Option.isSome_iff_exists.mp hFound
    rw [hRest, List.find?_append, hd, Option.some_or, Option.some.injEq] at h
    have hSelf := List.mem_of_find?_eq_some hd
    exact (mem_ancestors_iff.mp hSelf).2 h
  · rintro ⟨hAbove, hMethod, hNone⟩
    obtain ⟨rest, hRest⟩ := ancestors_split hAbove
    have hBefore : (ancestors a).find? (root.hasKindAt methodKind) = none := by
      rw [List.find?_eq_none]
      simpa using hNone
    rw [hRest, List.find?_append, hBefore, List.find?_cons_of_pos hMethod]
    rfl

end Syntax.Node

namespace Draft

/-- The name of the method that is called at an address, if a method is called there by name. -/
def calledAt? (content : List UInt8) (root : Node) (a : Address) : Option String :=
  (root.at? a).bind fun n =>
    if n.kind = invocationKind then n.name?.map (textOf content) else none

variable {content : List UInt8}

/-- What is called at an address is called in the child that the address goes through. -/
theorem calledAt?_child {i : NodeInfo} {cs : List Node} {k : Nat} {c : Node}
    (hChild : cs[k]? = some c) (a : Address) :
    calledAt? content (.mk i cs) (k :: a) = calledAt? content c a := by
  rw [calledAt?, Node.at?_child hChild, calledAt?]

theorem calledAt?_nil (n : Node) :
    calledAt? content n [] =
      if n.kind = invocationKind then n.name?.map (textOf content) else none := by
  simp [calledAt?]

theorem invocationsIn_eq (cs : List Node) : invocationsIn cs = cs.flatMap invocations := by
  induction cs with
  | nil => rfl
  | cons c cs ih => rw [invocationsIn, ih, List.flatMap_cons]

/-- The scan for calls goes through the tree in document order. -/
theorem callsIn_eq_preorder (content : List UInt8) (n : Node) :
    callsIn content n = n.preorder.filterMap (calledAt? content n) := by
  induction n using Node.induct with
  | step i cs ih =>
      have hInside : (invocationsIn cs).filterMap (fun call => call.name?.map (textOf content)) =
          (Node.inChildren Node.preorder cs).filterMap (calledAt? content (.mk i cs)) := by
        rw [invocationsIn_eq, List.filterMap_flatMap,
          Node.filterMap_inChildren fun k c hChild a => calledAt?_child hChild a]
        exact List.flatMap_congr ih
      rw [callsIn, invocations, List.filterMap_append, hInside, Node.preorder_mk,
        List.filterMap_cons, calledAt?_nil]
      by_cases hKind : i.kind = invocationKind
      · simp only [hKind, Node.kind, Node.info, if_true, List.filterMap_cons, List.filterMap_nil]
        cases (Node.mk i cs).name? <;> rfl
      · simp [hKind, Node.kind, Node.info]

/-- The calls in a node, seen from the root of the tree. -/
theorem callsIn_eq_inside {root n : Node} {a : Address} (hNode : root.at? a = some n)
    (hKind : n.kind ≠ invocationKind) :
    callsIn content n = (root.preorder.filter fun b => decide (a ∈ ancestors b)).filterMap
      (calledAt? content root) := by
  induction a generalizing root with
  | nil =>
      obtain rfl : root = n := by simpa using hNode
      obtain ⟨i, cs⟩ := root
      have hKeep : (Node.inChildren Node.preorder cs).filter (fun b => decide ([] ∈ ancestors b)) =
          Node.inChildren Node.preorder cs := by
        rw [List.filter_eq_self]
        intro b hb
        obtain ⟨k, c, b, -, -, rfl⟩ := Node.mem_inChildren.mp hb
        simp [ancestors]
      rw [callsIn_eq_preorder, Node.preorder_mk, List.filterMap_cons_none, List.filter_cons_of_neg,
        hKeep]
      · simp [ancestors]
      · rw [calledAt?_nil, if_neg hKind]
  | cons k a ih =>
      obtain ⟨i, cs⟩ := root
      rw [Node.at?_cons] at hNode
      obtain ⟨c, hChild, hInner⟩ := Option.bind_eq_some_iff.mp hNode
      have hOther (j : Nat) (b : Address) (hj : j ≠ k) :
          decide (k :: a ∈ ancestors (j :: b)) = false := by
        simp [cons_mem_ancestors_cons, hj.symm]
      rw [ih hInner, Node.preorder_mk, List.filter_cons_of_neg (by simp [ancestors]),
        Node.filter_inChildren_child hChild hOther, List.filterMap_map]
      have hCalled : calledAt? content (.mk i cs) ∘ (k :: ·) = calledAt? content c :=
        funext (calledAt?_child hChild)
      simp only [hCalled, cons_mem_ancestors_cons, true_and]

end Draft

namespace Findings

/-- The methods of a tree record, one after another, the calls of the tree that lie in a method. -/
theorem ofNode_calls (content : List UInt8) (parent : Option String) (n : Node) :
    ((ofNode content parent n).drafts.filter fun d => d.kind == .methodDecl).flatMap Draft.calls =
      (n.preorder.filter fun b => (n.outermostMethod b).isSome).filterMap
        (Draft.calledAt? content n) := by
  induction n using Node.induct generalizing parent with
  | step i cs ih =>
      by_cases hMethod : i.kind = methodKind
      · -- Everything inside this node lies in a method, and the node itself does not.
        have hInside : ∀ b ∈ (Node.mk i cs).preorder,
            ((Node.mk i cs).outermostMethod b).isSome = decide ([] ∈ ancestors b) := by
          rw [Node.preorder_mk]
          intro b hb
          rcases List.mem_cons.mp hb with rfl | hb
          · rfl
          · obtain ⟨k, c, b, hChild, -, rfl⟩ := Node.mem_inChildren.mp hb
            simp [Node.outermostMethod_child hChild, hMethod, ancestors]
        have hKind : (Node.mk i cs).kind ≠ invocationKind := by
          rw [Node.kind, Node.info, hMethod]
          decide
        rw [ofNode_method content parent cs hMethod, List.filter_congr hInside,
          ← Draft.callsIn_eq_inside (Node.at?_nil _) hKind]
        simp [Draft.ofMethod, Draft.located]
      have hInner (outer : Option String) :
          ((ofNodes content outer cs).drafts.filter fun d => d.kind == .methodDecl).flatMap
              Draft.calls =
            ((Node.mk i cs).preorder.filter fun b =>
              ((Node.mk i cs).outermostMethod b).isSome).filterMap
                (Draft.calledAt? content (.mk i cs)) := by
        rw [ofNodes_drafts, List.filter_flatMap, List.flatMap_assoc, Node.preorder_mk,
          List.filter_cons_of_neg (by simp), Node.filter_inChildren,
          Node.filterMap_inChildren fun k c hChild a => Draft.calledAt?_child hChild a]
        · exact List.flatMap_congr fun c hc => ih c hc outer
        · intro k c hChild b
          simp [Node.outermostMethod_child hChild, hMethod]
      by_cases hClass : i.kind = classKind
      · rw [ofNode_class content parent cs hClass,
          ← hInner (some (Draft.nameOf content (.mk i cs)))]
        simp [Draft.ofClass, Draft.located]
      · rw [ofNode_other content parent cs hClass hMethod, hInner]

end Findings

/-- The symbol of a method lists what is called anywhere in its node. -/
theorem calls_of_getElem? {path content : String} {root : Node} {i : Nat} {a : Address}
    {s : Symbol} (ha : root.declarations[i]? = some a)
    (hs : (symbolsOf path content root)[i]? = some s) (hMethod : s.isMethod = true) :
    ∃ n, root.at? a = some n ∧ n.kind = methodKind ∧
      s.calls = Draft.callsIn (Text.encode content) n := by
  obtain ⟨n, hNode, hDraft⟩ := Option.map_eq_some_iff.mp (ofAddress?_of_getElem? ha hs)
  have hKind : n.kind = methodKind := by
    rw [(isClass_isMethod_of_getElem? ha hs).2] at hMethod
    simpa [Node.hasKindAt, hNode] using hMethod
  have hNe : methodKind ≠ classKind := by decide
  rw [if_neg (hKind ▸ hNe)] at hDraft
  exact ⟨n, hNode, hKind, (congrArg Draft.calls hDraft).symm⟩

/-- Calls are neither lost nor recorded twice. A method records the calls anywhere inside it, in
document order. Taken together the methods record the calls of the tree that lie in a method: each
one belongs to the outermost method around it, which has exactly one symbol, and a call in no
method belongs to none. -/
theorem symbolsOf_calls (path content : String) (root : Node) :
    (∀ (i : Nat) (a : Address) (s : Symbol), root.declarations[i]? = some a →
      (symbolsOf path content root)[i]? = some s → s.isMethod = true →
        s.calls = (root.preorder.filter fun b => decide (a ∈ ancestors b)).filterMap
          (Draft.calledAt? (Text.encode content) root)) ∧
      ((symbolsOf path content root).filter Symbol.isMethod).flatMap Symbol.calls =
        (root.preorder.filter fun b => (ancestors b).any (root.hasKindAt methodKind)).filterMap
          (Draft.calledAt? (Text.encode content) root) ∧
      (∀ a b : Address, root.outermostMethod b = some a →
        ∃! i : Nat, root.declarations[i]? = some a ∧
          ∃ s : Symbol, (symbolsOf path content root)[i]? = some s ∧ s.isMethod = true) ∧
      ∀ (i : Nat) (a b : Address) (s : Symbol), root.declarations[i]? = some a →
        (symbolsOf path content root)[i]? = some s → s.isMethod = true →
          (a ∈ ancestors b ↔ root.outermostMethod b = some a) := by
  refine ⟨?_, ?_, ?_, ?_⟩
  · intro i a s ha hs hMethod
    obtain ⟨n, hNode, hKind, hCalls⟩ := calls_of_getElem? ha hs hMethod
    have hNe : methodKind ≠ invocationKind := by decide
    rw [hCalls, Draft.callsIn_eq_inside hNode (hKind ▸ hNe)]
  · simp only [← Node.isSome_outermostMethod]
    rw [← Findings.ofNode_calls _ none,
      ← Draft.map_draft_tie path (Findings.ofNode _ none root).drafts, List.filter_map,
      List.flatMap_map]
    rfl
  · intro a b h
    obtain ⟨-, hMethod, hNone⟩ := Node.outermostMethod_eq_some_iff.mp h
    have hDeclared := Node.mem_declarations_iff.mpr ⟨.inr hMethod, hNone⟩
    obtain ⟨i, ha⟩ := List.mem_iff_getElem?.mp hDeclared
    obtain ⟨s, hs⟩ := exists_symbol_of_declaration path content ha
    refine ⟨i, ⟨ha, s, hs, ?_⟩, ?_⟩
    · rw [(isClass_isMethod_of_getElem? ha hs).2, hMethod]
    · rintro j ⟨hj, -⟩
      obtain ⟨hLength, -⟩ := List.getElem?_eq_some_iff.mp hj
      exact (List.getElem?_inj hLength root.nodup_declarations).mp (hj.trans ha.symm)
  · intro i a b s ha hs hMethod
    rw [(isClass_isMethod_of_getElem? ha hs).2] at hMethod
    have hNone := (Node.mem_declarations_iff.mp (List.mem_of_getElem? ha)).2
    rw [Node.outermostMethod_eq_some_iff]
    exact ⟨fun h => ⟨h, hMethod, hNone⟩, fun h => h.1⟩

end JavaOutline
