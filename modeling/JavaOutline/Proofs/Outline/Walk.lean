import JavaOutline.Proofs.Outline.Declaration

/-! The walk through a tree. Names of methods are handed up the tree and names of classes down it,
but what it drafts for a declaration depends on the address of the declaration alone. -/
namespace JavaOutline

open Syntax

namespace Draft

def nameAt (content : List UInt8) (root : Node) (a : Address) : String :=
  ((root.at? a).map (nameOf content)).getD ""

/-- The names of the declared methods whose innermost class is the given one, in postorder. -/
def memberNames (content : List UInt8) (root : Node) (owner : Option Address) : List String :=
  (root.declarations.filter (root.isMethodOf owner)).map (nameAt content root)

/-- The name of the innermost class around a node. Where the tree has none it is `outer`. -/
def ownerName (content : List UInt8) (outer : Option String) (root : Node) (a : Address) :
    Option String :=
  ((root.nearestClass a).map (nameAt content root)).or outer

/-- The draft of the declaration at an address. -/
def ofAddress? (content : List UInt8) (outer : Option String) (root : Node) (a : Address) :
    Option Draft :=
  (root.at? a).map fun n =>
    if n.kind = classKind then ofClass content (memberNames content root (some a)) n
    else ofMethod content (ownerName content outer root a) n

section Child

variable {content : List UInt8} {i : NodeInfo} {cs : List Node} {k : Nat} {c : Node}

@[simp] theorem nameAt_nil (n : Node) : nameAt content n [] = nameOf content n := by
  simp [nameAt]

theorem nameAt_child (hChild : cs[k]? = some c) (a : Address) :
    nameAt content (.mk i cs) (k :: a) = nameAt content c a := by
  rw [nameAt, Node.at?_child hChild, nameAt]

/-- A class that is the parent is the owner where no class is nearer. -/
theorem ownerName_child (outer : Option String) (hChild : cs[k]? = some c) (a : Address) :
    ownerName content outer (.mk i cs) (k :: a) =
      ownerName content
        (if i.kind = classKind then some (nameOf content (.mk i cs)) else outer) c a := by
  rw [ownerName, Node.nearestClass_child hChild, ownerName]
  cases c.nearestClass a with
  | none => split_ifs <;> simp
  | some b => simp [nameAt_child hChild]

/-- The members of a class inside a child are found in that child. -/
theorem memberNames_child (hMethod : i.kind ≠ methodKind) (hChild : cs[k]? = some c)
    (a : Address) :
    memberNames content (.mk i cs) (some (k :: a)) = memberNames content c (some a) := by
  have hRoot : (if i.kind = classKind then [[]] else []).filter
      ((Node.mk i cs).isMethodOf (some (k :: a))) = [] := by
    split_ifs <;> simp [Node.isMethodOf_nil]
  rw [memberNames, Node.declarations_of_ne_method cs hMethod, List.filter_append, hRoot,
    List.append_nil,
    Node.filter_inChildren_child hChild fun j b hj => Node.isMethodOf_sibling hj a b,
    List.map_map, memberNames]
  simp only [Node.isMethodOf_child hChild]
  exact List.map_congr_left fun b _ => nameAt_child hChild b

/-- The methods in no class of a child belong to the parent if that is a class, and otherwise they
are still in no class. -/
theorem memberNames_parent (content : List UInt8) (cs : List Node)
    (hMethod : i.kind ≠ methodKind) :
    memberNames content (.mk i cs) (if i.kind = classKind then some [] else none) =
      cs.flatMap fun d => memberNames content d none := by
  have hRoot : (if i.kind = classKind then [[]] else []).filter ((Node.mk i cs).isMethodOf
      (if i.kind = classKind then some [] else none)) = [] := by
    split_ifs <;> simp [Node.isMethodOf_nil, hMethod]
  rw [memberNames, Node.declarations_of_ne_method cs hMethod, List.filter_append, hRoot,
    List.append_nil, Node.filter_inChildren fun j d hd b => Node.isMethodOf_parent hd b,
    Node.map_inChildren fun j d hd b => nameAt_child hd b]
  rfl

/-- A class leaves no method unclaimed. -/
theorem memberNames_none_class (hClass : i.kind = classKind) :
    memberNames content (.mk i cs) none = [] := by
  rw [memberNames, List.map_eq_nil_iff, List.filter_eq_nil_iff,
    Node.declarations_of_ne_method cs (Node.kind_ne_of_class hClass), if_pos hClass]
  intro a ha
  rcases List.mem_append.mp ha with hInner | hSelf
  · obtain ⟨j, d, b, hd, -, rfl⟩ := Node.mem_inChildren.mp hInner
    simp [Node.isMethodOf_none_class hd hClass]
  · rw [List.mem_singleton.mp hSelf, Node.isMethodOf_nil]
    simp [Node.kind_ne_of_class hClass]

/-- A method by itself is unclaimed, and nothing in it counts. -/
theorem memberNames_none_method (hMethod : i.kind = methodKind) :
    memberNames content (.mk i cs) none = [nameOf content (.mk i cs)] := by
  simp [memberNames, Node.declarations_method cs hMethod, Node.isMethodOf_nil, hMethod]

/-- Outside a method, a declaration is drafted as in the child it is in. If the parent is a class,
its name goes down with it. -/
theorem ofAddress?_child (outer : Option String) (hMethod : i.kind ≠ methodKind)
    (hChild : cs[k]? = some c) (a : Address) :
    ofAddress? content outer (.mk i cs) (k :: a) =
      ofAddress? content
        (if i.kind = classKind then some (nameOf content (.mk i cs)) else outer) c a := by
  rw [ofAddress?, Node.at?_child hChild, memberNames_child hMethod hChild,
    ownerName_child outer hChild, ofAddress?]

end Child

end Draft

namespace Findings

variable (content : List UInt8) (parent : Option String)

/-- A list of trees contributes the drafts of one tree after another. -/
theorem ofNodes_drafts (cs : List Node) :
    (ofNodes content parent cs).drafts = cs.flatMap fun c => (ofNode content parent c).drafts := by
  induction cs with
  | nil => rfl
  | cons c cs ih => simp [ofNodes, append, ih]

theorem ofNodes_unclaimed (cs : List Node) :
    (ofNodes content parent cs).unclaimed =
      cs.flatMap fun c => (ofNode content parent c).unclaimed := by
  induction cs with
  | nil => rfl
  | cons c cs ih => simp [ofNodes, append, ih]

variable {i : NodeInfo} (cs : List Node)

theorem ofNode_class (h : i.kind = classKind) :
    ofNode content parent (.mk i cs) =
      let inner := ofNodes content (some (Draft.nameOf content (.mk i cs))) cs
      ⟨inner.drafts ++ [Draft.ofClass content inner.unclaimed (.mk i cs)], []⟩ := by
  have hRole : Role.ofKind i.kind = .classDeclaration := by simp [Role.ofKind, h, classKind]
  rw [ofNode, hRole]

theorem ofNode_method (h : i.kind = methodKind) :
    ofNode content parent (.mk i cs) =
      ⟨[Draft.ofMethod content parent (.mk i cs)], [Draft.nameOf content (.mk i cs)]⟩ := by
  have hRole : Role.ofKind i.kind = .methodDeclaration := by simp [Role.ofKind, h, methodKind]
  rw [ofNode, hRole]
  rfl

/-- What is neither a class nor a method contributes what its children do. -/
theorem ofNode_other (hClass : i.kind ≠ classKind) (hMethod : i.kind ≠ methodKind) :
    ofNode content parent (.mk i cs) = ofNodes content parent cs := by
  have hRole : Role.ofKind i.kind = .other := by
    simp_all [Role.ofKind, classKind, methodKind]
  rw [ofNode, hRole]

/-- The walk claims exactly the methods that have no class in the tree. -/
theorem ofNode_unclaimed (n : Node) :
    (ofNode content parent n).unclaimed = Draft.memberNames content n none := by
  induction n using Node.induct generalizing parent with
  | step i cs ih =>
      by_cases hMethod : i.kind = methodKind
      · rw [ofNode_method content parent cs hMethod, Draft.memberNames_none_method hMethod]
      by_cases hClass : i.kind = classKind
      · rw [ofNode_class content parent cs hClass, Draft.memberNames_none_class hClass]
      have hParent := Draft.memberNames_parent content cs hMethod
      rw [if_neg hClass] at hParent
      rw [ofNode_other content parent cs hClass hMethod, ofNodes_unclaimed, hParent]
      exact List.flatMap_congr fun c hc => ih c hc parent

/-- What the walk hands up from the children of a class are the methods of that class. -/
theorem ofNodes_unclaimed_class (h : i.kind = classKind) :
    (ofNodes content parent cs).unclaimed =
      Draft.memberNames content (.mk i cs) (some []) := by
  have hParent := Draft.memberNames_parent content cs (Node.kind_ne_of_class h)
  rw [if_pos h] at hParent
  rw [ofNodes_unclaimed, hParent]
  exact List.flatMap_congr fun c _ => ofNode_unclaimed content parent c

/-- The walk drafts each declaration of the tree once, in postorder, and nothing else. -/
theorem ofNode_drafts (n : Node) :
    (ofNode content parent n).drafts.map some =
      n.declarations.map (Draft.ofAddress? content parent n) := by
  induction n using Node.induct generalizing parent with
  | step i cs ih =>
      by_cases hMethod : i.kind = methodKind
      · have hClass : i.kind ≠ classKind := fun h => Node.kind_ne_of_class h hMethod
        rw [ofNode_method content parent cs hMethod, Node.declarations_method cs hMethod]
        simp [Draft.ofAddress?, Draft.ownerName, Node.kind, Node.info, hClass]
      -- The children are walked below the name of this node if it is a class.
      have hInner (outer : Option String)
          (hOuter : outer = if i.kind = classKind then
            some (Draft.nameOf content (.mk i cs)) else parent) :
          (ofNodes content outer cs).drafts.map some =
            (Node.inChildren Node.declarations cs).map
              (Draft.ofAddress? content parent (.mk i cs)) := by
        rw [ofNodes_drafts, List.map_flatMap, Node.map_inChildren fun k c hc a =>
          Draft.ofAddress?_child parent hMethod hc a, ← hOuter]
        exact List.flatMap_congr fun c hc => ih c hc outer
      rw [Node.declarations_of_ne_method cs hMethod, List.map_append]
      by_cases hClass : i.kind = classKind
      · rw [ofNode_class content parent cs hClass, List.map_append,
          hInner _ (if_pos hClass).symm, ofNodes_unclaimed_class content _ cs hClass]
        simp [Draft.ofAddress?, Node.kind, Node.info, hClass]
      · rw [ofNode_other content parent cs hClass hMethod, hInner _ (if_neg hClass).symm]
        simp [hClass]

end Findings

end JavaOutline
