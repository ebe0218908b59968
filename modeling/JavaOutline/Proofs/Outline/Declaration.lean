import JavaOutline.Proofs.Syntax.Address
import JavaOutline.Symbol.Outline

/-! The declarations of a tree. They are described by addresses alone, without the walk that makes
the outline: which nodes are declarations, which class a node belongs to, and which method it lies
in. The walk is then shown to draft exactly these, in postorder. -/
namespace JavaOutline

open Syntax

def classKind : String := "class_declaration"

def methodKind : String := "method_declaration"

namespace Syntax.Node

def hasKindAt (root : Node) (kind : String) (a : Address) : Bool :=
  (root.at? a).any fun n => n.kind == kind

def ancestorsOfKind (root : Node) (kind : String) (a : Address) : List Address :=
  (ancestors a).filter (root.hasKindAt kind)

/-- The innermost class around a node. -/
def nearestClass (root : Node) (a : Address) : Option Address :=
  (root.ancestorsOfKind classKind a).getLast?

/-- The outermost method around a node. -/
def outermostMethod (root : Node) (a : Address) : Option Address :=
  (root.ancestorsOfKind methodKind a).head?

def isMethodOf (root : Node) (owner : Option Address) (a : Address) : Bool :=
  root.hasKindAt methodKind a && root.nearestClass a == owner

/-- Whether a node is a class or a method that lies in no method. -/
def isDeclaredAt (root : Node) (a : Address) : Bool :=
  (root.hasKindAt classKind a || root.hasKindAt methodKind a) && (root.outermostMethod a).isNone

/-- The classes and methods that lie in no method, in postorder. -/
def declarations (root : Node) : List Address := root.postorder.filter root.isDeclaredAt

theorem hasKindAt_iff {root : Node} {kind : String} {a : Address} :
    root.hasKindAt kind a = true ↔ ∃ n, root.at? a = some n ∧ n.kind = kind := by
  simp [hasKindAt, Option.any_eq_true]

@[simp] theorem hasKindAt_nil (i : NodeInfo) (cs : List Node) (kind : String) :
    (Node.mk i cs).hasKindAt kind [] = decide (i.kind = kind) := by
  simp [hasKindAt, Node.kind, Node.info, beq_eq_decide]

theorem mem_ancestorsOfKind {root : Node} {kind : String} {a b : Address} :
    b ∈ root.ancestorsOfKind kind a ↔ b ∈ ancestors a ∧ root.hasKindAt kind b = true :=
  List.mem_filter

/-- The innermost class around a node is a class, and lies around it. -/
theorem nearestClass_mem {root : Node} {a b : Address} (h : root.nearestClass a = some b) :
    b ∈ ancestors a ∧ root.hasKindAt classKind b = true :=
  mem_ancestorsOfKind.mp (List.mem_of_getLast? h)

theorem kind_ne_of_class {i : NodeInfo} (h : i.kind = classKind) : i.kind ≠ methodKind := by
  rw [h]
  decide

@[simp] theorem nearestClass_nil (n : Node) : n.nearestClass [] = none := rfl

@[simp] theorem outermostMethod_nil (n : Node) : n.outermostMethod [] = none := rfl

theorem isMethodOf_nil (i : NodeInfo) (cs : List Node) (owner : Option Address) :
    (Node.mk i cs).isMethodOf owner [] = (decide (i.kind = methodKind) && none == owner) := by
  simp [isMethodOf]

section Child

variable {i : NodeInfo} {cs : List Node} {k : Nat} {c : Node}

theorem hasKindAt_child (hChild : cs[k]? = some c) (kind : String) (a : Address) :
    (Node.mk i cs).hasKindAt kind (k :: a) = c.hasKindAt kind a := by
  simp [hasKindAt, hChild]

/-- Seen from the parent, the nodes above are those above in the child, and the parent itself. -/
theorem ancestorsOfKind_child (hChild : cs[k]? = some c) (kind : String) (a : Address) :
    (Node.mk i cs).ancestorsOfKind kind (k :: a) =
      (if i.kind = kind then [[]] else []) ++ (c.ancestorsOfKind kind a).map (k :: ·) := by
  have hInner : (Node.mk i cs).hasKindAt kind ∘ (k :: ·) = c.hasKindAt kind :=
    funext (hasKindAt_child hChild kind)
  rw [ancestorsOfKind, ancestors, List.filter_cons, List.filter_map, hInner, ancestorsOfKind]
  split_ifs <;> simp_all

/-- The innermost class is looked for in the child first. -/
theorem nearestClass_child (hChild : cs[k]? = some c) (a : Address) :
    (Node.mk i cs).nearestClass (k :: a) =
      ((c.nearestClass a).map (k :: ·)).or (if i.kind = classKind then some [] else none) := by
  rw [nearestClass, ancestorsOfKind_child hChild, List.getLast?_append, List.getLast?_map]
  split_ifs <;> rfl

/-- The outermost method is looked for in the parent first. -/
theorem outermostMethod_child (hChild : cs[k]? = some c) (a : Address) :
    (Node.mk i cs).outermostMethod (k :: a) =
      if i.kind = methodKind then some [] else (c.outermostMethod a).map (k :: ·) := by
  rw [outermostMethod, ancestorsOfKind_child hChild]
  split_ifs <;> simp [outermostMethod]

theorem isMethodOf_child (hChild : cs[k]? = some c) (a b : Address) :
    (Node.mk i cs).isMethodOf (some (k :: a)) (k :: b) = c.isMethodOf (some a) b := by
  rw [isMethodOf, hasKindAt_child hChild, nearestClass_child hChild, isMethodOf]
  cases c.nearestClass b with
  | none => split_ifs <;> simp
  | some x => simp

/-- A class in one child has no methods in another. -/
theorem isMethodOf_sibling {j : Nat} (hj : j ≠ k) (a b : Address) :
    (Node.mk i cs).isMethodOf (some (k :: a)) (j :: b) = false := by
  rw [isMethodOf, Bool.and_eq_false_imp, beq_eq_false_iff_ne]
  intro _ hNear
  have hMem := (nearestClass_mem hNear).1
  exact hj (cons_mem_ancestors_cons.mp hMem).1.symm

/-- A method in no class of a child belongs to the parent if that is a class, and otherwise it is
still in no class. -/
theorem isMethodOf_parent (hChild : cs[k]? = some c) (b : Address) :
    (Node.mk i cs).isMethodOf (if i.kind = classKind then some [] else none) (k :: b) =
      c.isMethodOf none b := by
  rw [isMethodOf, hasKindAt_child hChild, nearestClass_child hChild, isMethodOf]
  cases c.nearestClass b with
  | none => split_ifs <;> simp
  | some x => split_ifs <;> simp

/-- In a class no method is without one. -/
theorem isMethodOf_none_class (hChild : cs[k]? = some c) (hClass : i.kind = classKind)
    (b : Address) : (Node.mk i cs).isMethodOf none (k :: b) = false := by
  rw [isMethodOf, nearestClass_child hChild, if_pos hClass]
  cases c.nearestClass b <;> simp

/-- Outside a method, a node is a declaration of the tree if it is one of the child it is in. -/
theorem isDeclaredAt_child (hChild : cs[k]? = some c) (hMethod : i.kind ≠ methodKind)
    (a : Address) : (Node.mk i cs).isDeclaredAt (k :: a) = c.isDeclaredAt a := by
  simp [isDeclaredAt, hasKindAt_child hChild, outermostMethod_child hChild, hMethod]

end Child

/-- Nothing inside a method is a declaration. -/
theorem declarations_method {i : NodeInfo} (cs : List Node) (h : i.kind = methodKind) :
    (Node.mk i cs).declarations = [[]] := by
  have hInside : (inChildren postorder cs).filter (Node.mk i cs).isDeclaredAt = [] := by
    rw [List.filter_eq_nil_iff]
    intro a ha
    obtain ⟨k, c, b, hChild, -, rfl⟩ := mem_inChildren.mp ha
    simp [isDeclaredAt, outermostMethod_child hChild, h]
  rw [declarations, postorder_mk, List.filter_append, hInside]
  simp [isDeclaredAt, h]

/-- The declarations in what is no method are those in its children, and the node itself if it is a
class. -/
theorem declarations_of_ne_method {i : NodeInfo} (cs : List Node) (h : i.kind ≠ methodKind) :
    (Node.mk i cs).declarations =
      inChildren declarations cs ++ if i.kind = classKind then [[]] else [] := by
  rw [declarations, postorder_mk, List.filter_append,
    filter_inChildren fun k c hChild a => isDeclaredAt_child hChild h a]
  congr 1
  split_ifs with hClass <;> simp [isDeclaredAt, h, hClass]

/-- There is no outermost method around a node if none of the nodes around it is a method. -/
theorem outermostMethod_eq_none_iff {root : Node} {a : Address} :
    root.outermostMethod a = none ↔ ∀ b ∈ ancestors a, root.hasKindAt methodKind b = false := by
  rw [outermostMethod, List.head?_eq_none_iff, ancestorsOfKind, List.filter_eq_nil_iff]
  simp

/-- The declarations are the classes and methods around which there is no method. -/
theorem mem_declarations_iff {root : Node} {a : Address} :
    a ∈ root.declarations ↔
      (root.hasKindAt classKind a = true ∨ root.hasKindAt methodKind a = true) ∧
        ∀ b ∈ ancestors a, root.hasKindAt methodKind b = false := by
  rw [declarations, List.mem_filter, isDeclaredAt, Bool.and_eq_true, Bool.or_eq_true,
    Option.isNone_iff_eq_none, outermostMethod_eq_none_iff, mem_postorder_iff]
  constructor
  · exact fun h => h.2
  · intro h
    refine ⟨?_, h⟩
    rcases h.1 with hKind | hKind <;>
    · obtain ⟨n, hNode, -⟩ := hasKindAt_iff.mp hKind
      simp [hNode]

/-- No declaration comes before one inside it. -/
theorem declarations_pairwise (root : Node) :
    root.declarations.Pairwise fun a b => ¬ a <+: b :=
  root.postorder_pairwise.filter _

/-- No declaration is listed twice. -/
theorem nodup_declarations (root : Node) : root.declarations.Nodup :=
  root.nodup_postorder.filter _

/-- What is declared inside a declaration comes before it. -/
theorem lt_of_mem_ancestors {root : Node} {i j : Nat} {a b : Address}
    (ha : root.declarations[i]? = some a) (hb : root.declarations[j]? = some b)
    (h : b ∈ ancestors a) : i < j := by
  obtain ⟨hPrefix, hNe⟩ := mem_ancestors_iff.mp h
  obtain ⟨hi, rfl⟩ := List.getElem?_eq_some_iff.mp ha
  obtain ⟨hj, rfl⟩ := List.getElem?_eq_some_iff.mp hb
  rcases Nat.lt_trichotomy i j with hLess | rfl | hMore
  · exact hLess
  · exact (hNe rfl).elim
  · have hOrder := List.pairwise_iff_getElem.mp root.declarations_pairwise j i hj hi hMore
    exact (hOrder hPrefix).elim

end Syntax.Node

end JavaOutline
