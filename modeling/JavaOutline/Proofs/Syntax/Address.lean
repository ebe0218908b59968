import JavaOutline.Syntax.Node
import Mathlib.Data.List.Basic
import Mathlib.Data.List.Forall2
import Mathlib.Data.List.Infix

/-! Addresses of the nodes of a tree. Equal subtrees can stand at several places of a tree, so a
node is told apart only by the way that leads to it. Traversals list addresses, and what a
traversal lists below a node is put together from what it lists in the children. -/
namespace JavaOutline.Syntax

/-- The way from the root of a tree to a node: which child to take at every level. -/
abbrev Address := List Nat

/-- The addresses of the nodes above a node, the root first. The node itself is left out. -/
def ancestors : Address → List Address
  | [] => []
  | k :: a => [] :: (ancestors a).map (k :: ·)

/-- What lies above a node has an address that the node's continues. -/
theorem mem_ancestors_iff {a b : Address} : b ∈ ancestors a ↔ b <+: a ∧ b ≠ a := by
  induction a generalizing b with
  | nil => simp [ancestors]
  | cons k a ih =>
      cases b with
      | nil => simp [ancestors]
      | cons j b =>
          simp only [ancestors, List.mem_cons, List.mem_map, reduceCtorEq, false_or,
            List.cons_prefix_cons, ne_eq, List.cons.injEq]
          constructor
          · rintro ⟨b', hb', rfl, rfl⟩
            have := ih.mp hb'
            exact ⟨⟨rfl, this.1⟩, fun h => this.2 h.2⟩
          · rintro ⟨⟨rfl, hPrefix⟩, hNe⟩
            exact ⟨b, ih.mpr ⟨hPrefix, fun h => hNe ⟨rfl, h⟩⟩, rfl, rfl⟩

/-- Above a node in a child lies what is above it in the same child. -/
theorem cons_mem_ancestors_cons {j k : Nat} {a b : Address} :
    k :: a ∈ ancestors (j :: b) ↔ k = j ∧ a ∈ ancestors b := by
  simp [mem_ancestors_iff, List.cons_prefix_cons]
  tauto

/-- The nodes above a node come first among those above anything inside it. -/
theorem ancestors_split {a b : Address} (h : a ∈ ancestors b) :
    ∃ rest, ancestors b = ancestors a ++ a :: rest := by
  induction a generalizing b with
  | nil =>
      cases b with
      | nil => simp [ancestors] at h
      | cons k b => exact ⟨(ancestors b).map (k :: ·), rfl⟩
  | cons j a ih =>
      cases b with
      | nil => simp [ancestors] at h
      | cons k b =>
          obtain ⟨rfl, ha⟩ := cons_mem_ancestors_cons.mp h
          obtain ⟨rest, hRest⟩ := ih ha
          refine ⟨rest.map (j :: ·), ?_⟩
          simp [ancestors, hRest]

namespace Node

/-- To prove something of every tree, prove it of a node whose children have it. -/
theorem induct {motive : Node → Prop}
    (step : ∀ i cs, (∀ c ∈ cs, motive c) → motive (.mk i cs)) : ∀ n, motive n
  | .mk i cs => step i cs fun c _ => induct step c

/-- The node at an address, if the address does not leave the tree. -/
def at? : Node → Address → Option Node
  | n, [] => some n
  | n, k :: a => n.children[k]?.bind fun c => c.at? a

@[simp] theorem at?_nil (n : Node) : n.at? [] = some n := by cases n; rfl

@[simp] theorem at?_cons (i : NodeInfo) (cs : List Node) (k : Nat) (a : Address) :
    (Node.mk i cs).at? (k :: a) = cs[k]?.bind fun c => c.at? a := rfl

theorem at?_child {i : NodeInfo} {cs : List Node} {k : Nat} {c : Node} (h : cs[k]? = some c)
    (a : Address) : (Node.mk i cs).at? (k :: a) = c.at? a := by simp [h]

/-- What is listed in each of some children, with the addresses that it has from the parent. -/
def inChildren (listing : Node → List Address) (cs : List Node) : List Address :=
  cs.zipIdx.flatMap fun child => (listing child.1).map (child.2 :: ·)

mutual

/-- The addresses of a tree in document order: a node comes before everything inside it. -/
def preorder : Node → List Address
  | .mk _ cs => [] :: preorderFrom 0 cs

def preorderFrom : Nat → List Node → List Address
  | _, [] => []
  | k, n :: rest => (preorder n).map (k :: ·) ++ preorderFrom (k + 1) rest

end

mutual

/-- The addresses of a tree where a node comes after everything inside it. -/
def postorder : Node → List Address
  | .mk _ cs => postorderFrom 0 cs ++ [[]]

def postorderFrom : Nat → List Node → List Address
  | _, [] => []
  | k, n :: rest => (postorder n).map (k :: ·) ++ postorderFrom (k + 1) rest

end

theorem preorderFrom_eq (k : Nat) (cs : List Node) :
    preorderFrom k cs =
      (cs.zipIdx k).flatMap fun child => (preorder child.1).map (child.2 :: ·) := by
  induction cs generalizing k with
  | nil => rfl
  | cons c cs ih => simp [preorderFrom, ih]

theorem postorderFrom_eq (k : Nat) (cs : List Node) :
    postorderFrom k cs =
      (cs.zipIdx k).flatMap fun child => (postorder child.1).map (child.2 :: ·) := by
  induction cs generalizing k with
  | nil => rfl
  | cons c cs ih => simp [postorderFrom, ih]

theorem preorder_mk (i : NodeInfo) (cs : List Node) :
    preorder (.mk i cs) = [] :: inChildren preorder cs := by
  rw [preorder, preorderFrom_eq, inChildren]

theorem postorder_mk (i : NodeInfo) (cs : List Node) :
    postorder (.mk i cs) = inChildren postorder cs ++ [[]] := by
  rw [postorder, postorderFrom_eq, inChildren]

section Children

variable {listing : Node → List Address} {cs : List Node}

/-- What is listed in the children begins with the number of a child. -/
theorem mem_inChildren {a : Address} :
    a ∈ inChildren listing cs ↔ ∃ k c b, cs[k]? = some c ∧ b ∈ listing c ∧ a = k :: b := by
  simp only [inChildren, List.mem_flatMap, List.mem_map, Prod.exists,
    List.mk_mem_zipIdx_iff_getElem?]
  constructor
  · rintro ⟨c, k, hc, b, hb, rfl⟩
    exact ⟨k, c, b, hc, hb, rfl⟩
  · rintro ⟨k, c, b, hc, hb, rfl⟩
    exact ⟨c, k, hc, b, hb, rfl⟩

theorem nil_notMem_inChildren : [] ∉ inChildren listing cs := by
  simp [mem_inChildren]

theorem inChildren_congr {other : Node → List Address} (h : ∀ c ∈ cs, listing c = other c) :
    inChildren listing cs = inChildren other cs := by
  refine List.flatMap_congr fun child hChild => ?_
  rw [h child.1 (List.fst_mem_of_mem_zipIdx hChild)]

/-- A selection that can be made inside each child separately. -/
theorem filter_inChildren {keep : Address → Bool} {keepIn : Node → Address → Bool}
    (h : ∀ k c, cs[k]? = some c → ∀ a, keep (k :: a) = keepIn c a) :
    (inChildren listing cs).filter keep =
      inChildren (fun c => (listing c).filter (keepIn c)) cs := by
  simp only [inChildren, List.filter_flatMap, List.filter_map]
  refine List.flatMap_congr fun child hChild => ?_
  have hKeep : (keep ∘ (child.2 :: ·)) = keepIn child.1 :=
    funext (h child.2 child.1 (List.mem_zipIdx_iff_getElem?.mp hChild))
  rw [hKeep]

/-- What is read off the addresses can be read off inside each child separately. -/
theorem filterMap_inChildren {α : Type} {read : Address → Option α}
    {readIn : Node → Address → Option α}
    (h : ∀ k c, cs[k]? = some c → ∀ a, read (k :: a) = readIn c a) :
    (inChildren listing cs).filterMap read =
      cs.flatMap fun c => (listing c).filterMap (readIn c) := by
  have hCs : cs.flatMap (fun c => (listing c).filterMap (readIn c)) =
      cs.zipIdx.flatMap fun child => (listing child.1).filterMap (readIn child.1) := by
    conv_lhs => rw [← List.zipIdx_map_fst 0 cs, List.flatMap_map]
  rw [hCs]
  simp only [inChildren, List.filterMap_flatMap, List.filterMap_map]
  refine List.flatMap_congr fun child hChild => ?_
  have hRead : (read ∘ (child.2 :: ·)) = readIn child.1 :=
    funext (h child.2 child.1 (List.mem_zipIdx_iff_getElem?.mp hChild))
  rw [hRead]

/-- To read what is listed in the children is to read in each child what is listed there. -/
theorem map_inChildren {α : Type} {read : Address → α} {readIn : Node → Address → α}
    (h : ∀ k c, cs[k]? = some c → ∀ a, read (k :: a) = readIn c a) :
    (inChildren listing cs).map read = cs.flatMap fun c => (listing c).map (readIn c) := by
  simp only [← List.filterMap_eq_map']
  exact filterMap_inChildren fun k c hChild a => congrArg some (h k c hChild a)

/-- A selection inside one child leaves only what is listed there. -/
theorem filter_inChildren_child {keep : Address → Bool} {k : Nat} {c : Node}
    (hChild : cs[k]? = some c) (hOther : ∀ j a, j ≠ k → keep (j :: a) = false) :
    (inChildren listing cs).filter keep =
      ((listing c).filter fun a => keep (k :: a)).map (k :: ·) := by
  obtain ⟨hk, rfl⟩ := List.getElem?_eq_some_iff.mp hChild
  have hSplit : cs = cs.take k ++ cs[k] :: cs.drop (k + 1) := by simp
  have hEmpty (child : Node × Nat) (h : child.2 ≠ k) :
      ((listing child.1).map (child.2 :: ·)).filter keep = [] := by
    simp [List.filter_map, Function.comp_def, hOther _ _ h]
  have hLength : (cs.take k).length = k := List.length_take_of_le hk.le
  conv_lhs => rw [hSplit]
  rw [inChildren, List.zipIdx_append, List.zipIdx_cons, List.flatMap_append, List.flatMap_cons,
    List.filter_append, List.filter_append, List.filter_flatMap, List.filter_flatMap, hLength]
  rw [List.flatMap_eq_nil_iff.mpr, List.flatMap_eq_nil_iff.mpr]
  · simp [List.filter_map, Function.comp_def]
  · intro child h
    have := List.le_snd_of_mem_zipIdx h
    exact hEmpty child (by omega)
  · intro child h
    have := List.snd_lt_of_mem_zipIdx h
    exact hEmpty child (by omega)

/-- An order of addresses that goes by the children first. -/
theorem pairwise_inChildren {R : Address → Address → Prop}
    (hSame : ∀ k a b, R a b → R (k :: a) (k :: b))
    (hLess : ∀ j k a b, j < k → R (j :: a) (k :: b))
    (h : ∀ c ∈ cs, (listing c).Pairwise R) : (inChildren listing cs).Pairwise R := by
  have hFrom (m : Nat) :
      ((cs.zipIdx m).flatMap fun child => (listing child.1).map (child.2 :: ·)).Pairwise R := by
    induction cs generalizing m with
    | nil => simp
    | cons c cs ih =>
        rw [List.zipIdx_cons, List.flatMap_cons, List.pairwise_append]
        refine ⟨?_, ih (fun d hd => h d (List.mem_cons_of_mem _ hd)) (m + 1), ?_⟩
        · exact (h c List.mem_cons_self).map _ (hSame m)
        · intro a ha b hb
          obtain ⟨a, -, rfl⟩ := List.mem_map.mp ha
          obtain ⟨child, hChild, hb⟩ := List.mem_flatMap.mp hb
          obtain ⟨b, -, rfl⟩ := List.mem_map.mp hb
          exact hLess _ _ _ _ (List.le_snd_of_mem_zipIdx hChild)
  exact hFrom 0

end Children

/-- The addresses in postorder are those of the nodes. -/
theorem mem_postorder_iff {n : Node} {a : Address} : a ∈ postorder n ↔ (n.at? a).isSome := by
  induction n using Node.induct generalizing a with
  | step i cs ih =>
      rw [postorder_mk, List.mem_append, mem_inChildren]
      cases a with
      | nil => simp
      | cons k a =>
          cases hc : cs[k]? with
          | none => simp [hc]
          | some c =>
              have := ih c (List.mem_of_getElem? hc) (a := a)
              simp [hc, this]

/-- What holds at every address holds of the nodes listed in postorder. -/
theorem forall_at?_iff {root : Node} {p : Node → Prop} :
    (∀ a n, root.at? a = some n → p n) ↔ ∀ n ∈ root.postorder.filterMap root.at?, p n := by
  constructor
  · intro h n hn
    obtain ⟨a, -, ha⟩ := List.mem_filterMap.mp hn
    exact h a n ha
  · intro h a n ha
    refine h n (List.mem_filterMap.mpr ⟨a, ?_, ha⟩)
    rw [mem_postorder_iff, ha]
    rfl

/-- In postorder no node comes before a node inside it. -/
theorem postorder_pairwise (n : Node) : (postorder n).Pairwise fun a b => ¬ a <+: b := by
  induction n using Node.induct with
  | step i cs ih =>
      rw [postorder_mk, List.pairwise_append]
      refine ⟨pairwise_inChildren ?_ ?_ ih, by simp, ?_⟩
      · intro k a b h
        simpa [List.cons_prefix_cons] using h
      · intro j k a b h
        simp only [List.cons_prefix_cons, not_and]
        omega
      · intro a ha b hb
        rw [List.mem_singleton] at hb
        subst hb
        intro h
        exact nil_notMem_inChildren (List.prefix_nil.mp h ▸ ha)

/-- No node is listed twice. -/
theorem nodup_postorder (n : Node) : (postorder n).Nodup := by
  refine (postorder_pairwise n).imp ?_
  rintro a b h rfl
  exact h List.prefix_rfl

end Node

end JavaOutline.Syntax
