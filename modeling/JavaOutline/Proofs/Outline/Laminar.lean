import JavaOutline.Proofs.Outline.Membership
import JavaOutline.Proofs.Syntax.Span

/-! How the declarations of a file lie to each other. Symbols come in postorder and nothing inside a
method is one, so of two symbols the earlier one ends before the later one begins, or it lies inside
the later one, which is a class then. -/
namespace JavaOutline

open Syntax

/-- A declaration that comes before another one ends before it, or lies in it, which is no method
then. -/
theorem Syntax.Node.IsNested.declarations_endsBefore_or_liesIn {root m n : Node} {i j : Nat}
    {a b : Address} (h : root.IsNested) (hij : i < j) (ha : root.declarations[i]? = some a)
    (hb : root.declarations[j]? = some b) (hm : root.at? a = some m) (hn : root.at? b = some n) :
    m.EndsBefore n ∨ m.LiesIn n ∧ root.hasKindAt methodKind b = false := by
  have hOrder : root.declarations.Pairwise fun a b => b ∈ ancestors a ∨ LeftOf a b :=
    root.postorder_below_or_leftOf.filter _
  obtain ⟨hi, rfl⟩ := List.getElem?_eq_some_iff.mp ha
  obtain ⟨hj, rfl⟩ := List.getElem?_eq_some_iff.mp hb
  rcases List.pairwise_iff_getElem.mp hOrder i j hi hj hij with hBelow | hLeft
  · have hNoMethod := (Node.mem_declarations_iff.mp (List.getElem_mem hi)).2 _ hBelow
    exact .inr ⟨h.liesIn hm hn hBelow, hNoMethod⟩
  · exact .inl (h.endsBefore hm hn hLeft)

/-- Let each node of a tree contain its children, one after another, and let rows ascend with
places. Of two symbols of the tree, the earlier one ends before the later one begins, or it lies
inside the later one. If the later one is a method, the earlier one always ends before it, so
methods are apart. The earlier one never ends on a later line. -/
theorem symbolsOf_laminar (path content : String) {root : Node} (hNested : root.IsNested)
    (hRows : root.RowsAscend) :
    ∀ (i j : Nat) (s t : Symbol), i < j → (symbolsOf path content root)[i]? = some s →
      (symbolsOf path content root)[j]? = some t →
        ∃ a b m n, root.declarations[i]? = some a ∧ root.declarations[j]? = some b ∧
          root.at? a = some m ∧ root.at? b = some n ∧
          s.DeclaredBy (Text.encode content) m ∧ t.DeclaredBy (Text.encode content) n ∧
          (m.EndsBefore n ∨ m.LiesIn n) ∧ (t.isMethod = true → m.EndsBefore n) ∧
          m.info.stop.row ≤ n.info.stop.row ∧
          (n.info.stop.row + 1 < UInt32.size → s.endLine ≤ t.endLine) := by
  intro i j s t hij hs ht
  obtain ⟨a, m, ha, hm, hFirst⟩ := exists_declaredBy_of_getElem? hs
  obtain ⟨b, n, hb, hn, hSecond⟩ := exists_declaredBy_of_getElem? ht
  have hCases := hNested.declarations_endsBefore_or_liesIn hij ha hb hm hn
  have hSpans : m.EndsBefore n ∨ m.LiesIn n := hCases.imp_right And.left
  have hRow : m.info.stop.row ≤ n.info.stop.row :=
    hRows _ (Node.stop_mem_places hm) _ (Node.stop_mem_places hn) (hNested.stop_le_stop hn hSpans)
  refine ⟨a, b, m, n, ha, hb, hm, hn, hFirst, hSecond, hSpans, ?_, hRow, ?_⟩
  · intro hMethod
    rw [(isClass_isMethod_of_getElem? hb ht).2] at hMethod
    rcases hCases with hBefore | ⟨-, hNoMethod⟩
    · exact hBefore
    · rw [hMethod] at hNoMethod
      cases hNoMethod
  · intro hFits
    rw [hFirst.endLine, hSecond.endLine, UInt32.le_iff_toNat_le, toNat_lineNumber hFits,
      toNat_lineNumber (by omega)]
    omega

/-- A class with a class between two methods. -/
def nestedClasses : String :=
  "class A\x7bvoid f()\x7b\x7dclass B\x7bvoid g()\x7b\x7d\x7d\nvoid h()\x7b\x7d\x7d"

def nestedClassesTree : Node :=
  let node (kind : String) (isName : Bool) (start stop : Place) (children : List Node) : Node :=
    .mk ⟨kind, isName, start, stop, false, false, false⟩ children
  let method (start stop name nameEnd : Place) : Node :=
    node methodKind false start stop [node "identifier" true name nameEnd []]
  node "program" false ⟨0, 0, 0⟩ ⟨49, 1, 11⟩
    [node classKind false ⟨0, 0, 0⟩ ⟨49, 1, 11⟩
      [node "identifier" true ⟨6, 0, 6⟩ ⟨7, 0, 7⟩ [],
        node "class_body" false ⟨7, 0, 7⟩ ⟨49, 1, 11⟩
          [method ⟨8, 0, 8⟩ ⟨18, 0, 18⟩ ⟨13, 0, 13⟩ ⟨14, 0, 14⟩,
            node classKind false ⟨18, 0, 18⟩ ⟨37, 0, 37⟩
              [node "identifier" true ⟨24, 0, 24⟩ ⟨25, 0, 25⟩ [],
                node "class_body" false ⟨25, 0, 25⟩ ⟨37, 0, 37⟩
                  [method ⟨26, 0, 26⟩ ⟨36, 0, 36⟩ ⟨31, 0, 31⟩ ⟨32, 0, 32⟩]],
            method ⟨38, 1, 0⟩ ⟨48, 1, 10⟩ ⟨43, 1, 5⟩ ⟨44, 1, 6⟩]]]

theorem symbolsOf_laminar_nestedClasses :
    nestedClassesTree.IsNested ∧ nestedClassesTree.RowsAscend ∧
      (symbolsOf "A.java" nestedClasses nestedClassesTree).map (fun s => (s.name, s.endLine)) =
        [("f", 1), ("g", 1), ("B", 1), ("h", 2), ("A", 2)] ∧
      ∀ (i j : Nat) (s t : Symbol), i < j →
        (symbolsOf "A.java" nestedClasses nestedClassesTree)[i]? = some s →
        (symbolsOf "A.java" nestedClasses nestedClassesTree)[j]? = some t →
          s.endLine ≤ t.endLine ∧
          ∃ a b m n, nestedClassesTree.declarations[i]? = some a ∧
            nestedClassesTree.declarations[j]? = some b ∧
            nestedClassesTree.at? a = some m ∧ nestedClassesTree.at? b = some n ∧
            (m.EndsBefore n ∨ m.LiesIn n) ∧ (t.isMethod = true → m.EndsBefore n) := by
  have hNested : nestedClassesTree.IsNested := by decide +kernel
  have hRows : nestedClassesTree.RowsAscend := by decide +kernel
  have hFits : ∀ p ∈ nestedClassesTree.places, p.row + 1 < UInt32.size := by decide +kernel
  refine ⟨hNested, hRows, by decide +kernel, ?_⟩
  intro i j s t hij hs ht
  obtain ⟨a, b, m, n, ha, hb, hm, hn, -, -, hSpans, hMethod, -, hLines⟩ :=
    symbolsOf_laminar _ _ hNested hRows i j s t hij hs ht
  have hLast := hLines (hFits _ (Node.stop_mem_places hn))
  exact ⟨hLast, a, b, m, n, ha, hb, hm, hn, hSpans, hMethod⟩

end JavaOutline
