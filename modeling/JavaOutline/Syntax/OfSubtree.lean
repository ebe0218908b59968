import JavaOutline.Parsing.Parse
import JavaOutline.Syntax.Node

/-!
Finished syntax trees.

A node of the finished tree stands for a subtree that shows: one whose symbol is visible, or that
its parent gives another name. The children of the others move up into their place.
-/

namespace JavaOutline.Syntax

open Automaton Parsing

/-- The label of the part that names a construct. -/
def nameLabel : String := "name"

/-- The places of the parts that may carry the name, in order; whether the name is then to be
looked for inside the part. -/
def nameEntries (shape : Shape) : List (Nat × Bool) :=
  shape.labels.filterMap fun (label, place, inherited) =>
    if label == nameLabel then some (place, inherited) else none

/-- The name that a parent gives to the part at a place. Extras have no place. -/
def renameOf (renames : List (Option String)) (i : SubtreeInfo) (place : Nat) : Option String :=
  if i.extra then none else renames.getD place none

def shows (table : Table) (renames : List (Option String)) (i : SubtreeInfo) (place : Nat) :
    Bool :=
  (renameOf renames i place).isSome || (table.info i.symbol).visible

mutual

/-- The number, among the finished children of a subtree, of the one that carries its name. -/
def nameIndex (table : Table) : Subtree → Option Nat
  | .mk i cs =>
      if i.visibleChildren == 0 then none
      else
        let shape := table.shapes.getD i.shape default
        nameIndexAmong table shape.renames cs 0 0 (nameEntries shape)

/-- The same for a list of parts, of which the first has the given place and follows `before`
finished children. -/
def nameIndexAmong (table : Table) (renames : List (Option String)) :
    List Subtree → Nat → Nat → List (Nat × Bool) → Option Nat
  | [], _, _, _ => none
  | _, _, _, [] => none
  | c :: rest, place, before, (wanted, inherited) :: entries =>
      let shown := shows table renames c.info place
      let after := before + (if shown then 1 else c.info.visibleChildren)
      if c.info.extra then
        nameIndexAmong table renames rest place after ((wanted, inherited) :: entries)
      else if place < wanted then
        nameIndexAmong table renames rest (place + 1) after ((wanted, inherited) :: entries)
      else if inherited then
        match nameIndex table c with
        | some k => some (before + k)
        | none => nameIndexAmong table renames rest (place + 1) after entries
      else if shown || c.info.visibleChildren > 0 then some before
      else nameIndexAmong table renames rest (place + 1) after entries

end

def markName (index : Option Nat) (nodes : List Node) : List Node :=
  match index with
  | none => nodes
  | some k => nodes.modify k fun n => .mk { n.info with isName := true } n.children

/-- The place at the end of a stretch from the beginning of the text. -/
def placeOf (e : Extent) : Place := ⟨e.bytes, e.row, e.column⟩

/-- What the finished tree says of a subtree that begins after the given stretch, blanks not
counted. -/
def infoOf (table : Table) (i : SubtreeInfo) (rename : Option String) (before : Extent) :
    NodeInfo :=
  let start := before + i.padding
  { kind := rename.getD (table.info i.symbol).name
    isName := false
    start := placeOf start
    stop := placeOf (start + i.size)
    isError := i.symbol == table.error
    isMissing := i.missing
    flagged := i.missing || i.cost > 0 }

/-- The finished nodes of a list of parts, of which the first has the given place and begins after
the given stretch. -/
def nodesOf (table : Table) (renames : List (Option String)) :
    List Subtree → Nat → Extent → List Node
  | [], _, _ => []
  | .mk i cs :: rest, place, before =>
      let shape := table.shapes.getD i.shape default
      let inner := nodesOf table shape.renames cs 0 before
      let here :=
        if shows table renames i place then
          [.mk (infoOf table i (renameOf renames i place) before)
            (markName (nameIndex table (.mk i cs)) inner)]
        else inner
      here ++ nodesOf table renames rest (if i.extra then place else place + 1)
        (before + i.padding + i.size)

def Node.ofSubtree (table : Table) : Subtree → Node
  | .mk i cs =>
      let shape := table.shapes.getD i.shape default
      .mk (infoOf table i none Extent.zero)
        (markName (nameIndex table (.mk i cs)) (nodesOf table shape.renames cs 0 Extent.zero))

end JavaOutline.Syntax
