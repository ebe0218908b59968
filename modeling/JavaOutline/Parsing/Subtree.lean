import JavaOutline.Parsing.Source

/-!
Trees under construction.

A `Subtree` knows its extent, with the blanks before it kept apart, and sums over its parts that
decide between readings: how much text had to be skipped and how strongly the grammar prefers it.
-/

namespace JavaOutline.Parsing

open Automaton

def costPerRecovery : Nat := 500

/-- The price of a token that is assumed though it is not in the text. -/
def costPerMissing : Nat := 110

def costPerSkippedTree : Nat := 100

def costPerSkippedByte : Nat := 1

def costPerSkippedLine : Nat := 30

structure SubtreeInfo where
  symbol : Nat
  /-- The blanks before the subtree. -/
  padding : Extent
  size : Extent
  /-- A comment, or another part that may stand anywhere. -/
  extra : Bool := false
  /-- The token is not in the text. -/
  missing : Bool := false
  /-- The text of the token begins with a keyword. -/
  keyword : Bool := false
  /-- The state for which the token was scanned. -/
  state : Nat := 0
  shape : Nat := 0
  cost : Nat := 0
  dynamic : Int := 0
  /-- Visible nodes below this one. -/
  visibleBelow : Nat := 0
  /-- Visible children, where those of hidden children count. -/
  visibleChildren : Nat := 0
  childCount : Nat := 0
  deriving Inhabited

/-- A tree under construction. -/
inductive Subtree where
  | mk (info : SubtreeInfo) (children : List Subtree)

instance : Inhabited Subtree := ⟨.mk default []⟩

namespace Subtree

def info : Subtree → SubtreeInfo
  | .mk i _ => i

def children : Subtree → List Subtree
  | .mk _ c => c

def symbol (t : Subtree) : Nat := t.info.symbol

/-- The extent with the blanks before it. -/
def total (t : Subtree) : Extent := t.info.padding + t.info.size

/-- The price of what was skipped or assumed. -/
def cost (t : Subtree) : Nat :=
  if t.info.missing then costPerMissing + costPerRecovery else t.info.cost

/-- Mark a subtree as one that may stand anywhere, or unmark it. -/
def withExtra (extra : Bool) : Subtree → Subtree
  | .mk i c => .mk { i with extra } c

def withSymbol (symbol : Nat) : Subtree → Subtree
  | .mk i c => .mk { i with symbol } c

def addDynamic (d : Int) : Subtree → Subtree
  | .mk i c => .mk { i with dynamic := i.dynamic + d } c

/-- Whether the subtree is a stretch of text that could not be understood. -/
def isError (table : Table) (t : Subtree) : Bool := t.symbol == table.error

/-- Add what a child contributes to its parent. The place counts the children that are no
extras. -/
def addChild (table : Table) (renames : List (Option String)) (parent : SubtreeInfo) (place : Nat)
    (child : Subtree) : SubtreeInfo :=
  let c := child.info
  let first := parent.childCount == 0
  let shown := (table.info c.symbol).visible
  let skipping := parent.symbol == table.error || parent.symbol == table.errorRun
  let skippedCost :=
    if skipping && !c.extra && !(c.symbol == table.error && c.childCount == 0) then
      if shown then costPerSkippedTree
      else if c.childCount > 0 then costPerSkippedTree * c.visibleChildren
      else 0
    else 0
  let renamed := !c.extra && c.symbol != Table.finish && (renames.getD place none).isSome
  let counts := renamed || shown
  { parent with
    padding := if first then c.padding else parent.padding
    size := if first then c.size else parent.size + child.total
    cost := parent.cost + (if c.symbol == table.errorRun then 0 else child.cost) + skippedCost
    dynamic := parent.dynamic + c.dynamic
    visibleBelow := parent.visibleBelow + c.visibleBelow + (if counts then 1 else 0)
    visibleChildren := parent.visibleChildren +
      (if counts then 1 else if c.childCount > 0 then c.visibleChildren else 0)
    childCount := parent.childCount + 1 }

def addChildren (table : Table) (renames : List (Option String)) :
    List Subtree → Nat → SubtreeInfo → SubtreeInfo
  | [], _, parent => parent
  | c :: rest, place, parent =>
      addChildren table renames rest (if c.info.extra then place else place + 1)
        (addChild table renames parent place c)

def node (table : Table) (symbol : Nat) (children : List Subtree) (shape : Nat) : Subtree :=
  let renames := (table.shapes.getD shape default).renames
  let info := addChildren table renames children 0
    { symbol, shape, padding := Extent.zero, size := Extent.zero }
  let info :=
    if symbol == table.error || symbol == table.errorRun then
      { info with cost := info.cost + costPerRecovery + costPerSkippedByte * info.size.bytes +
          costPerSkippedLine * info.size.row }
    else info
  .mk info children

def leaf (symbol : Nat) (padding size : Extent) (state : Nat) (keyword : Bool) : Subtree :=
  .mk { symbol, padding, size, state, keyword, extra := symbol == Table.finish } []

/-- A token that is assumed at the end of what was read. -/
def missingLeaf (symbol : Nat) : Subtree :=
  .mk { symbol, padding := Extent.zero, size := Extent.zero, missing := true } []

/-- A stretch of text of which nothing was understood. -/
def unread (table : Table) (size : Extent) : Subtree :=
  .mk { symbol := table.error, padding := Extent.zero, size,
        cost := costPerRecovery + costPerSkippedByte * size.bytes + costPerSkippedLine * size.row }
    []

/-- How much a subtree adds to the count of nodes read. -/
def nodeCount (table : Table) (t : Subtree) : Nat :=
  t.info.visibleBelow + (if (table.info t.symbol).visible then 1 else 0) +
    (if t.symbol == table.errorRun then 1 else 0)

/-- Split off the extras at the end of a list of subtrees. -/
def splitTrailingExtras (trees : List Subtree) : List Subtree × List Subtree :=
  let back := trees.reverse
  ((back.dropWhile fun t => t.info.extra).reverse, (back.takeWhile fun t => t.info.extra).reverse)

mutual

/-- A fixed order on trees: by symbol, then by number of children, then child by child. -/
def compare : Subtree → Subtree → Ordering
  | .mk a as, .mk b bs =>
      match Ord.compare a.symbol b.symbol with
      | .eq =>
          match Ord.compare a.childCount b.childCount with
          | .eq => compareAll as bs
          | o => o
      | o => o

/-- The order of the first children that differ. -/
def compareAll : List Subtree → List Subtree → Ordering
  | a :: as, b :: bs =>
      match compare a b with
      | .eq => compareAll as bs
      | o => o
  | _, _ => .eq

end

/-- Whether `b` is to be taken in place of `a`: less was skipped, or it is preferred more, or, if
neither was clean, it came later; otherwise the smaller one in the fixed order stays. -/
def yields (a b : Subtree) : Bool :=
  if b.cost < a.cost then true
  else if a.cost < b.cost then false
  else if b.info.dynamic > a.info.dynamic then true
  else if a.info.dynamic > b.info.dynamic then false
  else if a.cost > 0 then true
  else compare a b == .gt

end Subtree

end JavaOutline.Parsing
