import JavaOutline.Parsing.Subtree

/-!
The stack of a parser that follows several readings at once.

Readings share what they have in common: the stack is a graph whose nodes are parser states at
positions, and each link to an earlier node carries the subtree between the two. A reading is a
`Head`, which points to a node. Heads that reach the same state at the same place are joined.
-/

namespace JavaOutline.Parsing

open Automaton

/-- A link to an earlier node. Where recovery set in the link carries no subtree. -/
structure Link where
  node : Nat
  tree : Option Subtree
  deriving Inhabited

/-- The preference that a link adds. -/
def Link.dynamic (l : Link) : Int :=
  match l.tree with
  | some t => t.info.dynamic
  | none => 0

/-- A state reached at a position, with sums over the cheapest way there. -/
structure StackNode where
  state : Nat
  position : Extent
  links : List Link
  cost : Nat
  nodeCount : Nat
  dynamic : Int
  deriving Inhabited

/-- An earlier state to which recovery may return. -/
structure ReturnPoint where
  position : Extent
  depth : Nat
  state : Nat
  deriving Inhabited

/-- Whether a reading goes on, waits with a token it cannot use, or is given up. -/
inductive Status where
  | active
  | paused (lookahead : Subtree)
  | halted
  deriving Inhabited

/-- One of the readings followed. -/
structure Head where
  node : Nat
  status : Status
  nodeCountAtError : Nat
  returnPoints : Option (List ReturnPoint)
  deriving Inhabited

/-- All readings with the graph they share. -/
structure Stack where
  nodes : Array StackNode
  heads : Array Head
  deriving Inhabited

def linkLimit : Nat := 8

/-- How many paths are followed at once when subtrees are taken off. -/
def pathLimit : Nat := 64

namespace Stack

def initial : Stack :=
  ⟨#[⟨Table.startState, Extent.zero, [], 0, 0, 0⟩], #[⟨0, .active, 0, none⟩]⟩

def head (s : Stack) (v : Nat) : Head := s.heads.getD v default

def nodeOf (s : Stack) (n : Nat) : StackNode := s.nodes.getD n default

def top (s : Stack) (v : Nat) : StackNode := s.nodeOf (s.head v).node

def state (s : Stack) (v : Nat) : Nat := (s.top v).state

def position (s : Stack) (v : Nat) : Extent := (s.top v).position

def isActive (s : Stack) (v : Nat) : Bool :=
  match s.heads[v]?.map Head.status with
  | some .active => true
  | _ => false

def isPaused (s : Stack) (v : Nat) : Bool :=
  match (s.head v).status with
  | .paused _ => true
  | _ => false

def isHalted (s : Stack) (v : Nat) : Bool :=
  match (s.head v).status with
  | .halted => true
  | _ => false

def setStatus (s : Stack) (v : Nat) (status : Status) : Stack :=
  { s with heads := s.heads.modify v fun h => { h with status } }

def halt (s : Stack) (v : Nat) : Stack := s.setStatus v .halted

/-- Let a reading wait with a token it cannot use. -/
def pause (s : Stack) (v : Nat) (lookahead : Subtree) : Stack :=
  let count := (s.top v).nodeCount
  { s with heads := s.heads.modify v fun h =>
      { h with status := .paused lookahead, nodeCountAtError := count } }

def remove (s : Stack) (v : Nat) : Stack := { s with heads := s.heads.eraseIdxIfInBounds v }

def copy (s : Stack) (v : Nat) : Stack × Nat :=
  ({ s with heads := s.heads.push { s.head v with returnPoints := none } }, s.heads.size)

/-- Let reading `v` take the place of reading `w`, which keeps its points of return if `v` has
none. -/
def replace (s : Stack) (v w : Nat) : Stack :=
  if v == w then s
  else
    let source := s.head v
    let target := s.head w
    let source := { source with returnPoints := source.returnPoints.or target.returnPoints }
    { s with heads := (s.heads.setIfInBounds w source).eraseIdxIfInBounds v }

def swap (s : Stack) (v w : Nat) : Stack :=
  { s with heads := s.heads.swapIfInBounds v w }

def cost (s : Stack) (v : Nat) : Nat :=
  let n := s.top v
  let recovering := n.state == Table.errorState &&
    (match n.links with
     | l :: _ => l.tree.isNone
     | [] => true)
  n.cost + (if s.isPaused v || recovering then costPerRecovery else 0)

/-- Never let the count at the last error exceed the current count. -/
def settleCount (s : Stack) (v : Nat) : Stack :=
  let count := (s.top v).nodeCount
  if count < (s.head v).nodeCountAtError then
    { s with heads := s.heads.modify v fun h => { h with nodeCountAtError := count } }
  else s

/-- How many nodes a reading has read since its last error. -/
def countSinceError (s : Stack) (v : Nat) : Nat :=
  (s.top v).nodeCount - (s.head v).nodeCountAtError

/-- Put a subtree, or the mark of an error, on top of a reading and go to a state. -/
def push (table : Table) (s : Stack) (v : Nat) (tree : Option Subtree) (state : Nat) : Stack :=
  let previous := (s.head v).node
  let p := s.nodeOf previous
  let link : Link := ⟨previous, tree⟩
  let node : StackNode :=
    match tree with
    | none => { p with state, links := [link] }
    | some t =>
        { state
          links := [link]
          position := p.position + t.total
          cost := p.cost + t.cost
          nodeCount := p.nodeCount + t.nodeCount table
          dynamic := p.dynamic + t.info.dynamic }
  let new := s.nodes.size
  { nodes := s.nodes.push node
    heads := s.heads.modify v fun h =>
      { h with
        node := new
        nodeCountAtError := if tree.isNone then node.nodeCount else h.nodeCountAtError } }

/-- Whether two subtrees between the same places need not be kept apart. -/
def interchangeable : Option Subtree → Option Subtree → Bool
  | none, none => true
  | some a, some b =>
      a.symbol == b.symbol &&
        ((a.cost > 0 && b.cost > 0) ||
          (a.info.padding.bytes == b.info.padding.bytes &&
            a.info.size.bytes == b.info.size.bytes &&
            a.info.childCount == b.info.childCount && a.info.extra == b.info.extra))
  | _, _ => false

/-- What to do with a new link, given the links already there. -/
inductive LinkFit where
  /-- Another link leads to the same node; it is replaced if the new one is preferred. -/
  | same (index : Nat)
  /-- Another link leads to a node that can be joined with the new link's node. -/
  | joinable (index : Nat)
  | new

/-- Compare a new link with the links already there, from number `i` on. -/
def linkFit (s : Stack) (link : Link) : List Link → Nat → LinkFit
  | [], _ => .new
  | l :: rest, i =>
      if interchangeable l.tree link.tree then
        if l.node == link.node then .same i
        else
          let a := s.nodeOf l.node
          let b := s.nodeOf link.node
          if a.state == b.state && a.position.bytes == b.position.bytes && a.cost == b.cost then
            .joinable i
          else linkFit s link rest (i + 1)
      else linkFit s link rest (i + 1)

/-- Add a link to a node, joining earlier nodes where possible. The budget bounds the depth. -/
def addLink (table : Table) : Nat → Stack → Nat → Link → Stack
  | 0, s, _, _ => s
  | budget + 1, s, n, link =>
      if link.node == n then s
      else
        let node := s.nodeOf n
        match linkFit s link node.links 0 with
        | .same i =>
            let existing := node.links.getD i default
            if link.dynamic > existing.dynamic then
              let changed :=
                { node with
                  links := node.links.set i { existing with tree := link.tree }
                  dynamic := (s.nodeOf link.node).dynamic + link.dynamic }
              { s with nodes := s.nodes.setIfInBounds n changed }
            else s
        | .joinable i =>
            let existing := node.links.getD i default
            let s := (s.nodeOf link.node).links.foldl
              (fun s l => addLink table budget s existing.node l) s
            let dynamic := (s.nodeOf link.node).dynamic + link.dynamic
            { s with nodes := s.nodes.modify n fun x =>
                { x with dynamic := max x.dynamic dynamic } }
        | .new =>
            if node.links.length == linkLimit then s
            else
              let earlier := s.nodeOf link.node
              let count := earlier.nodeCount +
                (match link.tree with
                 | some t => t.nodeCount table
                 | none => 0)
              let changed :=
                { node with
                  links := node.links ++ [link]
                  nodeCount := max node.nodeCount count
                  dynamic := max node.dynamic (earlier.dynamic + link.dynamic) }
              { s with nodes := s.nodes.setIfInBounds n changed }

def canMerge (s : Stack) (v w : Nat) : Bool :=
  let a := s.top v
  let b := s.top w
  s.isActive v && s.isActive w && a.state == b.state && a.position.bytes == b.position.bytes &&
    a.cost == b.cost

/-- Join reading `w` into reading `v` if they have come to the same point. -/
def merge? (table : Table) (s : Stack) (v w : Nat) : Option Stack :=
  if s.canMerge v w then
    let target := (s.head v).node
    let s := (s.top w).links.foldl (fun s l => addLink table s.nodes.size s target l) s
    let joined := s.nodeOf target
    let s :=
      if joined.state == Table.errorState then
        { s with heads := s.heads.modify v fun h =>
            { h with nodeCountAtError := joined.nodeCount } }
      else s
    some (s.remove w)
  else none

/-- A path down the graph: where it has come to, the subtrees it has passed, the lowest first, and
how many of them are no extras. -/
structure Path where
  node : Nat
  trees : List Subtree
  count : Nat

def Path.along (p : Path) (l : Link) : Path :=
  match l.tree with
  | some t =>
      { node := l.node
        trees := t :: p.trees
        count := if t.info.extra then p.count else p.count + 1 }
  | none => { p with node := l.node, count := p.count + 1 }

/-- What to do at the end of a path. -/
structure Decision where
  take : Bool
  stop : Bool

/-- Progress of a search over paths: those still open, those taken and the search's own state. -/
structure Search (σ : Type) where
  pending : List Path
  taken : List Path
  memory : σ

/-- Let every open path take one step. New branches come after all paths, and no more than
`pathLimit` paths are open at once; `width` is their present number. -/
def searchRound {σ : Type} (s : Stack) (decide : σ → Path → σ × Decision) :
    List Path → Nat → List Path → List Path → List Path → σ → Search σ
  | [], _, advanced, branches, taken, memory =>
      ⟨advanced.reverse ++ branches.reverse, taken, memory⟩
  | p :: rest, width, advanced, branches, taken, memory =>
      let (memory, d) := decide memory p
      let links := (s.nodeOf p.node).links
      let taken := if d.take then p :: taken else taken
      match links with
      | [] => searchRound s decide rest (width - 1) advanced branches taken memory
      | first :: others =>
          if d.stop then searchRound s decide rest (width - 1) advanced branches taken memory
          else
            let added := others.take (pathLimit - width)
            searchRound s decide rest (width + added.length) (p.along first :: advanced)
              ((added.map p.along).reverse ++ branches) taken memory

/-- Follow all paths until none is open, in at most `budget` rounds. -/
def search {σ : Type} (s : Stack) (decide : σ → Path → σ × Decision) :
    Nat → List Path → List Path → σ → List Path × σ
  | 0, _, taken, memory => (taken.reverse, memory)
  | _ + 1, [], taken, memory => (taken.reverse, memory)
  | budget + 1, p :: rest, taken, memory =>
      let r := searchRound s decide (p :: rest) (rest.length + 1) [] [] taken memory
      search s decide budget r.pending r.taken r.memory

def searchFrom {σ : Type} (s : Stack) (v : Nat) (decide : σ → Path → σ × Decision) (memory : σ) :
    List Path × σ :=
  search s decide (s.nodes.size + 1) [⟨(s.head v).node, [], 0⟩] [] memory

/-- The subtrees taken off along one path, and the reading that now ends where the path ends. -/
structure Slice where
  version : Nat
  trees : List Subtree
  deriving Inhabited

/-- Insert a slice behind the last slice of its version. -/
def insertSlice (slice : Slice) (slices : List Slice) : List Slice :=
  match slices with
  | [] => [slice]
  | x :: rest =>
      if x.version == slice.version && rest.all fun y => y.version != slice.version then
        x :: slice :: rest
      else x :: insertSlice slice rest

/-- Turn the taken paths into slices. Paths that end at one node share a reading; otherwise a new
reading is made. -/
def slicesOf (parent : Nat) : List Path → Stack → List Slice → Stack × List Slice
  | [], s, slices => (s, slices)
  | p :: rest, s, slices =>
      match slices.reverse.find? (fun x => (s.head x.version).node == p.node) with
      | some x => slicesOf parent rest s (insertSlice ⟨x.version, p.trees⟩ slices)
      | none =>
          let v := s.heads.size
          let h : Head := ⟨p.node, .active, (s.head parent).nodeCountAtError, none⟩
          slicesOf parent rest { s with heads := s.heads.push h } (slices ++ [⟨v, p.trees⟩])

/-- Take off a number of subtrees, extras not counted, along every path. -/
def popCount (s : Stack) (v count : Nat) : Stack × List Slice :=
  let (paths, _) := s.searchFrom v
    (fun (_ : Unit) p => ((), ⟨p.count == count, p.count == count⟩)) ()
  slicesOf v paths s []

def popAll (s : Stack) (v : Nat) : Stack × List Slice :=
  let (paths, _) := s.searchFrom v
    (fun (_ : Unit) p => ((), ⟨(s.nodeOf p.node).links.isEmpty, false⟩)) ()
  slicesOf v paths s []

/-- Take off the erroneous stretch on top of a reading, if there is one. -/
def popError (table : Table) (s : Stack) (v : Nat) : Stack × List Subtree :=
  let isErr (l : Link) : Bool :=
    match l.tree with
    | some t => t.isError table
    | none => false
  if (s.top v).links.any isErr then
    let (paths, _) := s.searchFrom v
      (fun (found : Bool) p =>
        match p.trees.getLast? with
        | none => (found, ⟨false, false⟩)
        | some t =>
            if !found && t.isError table then (true, ⟨true, true⟩) else (found, ⟨false, true⟩))
      false
    match slicesOf v paths s [] with
    | (s', slice :: _) => (s'.replace slice.version v, slice.trees)
    | (_, []) => (s, [])
  else (s, [])

/-- Note the states below the top of a reading, down to a depth, as points of return. -/
def recordReturnPoints (s : Stack) (v maxDepth : Nat) : Stack :=
  let (_, points) := s.searchFrom v
    (fun (points : List ReturnPoint) p =>
      let n := s.nodeOf p.node
      if p.count > maxDepth then (points, ⟨false, true⟩)
      else if (points.takeWhile fun e => e.depth ≥ p.count).any fun e =>
          e.depth == p.count && e.state == n.state then
        (points, ⟨false, false⟩)
      else (⟨n.position, p.count, n.state⟩ :: points, ⟨false, false⟩))
    []
  { s with heads := s.heads.modify v fun h => { h with returnPoints := some points.reverse } }

end Stack

end JavaOutline.Parsing
