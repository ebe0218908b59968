import JavaOutline.Automaton.Item
import Std.Data.HashMap

/-!
The canonical automaton of a grammar.

A state is a set of items, each with the tokens that may follow once it is complete. States are
discovered breadth first; each one gets its actions by token and its targets by construct. Where
several actions compete, precedence and associativity decide, and what they leave undecided stays
as alternatives to be explored in parallel.
-/

namespace JavaOutline.Automaton

open Grammar

inductive Action where
  /-- Read the token and go to a state. A repetition merely continues a list whose other reading,
  the joining of two shorter lists, is preferred. -/
  | shift (target : Nat) (repetition : Bool)
  /-- Read the token and stay. -/
  | shiftExtra
  /-- Complete a production. -/
  | reduce (reduction : Nat)
  /-- The text is complete. -/
  | accept
  /-- The token is known, though nothing can be done with it here. -/
  | recover
  deriving DecidableEq, Repr, Inhabited

/-- A state of the automaton. Tokens and constructs are in ascending order. -/
structure State where
  actions : Array (Nat × List Action)
  targets : Array (Nat × Nat)
  /-- States whose items agree, apart from what may follow, have the same core. -/
  core : Nat
  deriving Inhabited

def State.tokens (s : State) : TokenSet :=
  s.actions.foldl (fun set (t, _) => set ||| (1 <<< t)) 0

namespace Draft

structure SetKey where
  bits : TokenSet
  deriving DecidableEq

/-- The lowest 62 bits, which fit a machine word. -/
def SetKey.word (bits : Nat) : Nat := bits &&& ((1 <<< 62) - 1)

instance : Hashable SetKey where
  hash k := mixHash (hash (SetKey.word k.bits)) (mixHash (hash (SetKey.word (k.bits >>> 62)))
    (hash (k.bits >>> 124)))

/-- Token sets by number, so that items with their followers are plain numbers. -/
structure SetPool where
  sets : Array TokenSet
  index : Std.HashMap SetKey Nat

def SetPool.add (pool : SetPool) (set : TokenSet) : SetPool × Nat :=
  match pool.index[(⟨set⟩ : SetKey)]? with
  | some i => (pool, i)
  | none =>
      let n := pool.sets.size
      (⟨pool.sets.push set, pool.index.insert ⟨set⟩ n⟩, n)

def setLimit : Nat := 1048576

/-- An item class together with the number of the set of tokens that may follow it. -/
def pack (item followers : Nat) : Nat := item * setLimit + followers

/-- A set of items with followers, in ascending order. -/
abbrev Kernel := Array Nat

/-- Put an item into an ascending kernel, joining its followers with those already there. The
search runs from position `i` downwards. -/
def Kernel.insertFrom (pool : SetPool) (kernel : Kernel) (item followers : Nat) :
    Nat → SetPool × Kernel
  | 0 => (pool, kernel.insertIdxIfInBounds 0 (pack item followers))
  | i + 1 =>
      let entry := kernel.getD i 0
      let other := entry / setLimit
      if other < item then (pool, kernel.insertIdxIfInBounds (i + 1) (pack item followers))
      else if other == item then
        let present := entry % setLimit
        if present == followers then (pool, kernel)
        else
          let (pool, joined) :=
            pool.add (pool.sets.getD present 0 ||| pool.sets.getD followers 0)
          (pool, kernel.setIfInBounds i (pack item joined))
      else kernel.insertFrom pool item followers i

/-- The reductions competing on one token: the level they share and the associativities among
them. -/
structure Rivalry where
  level : Int := 0
  left : Bool := false
  right : Bool := false
  unmarked : Bool := false
  deriving Inhabited

def Rivalry.note (r : Rivalry) (item : ItemInfo) : Rivalry :=
  match item.assoc with
  | some .left => { r with level := item.level, left := true }
  | some .right => { r with level := item.level, right := true }
  | none => { r with level := item.level, unmarked := true }

/-- Work in progress on one state. -/
structure Cell where
  actions : List Action := []
  rivalry : Rivalry := {}
  deriving Inhabited

/-- Offer a reduction on a token: a higher level drives out what is there, an equal one joins it
and a lower one is dropped. -/
def Cell.offer (c : Cell) (item : ItemInfo) (action : Action) : Cell :=
  if c.actions.isEmpty then ⟨[action], c.rivalry.note item⟩
  else if item.level > c.rivalry.level then ⟨[action], ({} : Rivalry).note item⟩
  else if item.level == c.rivalry.level then
    ⟨c.actions ++ [action], c.rivalry.note item⟩
  else c

/-- Decide between reading a token and the reductions that compete with it. `reading` holds the
items that would read on, `done` those that are complete. -/
def resolve (table : ItemTable) (reading done : List ItemInfo) (cell : Cell) (target : Nat) :
    List Action :=
  let rivals := reading ++ done
  let sameRepeat :=
    match rivals with
    | [] => false
    | r :: _ => table.repeats.getD r.construct false &&
        rivals.all fun x => x.construct == r.construct
  if sameRepeat then cell.actions ++ [.shift target true]
  else
    let less := reading.any fun x => x.level < cell.rivalry.level
    let more := reading.any fun x => x.level > cell.rivalry.level
    if more && !less then [.shift target false]
    else if less && !more then cell.actions
    else if less && more then cell.actions ++ [.shift target false]
    else
      match cell.rivalry.left, cell.rivalry.unmarked, cell.rivalry.right with
      | true, false, false => cell.actions
      | false, false, true => [.shift target false]
      | _, _, _ => cell.actions ++ [.shift target false]

structure Builder where
  pool : SetPool
  kernels : Array Kernel
  index : Std.HashMap Kernel Nat
  cores : Std.HashMap Kernel Nat
  states : Array State

def Builder.stateOf (b : Builder) (kernel : Kernel) : Builder × Nat :=
  match b.index[kernel]? with
  | some i => (b, i)
  | none =>
      let n := b.kernels.size
      ({ b with kernels := b.kernels.push kernel, index := b.index.insert kernel n }, n)

def Builder.coreOf (b : Builder) (kernel : Kernel) : Builder × Nat :=
  let core := kernel.map (· / setLimit)
  match b.cores[core]? with
  | some i => (b, i)
  | none =>
      let n := b.cores.size
      ({ b with cores := b.cores.insert core n }, n)

/-- The tokens that may follow each construct that can begin in a state, by construct; zero where
a construct cannot begin. -/
def openFollowers (table : ItemTable) (pool : SetPool) (kernel : Kernel) : Array TokenSet :=
  kernel.foldl
    (fun acc entry =>
      let item := table.items.getD (entry / setLimit) default
      match item.next with
      | none => acc
      | some s =>
          if s < table.tokenCount then acc
          else
            let follow := match item.follow with
              | some set => set
              | none => pool.sets.getD (entry % setLimit) 0
            (table.openings.getD (s - table.tokenCount) #[]).foldl
              (fun acc o => acc.modify o.construct fun set =>
                if o.inherits then set ||| o.follow ||| follow else set ||| o.follow)
              acc)
    (Array.replicate table.constructCount 0)

/-- The kernels reached from a state, by symbol code. -/
def successors (table : ItemTable) (pool : SetPool) (kernel : Kernel)
    (followers : Array TokenSet) (blank : Array Kernel) : SetPool × Array Kernel :=
  let (pool, reached) := kernel.foldl
    (fun (acc : SetPool × Array Kernel) entry =>
      let (pool, reached) := acc
      let item := table.items.getD (entry / setLimit) default
      match item.next with
      | none => (pool, reached)
      | some s =>
          let old := reached.getD s #[]
          let reached := reached.setIfInBounds s #[]
          let (pool, new) :=
            Kernel.insertFrom pool old item.advanced (entry % setLimit) old.size
          (pool, reached.setIfInBounds s new))
    (pool, blank)
  (Nat.fold table.constructCount
    (fun v _ (acc : SetPool × Array Kernel) =>
      let set := followers.getD v 0
      if set == 0 then acc
      else
        let (pool, reached) := acc
        let (pool, set) := pool.add set
        (table.starters.getD v #[]).foldl
          (fun (acc : SetPool × Array Kernel) (s, item) =>
            let (pool, reached) := acc
            let old := reached.getD s #[]
            let reached := reached.setIfInBounds s #[]
            let (pool, new) := Kernel.insertFrom pool old item set old.size
            (pool, reached.setIfInBounds s new))
          (pool, reached))
    (pool, reached))

def offerAll (table : ItemTable) (item : ItemInfo) (set : TokenSet) (cells : Array Cell) :
    Array Cell :=
  let action :=
    if item.construct == table.constructCount then Action.accept else .reduce item.reduction
  Nat.fold (table.tokenCount + 1)
    (fun t _ cells =>
      if set.testBit t then cells.modify t fun c => c.offer item action else cells)
    cells

/-- Process one state: find its successors and settle its actions. -/
def expand (table : ItemTable) (extras : List Nat) (b : Builder) (i : Nat) : Builder :=
  let kernel := b.kernels.getD i #[]
  let (b, core) := b.coreOf kernel
  let followers := openFollowers table b.pool kernel
  let (pool, reached) := successors table b.pool kernel followers
    (Array.replicate (table.tokenCount + table.constructCount) #[])
  let b := { b with pool }
  -- Complete items, shortest first.
  let blanksDone := (List.range table.constructCount).filterMap fun v =>
    let set := followers.getD v 0
    if set == 0 then none
    else (table.blanks.getD v none).map fun item => (table.items.getD item default, set)
  let kernelItems := kernel.toList.map fun entry =>
    (table.items.getD (entry / setLimit) default, b.pool.sets.getD (entry % setLimit) 0)
  let done := blanksDone ++ kernelItems.filter fun (item, _) => item.next.isNone
  let cells := done.foldl (fun cells (item, set) => offerAll table item set cells)
    (Array.replicate (table.tokenCount + 1) {})
  -- Tokens to read and constructs to go on with, in ascending order.
  let (b, actions) := Nat.fold (table.tokenCount + 1)
    (fun t _ (acc : Builder × Array (Nat × List Action)) =>
      let (b, actions) := acc
      let cell := cells.getD t {}
      let next := if t < table.tokenCount then reached.getD t #[] else #[]
      if next.isEmpty then
        if cell.actions.isEmpty then
          if extras.contains t then (b, actions.push (t, [.shiftExtra])) else (b, actions)
        else (b, actions.push (t, cell.actions))
      else
        let (b, target) := b.stateOf next
        if cell.actions.isEmpty then (b, actions.push (t, [.shift target false]))
        else
          let reading := kernelItems.filterMap fun (item, _) =>
            match item.next with
            | none => none
            | some s =>
                if item.started && (table.first.getD s 0).testBit t then some item else none
          let complete := done.filterMap fun (item, set) =>
            if set.testBit t then some item else none
          (b, actions.push (t, resolve table reading complete cell target)))
    (b, #[])
  let (b, targets) := Nat.fold table.constructCount
    (fun v _ (acc : Builder × Array (Nat × Nat)) =>
      let next := reached.getD (table.tokenCount + v) #[]
      if next.isEmpty then acc
      else
        let (b, targets) := acc
        let (b, target) := b.stateOf next
        (b, targets.push (v, target)))
    (b, #[])
  { b with states := b.states.push ⟨actions, targets, core⟩ }

def expandAll (table : ItemTable) (extras : List Nat) : Nat → Nat → Builder → Builder
  | 0, _, b => b
  | budget + 1, i, b =>
      if i < b.kernels.size then expandAll table extras budget (i + 1) (expand table extras b i)
      else b

def stateLimit : Nat := 200000

/-- The canonical automaton. State 0 is the one entered after an error, state 1 the start. -/
def build (table : ItemTable) (extras : List Nat) : Array State :=
  let (pool, ending) := SetPool.add ⟨#[], {}⟩ (1 <<< table.tokenCount)
  let start : Kernel := #[pack table.start ending]
  let b : Builder :=
    { pool
      kernels := #[#[], start]
      index := ({} : Std.HashMap Kernel Nat).insert #[] 0 |>.insert start 1
      cores := {}
      states := #[] }
  (expandAll table extras stateLimit 0 b).states

end Draft

end JavaOutline.Automaton
