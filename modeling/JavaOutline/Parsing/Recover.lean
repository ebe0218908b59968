import JavaOutline.Parsing.Reduce

/-!
Going on after an error.

When no reading can use the next token, the parser tries three things side by side: to assume a
missing token, to return to an earlier state in which the token makes sense, and to skip the
token. Whatever was skipped or assumed has a price, and the cheapest reading wins.
-/

namespace JavaOutline.Parsing

open Automaton

def returnDepth : Nat := 16

/-- A difference in price beyond which the dearer of two readings is given up; it is weighed with
the progress of the cheaper one. -/
def costGap : Nat := 18 * costPerSkippedTree

structure Parse where
  stack : Stack
  /-- The last token read, with the byte at which it was looked for. -/
  cache : Option (Nat × Subtree)
  /-- The best complete tree so far. -/
  finished : Option Subtree
  /-- How many complete trees have been found. -/
  acceptCount : Nat

structure Standing where
  cost : Nat
  nodeCount : Nat
  dynamic : Int
  inError : Bool

inductive Verdict where
  | takeLeft
  | preferLeft
  | none
  | preferRight
  | takeRight
  deriving DecidableEq

def Standing.compare (a b : Standing) : Verdict :=
  if !a.inError && b.inError then
    if a.cost < b.cost then .takeLeft else .preferLeft
  else if a.inError && !b.inError then
    if b.cost < a.cost then .takeRight else .preferRight
  else if a.cost < b.cost then
    if (b.cost - a.cost) * (1 + a.nodeCount) > costGap then .takeLeft else .preferLeft
  else if b.cost < a.cost then
    if (a.cost - b.cost) * (1 + b.nodeCount) > costGap then .takeRight else .preferRight
  else if a.dynamic > b.dynamic then .preferLeft
  else if b.dynamic > a.dynamic then .preferRight
  else .none

namespace Stack

def standing (s : Stack) (v : Nat) : Stack × Standing :=
  let s := s.settleCount v
  let paused := s.isPaused v
  (s,
    { cost := s.cost v + (if paused then costPerSkippedTree else 0)
      nodeCount := s.countSinceError v
      dynamic := (s.top v).dynamic
      inError := paused || s.state v == Table.errorState })

/-- Whether one of the readings from `i` on makes a reading with the given standing pointless. -/
def betterFrom (v : Nat) (mine : Standing) : Nat → Nat → Stack → Stack × Bool
  | 0, _, s => (s, false)
  | budget + 1, i, s =>
      if i ≥ s.heads.size then (s, false)
      else if i == v || !s.isActive i || (s.position i).bytes < (s.position v).bytes then
        betterFrom v mine budget (i + 1) s
      else
        let (s, theirs) := s.standing i
        match mine.compare theirs with
        | .takeRight => (s, true)
        | .preferRight =>
            if s.canMerge i v then (s, true) else betterFrom v mine budget (i + 1) s
        | _ => betterFrom v mine budget (i + 1) s

end Stack

namespace Parse

/-- Whether reading `v` would be pointless at the given price. -/
def betterExists (p : Parse) (v : Nat) (inError : Bool) (cost : Nat) : Parse × Bool :=
  let beaten : Bool := match p.finished with
    | some t => t.cost ≤ cost
    | none => false
  if beaten then (p, true)
  else
    let s := p.stack.settleCount v
    let mine : Standing :=
      { cost, inError, dynamic := (s.top v).dynamic, nodeCount := s.countSinceError v }
    let (s, better) := s.betterFrom v mine s.heads.size 0
    ({ p with stack := s }, better)

/-- The tree of a complete reading, to which the end of the text belongs as well: the children of
its last part that is no extra stand in that part's place. -/
def rootOf (table : Table) (trees : List Subtree) (ending : Subtree) : Option Subtree :=
  let (parts, extras) := Subtree.splitTrailingExtras trees
  match parts.getLast? with
  | none => none
  | some last =>
      some (Subtree.node table last.symbol
        (parts.dropLast ++ last.children ++ extras ++ [ending]) last.info.shape)

/-- Finish a reading at the end of the text. Some trees may close it. -/
def accept (table : Table) (p : Parse) (v : Nat) (closing : List Subtree) (ending : Subtree) :
    Parse :=
  let (s, slices) := p.stack.popAll v
  let p := slices.foldl
    (fun (p : Parse) slice =>
      match rootOf table (slice.trees ++ closing) ending with
      | none => p
      | some root =>
          let best := match p.finished with
            | none => root
            | some t => if t.yields root then root else t
          { p with finished := some best, acceptCount := p.acceptCount + 1 })
    p
  let s := match slices with
    | slice :: _ => s.remove slice.version
    | [] => s
  { p with stack := s.halt v }

/-- Turn the slices that end in the wanted state into readings that have skipped their subtrees;
the others are given up. Says whether there is one. -/
def returnSlices (table : Table) (goal : Nat) :
    List Stack.Slice → Option Nat → Stack → Stack × Bool
  | [], previous, s => (s, previous.isSome)
  | slice :: rest, previous, s =>
      if previous == some slice.version then returnSlices table goal rest previous s
      else if s.state slice.version != goal then
        returnSlices table goal rest previous (s.halt slice.version)
      else
        let (s, errors) := s.popError table slice.version
        let skipped := errors.flatMap Subtree.children ++ slice.trees
        let (skipped, extras) := Subtree.splitTrailingExtras skipped
        let s :=
          if skipped.isEmpty then s
          else s.push table slice.version
            (some ((Subtree.node table table.error skipped 0).withExtra true)) goal
        let s := s.pushAll table slice.version extras goal
        returnSlices table goal rest (some slice.version) s

/-- Return to an earlier state of a reading, skipping what was read since. -/
def returnTo (table : Table) (p : Parse) (v depth goal : Nat) : Parse × Bool :=
  let (s, slices) := p.stack.popCount v depth
  let (s, done) := returnSlices table goal slices none s
  ({ p with stack := s }, done)

/-- Try the points of return from the nearest on. `count` is the number of readings there were,
`progress` whether anything was skipped already, and `cost` the price so far. -/
def tryReturns (table : Table) (v : Nat) (lookahead : Subtree) (count : Nat) (progress : Bool)
    (cost : Nat) : List ReturnPoint → Parse → Parse × Bool
  | [], p => (p, false)
  | e :: rest, p =>
      let position := p.stack.position v
      if e.state == Table.errorState || e.position.bytes == position.bytes then
        tryReturns table v lookahead count progress cost rest p
      else
        let redundant := (List.range count).any fun j =>
          p.stack.state j == e.state && (p.stack.position j).bytes == position.bytes
        if redundant then tryReturns table v lookahead count progress cost rest p
        else
          let newCost := cost + e.depth * costPerSkippedTree +
            (position.bytes - e.position.bytes) * costPerSkippedByte +
            (position.row - e.position.row) * costPerSkippedLine
          let (p, better) := p.betterExists v false newCost
          if better then (p, false)
          else if table.accepts e.state lookahead.symbol then
            let depth := if progress then e.depth + 1 else e.depth
            let (p, done) := p.returnTo table v depth e.state
            if done then (p, true)
            else tryReturns table v lookahead count progress cost rest p
          else tryReturns table v lookahead count progress cost rest p

/-- Try all points of return of a reading. Where no token could be read there is none that could be
used. -/
def returnAnywhere (table : Table) (v : Nat) (lookahead : Subtree) (count : Nat) (progress : Bool)
    (cost : Nat) (p : Parse) : Parse × Bool :=
  match (p.stack.head v).returnPoints with
  | some points =>
      if lookahead.isError table then (p, false)
      else tryReturns table v lookahead count progress cost points p
  | none => (p, false)

def dropInactive : Nat → Nat → Stack → Stack
  | 0, _, s => s
  | budget + 1, i, s =>
      if i ≥ s.heads.size then s
      else if s.isActive i then dropInactive budget (i + 1) s
      else dropInactive budget i (s.remove i)

/-- Skip a token: it joins the run of skipped tokens on top of the reading. -/
def skip (table : Table) (p : Parse) (v : Nat) (lookahead : Subtree) (joinRun : Bool) : Parse :=
  let isExtra := match (table.actions Table.startState lookahead.symbol).getLast? with
    | some .shiftExtra => true
    | _ => false
  let lookahead := if isExtra then lookahead.withExtra true else lookahead
  let run := Subtree.node table table.errorRun [lookahead] 0
  let (s, run) :=
    if joinRun then
      match p.stack.popCount v 1 with
      | (s, slice :: _) =>
          let s := { s with heads := s.heads.take (slice.version + 1) }
          (s.replace slice.version v,
            Subtree.node table table.errorRun (slice.trees ++ [run]) 0)
      | (s, []) => (s, run)
    else (p.stack, run)
  { p with stack := s.push table v (some run) Table.errorState }

/-- Go on with a token in the error state: return to an earlier state that can use it, and skip
it as well unless that is pointless. -/
def recover (table : Table) (p : Parse) (v : Nat) (lookahead : Subtree) : Parse :=
  let count := p.stack.heads.size
  let s := p.stack.settleCount v
  let p := { p with stack := s }
  let progress := s.countSinceError v > 0
  let cost := s.cost v
  let (p, returned) := returnAnywhere table v lookahead count progress cost p
  let p := { p with stack := dropInactive (2 * p.stack.heads.size + 2) count p.stack }
  if lookahead.symbol == Table.finish then
    accept table p v [Subtree.node table table.error [] 0] lookahead
  else if returned && p.stack.heads.size > versionLimit then
    { p with stack := p.stack.halt v }
  else
    let total := lookahead.total
    let newCost := cost + costPerSkippedTree + total.bytes * costPerSkippedByte +
      total.row * costPerSkippedLine
    let (p, better) := p.betterExists v false newCost
    if better then { p with stack := p.stack.halt v }
    else skip table p v lookahead progress

/-- Assume the first token that lets reading `v` go on to the lookahead; says whether there was
one. -/
def assumeMissing (table : Table) (v : Nat) (lookahead : Nat) :
    List Nat → Stack → Stack × Bool
  | [], s => (s, false)
  | token :: rest, s =>
      let state := s.state v
      let next := table.next state token
      if next == Table.errorState || next == state || !table.reducesOn next lookahead then
        assumeMissing table v lookahead rest s
      else
        let (s, w) := s.copy v
        let s := s.push table w (some (Subtree.missingLeaf token)) next
        let (s, found) := s.reduceAll table w lookahead
        if found then (s, true) else assumeMissing table v lookahead rest s

/-- Mark the error on every reading that came out of the failed one, `v` first and then those from
`first` up to `stop`, assuming a missing token for the first one for which that helps. -/
def markErrors (table : Table) (lookahead origin first stop : Nat) :
    Nat → Nat → Bool → Stack → Stack
  | 0, _, _, s => s
  | budget + 1, v, assumed, s =>
      if v ≥ stop then s
      else
        let (s, assumed) :=
          if assumed then (s, true)
          else assumeMissing table v lookahead table.assumable s
        let s := s.push table v none Table.errorState
        markErrors table lookahead origin first stop budget (if v == origin then first else v + 1)
          assumed s

/-- Join the readings that came out of the failed one into it. -/
def joinErrors (table : Table) (v first : Nat) : Nat → Stack → Stack
  | 0, s => s
  | n + 1, s =>
      match s.merge? table v first with
      | some merged => joinErrors table v first n merged
      | none => joinErrors table v first n s

/-- Start recovery for a reading that cannot use a token. -/
def handleError (table : Table) (p : Parse) (v : Nat) (lookahead : Subtree) : Parse :=
  let first := p.stack.heads.size
  let (s, _) := p.stack.reduceAll table v 0
  let stop := s.heads.size
  let s := markErrors table lookahead.symbol v first stop (stop + 1) v false s
  let s := joinErrors table v first (stop - first) s
  let s := s.recordReturnPoints v returnDepth
  recover table { p with stack := s } v lookahead

end Parse

end JavaOutline.Parsing
