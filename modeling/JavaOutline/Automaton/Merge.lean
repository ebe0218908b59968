import JavaOutline.Automaton.Draft
import JavaOutline.Lexing.Keyword

/-!
Joining states of the canonical automaton.

States with the same core are joined unless that would change what happens on a token or make two
tokens that disturb each other be looked for at the same time. A finer grouping is found by
splitting groups until every two states of a group lead to the same groups.
-/

namespace JavaOutline.Automaton

open Grammar

namespace Merge

structure Groups where
  members : Array (List Nat)
  groupOf : Array Nat

/-- Split a group: every member is compared with the members after it, and those that differ from
it are set aside. -/
def splitList (differ : Nat → Nat → Bool) : Nat → List Nat → List Nat × List Nat
  | 0, states => (states, [])
  | _ + 1, [] => ([], [])
  | budget + 1, x :: rest =>
      let (aside, together) := rest.partition (differ x)
      let (kept, others) := splitList differ budget together
      (x :: kept, aside ++ others)

/-- Split the groups from number `i` on; what is set aside forms a new group at the end. Also says
whether anything was split. -/
def splitFrom (differ : Array Nat → Nat → Nat → Bool) :
    Nat → Nat → Groups → Bool → Groups × Bool
  | 0, _, g, changed => (g, changed)
  | budget + 1, i, g, changed =>
      match g.members[i]? with
      | none => (g, changed)
      | some states =>
          let (kept, aside) := splitList (differ g.groupOf) states.length states
          if aside.isEmpty then splitFrom differ budget (i + 1) g changed
          else
            let new := g.members.size
            let groupOf := aside.foldl (fun a s => a.setIfInBounds s new) g.groupOf
            splitFrom differ budget (i + 1)
              ⟨(g.members.setIfInBounds i kept).push aside, groupOf⟩ true

def splitAll (differ : Array Nat → Nat → Nat → Bool) (size : Nat) : Nat → Groups → Groups
  | 0, g => g
  | budget + 1, g =>
      let (g, changed) := splitFrom differ (2 * size + 1) 0 g false
      if changed then splitAll differ size budget g else g

/-- Whether two lists of actions for the same token differ, where shifts to states of one group
count as equal. -/
def actionsDiffer (groupOf : Array Nat) : List Action → List Action → Bool
  | [], [] => false
  | .shift s r :: as, .shift t q :: bs =>
      if groupOf.getD s 0 == groupOf.getD t 0 && r == q then actionsDiffer groupOf as bs
      else true
  | a :: as, b :: bs => if a == b then actionsDiffer groupOf as bs else true
  | _, _ => true

/-- Whether two states disagree on a token that both know. -/
def commonActionsDiffer (groupOf : Array Nat) :
    List (Nat × List Action) → List (Nat × List Action) → Bool
  | [], _ => false
  | _, [] => false
  | (t, as) :: xs, (u, bs) :: ys =>
      if t < u then commonActionsDiffer groupOf xs ((u, bs) :: ys)
      else if u < t then commonActionsDiffer groupOf ((t, as) :: xs) ys
      else actionsDiffer groupOf as bs || commonActionsDiffer groupOf xs ys
termination_by xs ys => xs.length + ys.length

/-- The state that a list of actions shifts to, if it ends in a shift. -/
def lastShift? (as : List Action) : Option Nat :=
  match as.getLast? with
  | some (.shift s _) => some s
  | _ => none

/-- Whether two states lead to different groups on a symbol that both know. -/
def commonTargetsDiffer (groupOf : Array Nat) : List (Nat × Nat) → List (Nat × Nat) → Bool
  | [], _ => false
  | _, [] => false
  | (v, s) :: xs, (w, t) :: ys =>
      if v < w then commonTargetsDiffer groupOf xs ((w, t) :: ys)
      else if w < v then commonTargetsDiffer groupOf ((v, s) :: xs) ys
      else groupOf.getD s 0 != groupOf.getD t 0 || commonTargetsDiffer groupOf xs ys
termination_by xs ys => xs.length + ys.length

structure View where
  tokens : TokenSet
  actions : List (Nat × List Action)
  shifts : List (Nat × Nat)
  targets : List (Nat × Nat)
  deriving Inhabited

def View.ofState (s : State) : View where
  tokens := s.tokens
  actions := s.actions.toList
  shifts := s.actions.toList.filterMap fun (t, as) => (lastShift? as).map fun target => (t, target)
  targets := s.targets.toList

/-- Whether some token of `a` that is not in `b` is disturbed by a token of `b`. -/
def disturbed (clashes : Array TokenSet) (a b : TokenSet) : Bool :=
  let extra := a &&& (a ^^^ b)
  extra != 0 && Nat.any clashes.size fun t _ =>
    extra.testBit t && (clashes.getD t 0) &&& b != 0

/-- Whether two states of one core must not be joined, apart from where they lead. -/
def viewsConflict (clashes : Array TokenSet) (groupOf : Array Nat) (x y : View) : Bool :=
  (x.tokens != y.tokens &&
    (disturbed clashes x.tokens y.tokens || disturbed clashes y.tokens x.tokens)) ||
  commonActionsDiffer groupOf x.actions y.actions

/-- By token, the tokens that must not be looked for together with it; the end of the text is
treated like the first token. Keywords never disturb words. -/
def clashTable (overlaps : Lexing.OverlapTable) (word : Nat) (keywords : TokenSet) :
    Array TokenSet :=
  let rows := (Array.range overlaps.size).map fun t =>
    Nat.fold overlaps.size
      (fun u _ set =>
        let exempt := (u == word && keywords.testBit t) || (t == word && keywords.testBit u)
        if !exempt && overlaps.conflicts t u then set ||| (1 <<< u) else set)
      0
  rows.push (rows.getD 0 0)

def groups (clashes : Array TokenSet) (states : Array State) : Groups :=
  let coreCount := states.foldl (fun n s => max n (s.core + 1)) 0
  let members := (states.zipIdx.foldr
    (fun (s, i) (m : Array (List Nat)) => m.modify s.core fun l => i :: l)
    (Array.replicate coreCount []))
  let start : Groups := ⟨members, states.map fun s => s.core⟩
  let views := states.map View.ofState
  let size := states.size
  let (g, _) := splitFrom
    (fun groupOf i j =>
      viewsConflict clashes groupOf (views.getD i default) (views.getD j default))
    (2 * size + 1) 0 start false
  splitAll
    (fun groupOf i j =>
      let x := views.getD i default
      let y := views.getD j default
      commonTargetsDiffer groupOf x.shifts y.shifts ||
        commonTargetsDiffer groupOf x.targets y.targets)
    size size g

def Action.redirect (f : Nat → Nat) : Action → Action
  | .shift s r => .shift (f s) r
  | a => a

def redirect (f : Nat → Nat) (s : State) : State :=
  { s with
    actions := s.actions.map fun (t, as) => (t, as.map (Action.redirect f))
    targets := s.targets.map fun (v, target) => (v, f target) }

/-- Join two ascending lists of entries; where both have one the first wins. -/
def joinEntries {α : Type} : List (Nat × α) → List (Nat × α) → List (Nat × α)
  | [], ys => ys
  | xs, [] => xs
  | (t, a) :: xs, (u, b) :: ys =>
      if t < u then (t, a) :: joinEntries xs ((u, b) :: ys)
      else if u < t then (u, b) :: joinEntries ((t, a) :: xs) ys
      else (t, a) :: joinEntries xs ys
termination_by xs ys => xs.length + ys.length

/-- One state for every group. -/
def join (states : Array State) (g : Groups) : Array State :=
  g.members.map fun members =>
    let joined := members.foldl
      (fun (acc : List (Nat × List Action) × List (Nat × Nat)) i =>
        let s := states.getD i default
        (joinEntries acc.1 s.actions.toList, joinEntries acc.2 s.targets.toList))
      ([], [])
    redirect (fun i => g.groupOf.getD i 0) ⟨joined.1.toArray, joined.2.toArray, 0⟩

/-- The construct that a state completes whatever comes next, if completing it leaves no trace
and the state does nothing else. -/
def passThrough? (table : ItemTable) (traceless : Nat → Bool) (s : State) : Option Nat :=
  let found := s.actions.foldl
    (fun (acc : Option (Option Nat)) (_, as) => as.foldl
      (fun acc a =>
        match acc, a with
        | none, _ => none
        | some seen, .shiftExtra => some seen
        | some seen, .reduce r =>
            let red := table.reductions.getD r default
            if red.count == 1 && red.shape == 0 && red.dynamic == 0 && traceless red.construct &&
                (seen.isNone || seen == some red.construct) then
              some (some red.construct)
            else none
        | some _, _ => none)
      acc)
    (some none)
  found.join

def State.target? (s : State) (v : Nat) : Option Nat :=
  (s.targets.find? fun (w, _) => w == v).map fun (_, t) => t

/-- Follow a target past states that only complete a construct, at most `budget` times. -/
def skipThrough (passes : Array (Option Nat)) (s : State) : Nat → Nat → Nat
  | 0, t => t
  | budget + 1, t =>
      match passes.getD t none with
      | none => t
      | some v =>
          match State.target? s v with
          | none => t
          | some u => skipThrough passes s budget u

/-- Lead every state past those that only complete a construct. -/
def bypass (table : ItemTable) (traceless : Nat → Bool) (states : Array State) : Array State :=
  let passes := states.map (passThrough? table traceless)
  states.map fun s => redirect (skipThrough passes s states.size) s

/-- Drop the states that no state refers to, the first two apart. -/
def dropUnused (states : Array State) : Array State :=
  let used := states.foldl
    (fun (used : Array Bool) s =>
      let used := s.actions.foldl
        (fun used (_, as) => as.foldl
          (fun (used : Array Bool) a =>
            match a with
            | .shift t _ => used.setIfInBounds t true
            | _ => used)
          used)
        used
      s.targets.foldl (fun (used : Array Bool) (_, t) => used.setIfInBounds t true) used)
    ((Array.replicate states.size false).setIfInBounds 0 true |>.setIfInBounds 1 true)
  let (numbers, _) := used.foldl
    (fun (acc : Array Nat × Nat) u => (acc.1.push acc.2, if u then acc.2 + 1 else acc.2))
    (#[], 0)
  (states.zipIdx.filter fun (_, i) => used.getD i false).map fun (s, _) =>
    redirect (fun t => numbers.getD t 0) s

/-- Order the states by descending number of entries, the first two apart. -/
def orderBySize (states : Array State) : Array State :=
  let size (i : Nat) : Nat :=
    let s := states.getD i default
    s.actions.size + s.targets.size
  let order := (List.range states.size).take 2 ++
    ((List.range states.size).drop 2).mergeSort fun i j => decide (size i ≥ size j)
  let numbers := order.zipIdx.foldl
    (fun (a : Array Nat) (old, new) => a.setIfInBounds old new)
    (Array.replicate states.size 0)
  (order.map fun i => redirect (fun t => numbers.getD t 0) (states.getD i default)).toArray

end Merge

end JavaOutline.Automaton
