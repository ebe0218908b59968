import JavaOutline.Parsing.Lookahead
import JavaOutline.Parsing.Stack

/-!
Completing productions.
-/

namespace JavaOutline.Parsing

open Automaton

/-- How many readings are followed from one token to the next. -/
def versionLimit : Nat := 6

/-- By how many that limit may be exceeded in between. -/
def versionOverflow : Nat := 4

namespace Stack

/-- How many readings have been given up but not yet forgotten. -/
def haltedCount (s : Stack) : Nat :=
  s.heads.foldl
    (fun n h =>
      match h.status with
      | .halted => n + 1
      | _ => n)
    0

/-- Put several subtrees on top of a reading without leaving a state. -/
def pushAll (table : Table) (s : Stack) (v : Nat) (trees : List Subtree) (state : Nat) : Stack :=
  trees.foldl (fun s t => s.push table v (some t) state) s

/-- Join reading `w` into the first earlier reading it fits, reading `except` apart. -/
def mergeIntoEarlier? (table : Table) (s : Stack) (except w : Nat) : Nat → Nat → Option Stack
  | 0, _ => none
  | budget + 1, j =>
      if j < w then
        if j == except then mergeIntoEarlier? table s except w budget (j + 1)
        else
          match s.merge? table j w with
          | some merged => some merged
          | none => mergeIntoEarlier? table s except w budget (j + 1)
      else none

/-- The parent made of one slice, and the extras that come after it. Slices of one version compete
for being the parent's children. -/
def parentOf (table : Table) (symbol shape : Nat) :
    List Subtree → List Slice → Subtree × List Subtree
  | trees, rivals =>
      let (children, extras) := Subtree.splitTrailingExtras trees
      rivals.foldl
        (fun (best : Subtree × List Subtree) rival =>
          let (children, extras) := Subtree.splitTrailingExtras rival.trees
          if best.1.yields (Subtree.node table symbol children 0) then
            (Subtree.node table symbol children shape, extras)
          else best)
        (Subtree.node table symbol children shape, extras)

/-- Put a parent in place of each slice. `removed` readings have been dropped so far, and `room`
is the highest number a reading may have. -/
def reduceSlices (table : Table) (version symbol shape : Nat) (dynamic : Int) (room : Nat) :
    Nat → List Slice → Nat → Stack → Stack
  | 0, _, _, s => s
  | _ + 1, [], _, s => s
  | budget + 1, slice :: rest, removed, s =>
      let rivals := rest.takeWhile fun x => x.version == slice.version
      let others := rest.dropWhile fun x => x.version == slice.version
      let v := slice.version - removed
      if v > room then
        reduceSlices table version symbol shape dynamic room budget others (removed + 1)
          (s.remove v)
      else
        let (parent, extras) := parentOf table symbol shape slice.trees rivals
        let next := table.next (s.state v) symbol
        let s := s.push table v (some (parent.addDynamic dynamic)) next
        let s := s.pushAll table v extras next
        match s.mergeIntoEarlier? table version v v 0 with
        | some merged =>
            reduceSlices table version symbol shape dynamic room budget others (removed + 1) merged
        | none => reduceSlices table version symbol shape dynamic room budget others removed s

/-- Complete a production on top of a reading. Every way to take its parts off gives a reading of
its own; the first of the new readings is named if there is any. -/
def reduce (table : Table) (s : Stack) (version : Nat) (r : Reduction) : Stack × Option Nat :=
  let before := s.heads.size
  let (s, slices) := s.popCount version r.count
  let room := versionLimit + versionOverflow + s.haltedCount
  let s := reduceSlices table version r.construct r.shape r.dynamic room (slices.length + 1)
    slices 0 s
  (s, if s.heads.size > before then some before else none)

/-- What a state can do on the tokens from `first` on: whether it can read one of them, and the
productions it can complete, those with different parts only once. -/
def possibleActions (table : Table) (state : Nat) (tokens : List Nat) :
    Bool × List Reduction :=
  tokens.foldl
    (fun (acc : Bool × List Reduction) token =>
      (table.actions state token).foldl
        (fun (acc : Bool × List Reduction) a =>
          match a with
          | .shift _ repetition => (acc.1 || !repetition, acc.2)
          | .recover => (true, acc.2)
          | .reduce r =>
              let red := table.reductions.getD r default
              if red.count > 0 && !(acc.2.any fun x =>
                  x.construct == red.construct && x.count == red.count) then
                (acc.1, acc.2 ++ [red])
              else acc
          | _ => acc)
        acc)
    (false, [])

/-- Join a reading into one of the readings from `first` on that come before it. -/
def mergeIntoRecent? (table : Table) (s : Stack) (w : Nat) : Nat → Nat → Option Stack
  | 0, _ => none
  | budget + 1, j =>
      if j < w then
        match s.merge? table j w with
        | some merged => some merged
        | none => mergeIntoRecent? table s w budget (j + 1)
      else none

/-- Complete every production that can be completed before one of the tokens, or before any token
if none is given. Says whether the token can then be read. -/
def reduceEverywhere (table : Table) (start : Nat) (token : Nat) (before : Nat) :
    Nat → Nat → Nat → Bool → Stack → Stack × Bool
  | 0, _, _, found, s => (s, found)
  | budget + 1, round, v, found, s =>
      let count := s.heads.size
      if v ≥ count then (s, found)
      else
        match s.mergeIntoRecent? table v count before with
        | some merged => reduceEverywhere table start token before budget (round + 1) v found merged
        | none =>
            let tokens :=
              if token != 0 then [token]
              else (List.range table.tokenCount).drop 1
            let (shifts, reductions) := possibleActions table (s.state v) tokens
            let (s, made) := reductions.foldl
              (fun (acc : Stack × Option Nat) r => acc.1.reduce table v r) (s, none)
            let following (s : Stack) (found : Bool) : Stack × Bool :=
              reduceEverywhere table start token before budget (round + 1)
                (if v == start then count else v + 1) found s
            if shifts then following s true
            else
              match made with
              | some w =>
                  if round < versionLimit then
                    reduceEverywhere table start token before budget (round + 1) v found
                      (s.replace w v)
                  else following (if token != 0 then s.remove v else s) found
              | none => following (if token != 0 then s.remove v else s) found

def reduceAll (table : Table) (s : Stack) (v token : Nat) : Stack × Bool :=
  reduceEverywhere table v token s.heads.size (64 * (s.nodes.size + 64)) 0 v false s

end Stack

end JavaOutline.Parsing
