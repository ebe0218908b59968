import JavaOutline.Lexing.Machine
import JavaOutline.Automaton.Item

/-!
How tokens get in each other's way.

For every two tokens their machines are run side by side over all texts. What can happen is noted
for each direction: one may read on where the other is already complete, both may read the same
text, and so on. These notes decide which tokens may be looked for at the same time.
-/

namespace JavaOutline.Lexing

open Grammar
open Automaton (TokenSet)

structure Overlap where
  /-- It is complete where the other could only read on at a lower level. -/
  isPrefix : Bool := false
  /-- It reads on where the other is complete. -/
  continues : Bool := false
  /-- It reads on where the other is complete, over a letter that may follow the other. -/
  continuesValidly : Bool := false
  /-- It reads blanks that the other skips. -/
  readsBlanks : Bool := false
  /-- Both read the same text and it wins. -/
  sameText : Bool := false
  /-- It reads a text that the other does not. -/
  otherText : Bool := false
  deriving DecidableEq, Inhabited

/-- The notes on two tokens, for the first against the second and for the second against the
first. -/
structure PairNotes where
  ahead : Overlap := {}
  back : Overlap := {}
  deriving Inhabited

namespace PairNotes

def note (n : PairNotes) (first : Bool) (f : Overlap → Overlap) : PairNotes :=
  if first then { n with ahead := f n.ahead } else { n with back := f n.back }

end PairNotes

/-- A pair of machine states, where a machine that can read no further text has dropped out. -/
abbrev StatePair := Option Nat × Option Nat

/-- The letters that may follow a token, by token. -/
abbrev Followers := Array CharSet

/-- Note what happens in one pair of states, and list the pairs that can be reached from it. The
tokens are `i` and `j`, with `j < i`. -/
def examine (lexemes : Array Lexeme) (followers : Followers) (i j : Nat) (a b : Nat)
    (notes : PairNotes) : PairNotes × List StatePair :=
  let x := lexemes.getD i default
  let y := lexemes.getD j default
  let sa := x.machine.states.getD a default
  let sb := y.machine.states.getD b default
  let leading := sa.leading || sb.leading
  -- Which of the two is complete here; `true` stands for `i`.
  let (notes, complete) : PairNotes × Option Bool :=
    if leading then
      if sb.accepts then (notes.note false fun o => { o with readsBlanks := true }, none)
      else if sa.accepts then (notes.note true fun o => { o with readsBlanks := true }, none)
      else (notes, none)
    else if sa.accepts && sb.accepts then
      let winner := !prefersToken lexemes j i
      (notes.note winner fun o => { o with sameText := true }, some winner)
    else if sb.accepts then (notes, some false)
    else if sa.accepts then (notes, some true)
    else (notes, none)
  Nat.fold letterCount
    (fun letter _ (acc : PairNotes × List StatePair) =>
      let ta := x.machine.step a letter
      let tb := y.machine.step b letter
      if ta.isNone && tb.isNone then acc
      else
        let (notes, reached) := acc
        let notes :=
          match complete with
          | none => notes
          | some first =>
              let done := if first then x else y
              let staysOpen := if first then ta.isSome else tb.isSome
              if staysOpen then notes
              else
                -- Only the other token reads on.
                let other := if first then y else x
                let skipped := if first then sb.skips.has letter else sa.skips.has letter
                let level := if skipped then 0 else other.level
                let goesOn :=
                  if level < done.level then false
                  else if level == done.level then !skipped && !leading
                  else true
                if goesOn then
                  let valid := (followers.getD (if first then i else j) CharSet.empty).has letter
                  notes.note (!first) fun o =>
                    { o with
                      continues := true
                      continuesValidly := o.continuesValidly || valid }
                else notes.note first fun o => { o with isPrefix := true }
        (notes, if reached.contains (ta, tb) then reached else (ta, tb) :: reached))
    (notes, [])

/-- Run two machines side by side over all pairs of states that can be reached. -/
def exploreJointly (lexemes : Array Lexeme) (followers : Followers) (i j : Nat) :
    Nat → List StatePair → List StatePair → PairNotes → PairNotes
  | 0, _, _, notes => notes
  | _ + 1, [], _, notes => notes
  | budget + 1, pair :: queue, seen, notes =>
      match pair with
      | (none, none) => exploreJointly lexemes followers i j budget queue seen notes
      | (some _, none) =>
          exploreJointly lexemes followers i j budget queue seen
            (notes.note true fun o => { o with otherText := true })
      | (none, some _) =>
          exploreJointly lexemes followers i j budget queue seen
            (notes.note false fun o => { o with otherText := true })
      | (some a, some b) =>
          let (notes, reached) := examine lexemes followers i j a b notes
          let new := reached.filter fun p => !seen.contains p
          exploreJointly lexemes followers i j budget (new ++ queue) (new ++ seen) notes

structure OverlapTable where
  size : Nat
  cells : Array Overlap

namespace OverlapTable

/-- What token `i` does to token `j`. -/
def get (t : OverlapTable) (i j : Nat) : Overlap := t.cells.getD (i * t.size + j) {}

def ofLexemes (lexemes : Array Lexeme) (followers : Followers) : OverlapTable :=
  let n := lexemes.size
  let cells := Nat.fold n
    (fun i _ cells => Nat.fold i
      (fun j _ (cells : Array Overlap) =>
        let start : StatePair := (some 0, some 0)
        let notes := exploreJointly lexemes followers i j 1048576 [start] [start] {}
        (cells.setIfInBounds (i * n + j) notes.ahead).setIfInBounds (j * n + i) notes.back)
      cells)
    (Array.replicate (n * n) {})
  ⟨n, cells⟩

/-- Looking for both at once would make `i` take the place of `j`. -/
def conflicts (t : OverlapTable) (i j : Nat) : Bool :=
  let o := t.get i j
  o.continuesValidly || o.readsBlanks || o.sameText

/-- The two have any text in common. -/
def overlaps (t : OverlapTable) (i j : Nat) : Bool :=
  let o := t.get i j
  o.readsBlanks || o.isPrefix || o.sameText || o.continues

/-- Token `i` reads a longer or shorter text than `j` would. -/
def stretches (t : OverlapTable) (i j : Nat) : Bool :=
  let o := t.get i j
  (o.continuesValidly || o.readsBlanks) && !(t.get j i).readsBlanks

end OverlapTable

/-- The tokens that may follow each token: those that can begin a symbol that stands after one
that the token can end, and comments. Anything may follow a comment. -/
def followingTokens (p : Productions) (table : Automaton.ItemTable) : Array TokenSet :=
  let n := p.terminals.size
  let edge (sets : Array TokenSet) (s : Step) : TokenSet :=
    sets.getD (Automaton.ItemTable.code n s.symbol) 0
  let pairs := p.constructs.toList.flatMap fun v => v.alternatives.flatMap fun prod =>
    (prod.steps.zip prod.steps.tail).map fun (s, t) => (edge table.last s, edge table.first t)
  let base := pairs.eraseDups.foldl
    (fun (sets : Array TokenSet) (ends, begins) =>
      sets.mapIdx fun t set => if ends.testBit t then set ||| begins else set)
    (Array.replicate n 0)
  let extras := p.extras.foldl (fun set t => set ||| (1 <<< t)) 0
  (base.map fun set => set ||| extras).mapIdx fun t set =>
    if extras.testBit t then (1 <<< n) - 1 else set

def followingLetters (lexemes : Array Lexeme) (following : Array TokenSet) : Followers :=
  let firsts := lexemes.map fun x => x.machine.firstLetters
  following.map fun set =>
    Nat.fold lexemes.size
      (fun t _ letters =>
        if set.testBit t then letters.union (firsts.getD t CharSet.empty) else letters)
      CharSet.empty

end JavaOutline.Lexing
