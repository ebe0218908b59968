import JavaOutline.Lexing.Keyword
import Std.Data.HashMap

/-!
One machine for several tokens at once.

A scanner state says how far each of the tokens looked for has been read. The machine is built
from the machines of the tokens; where tokens compete, the longest text wins unless levels say
otherwise, and among tokens for the same text the preferred one wins.
-/

namespace JavaOutline.Lexing

open Grammar
open Automaton (TokenSet)

/-- Which token has been read: one of the grammar's, or the end of the text. -/
inductive Scanned where
  | token (index : Nat)
  | finish
  deriving DecidableEq, Inhabited

structure ScanState where
  /-- The token that ends here, if one does. -/
  accepts : Option Scanned
  /-- By letter: the next state, counted from one; zero where the letter cannot be read. -/
  next : Array Nat
  /-- The letters that are read as blanks before the token. -/
  skips : CharSet
  /-- Whether the end of the text may be met here. -/
  endsText : Bool
  deriving Inhabited

/-- A machine for many sets of tokens, which share their states. -/
structure Scanner where
  states : Array ScanState
  deriving Inhabited

namespace Scanner

/-- How far each token has been read, and whether the end of the text is looked for as well. -/
structure Progress where
  running : List (Nat × Nat)
  finish : Bool
  deriving DecidableEq, Hashable

structure Builder where
  known : Array Progress
  index : Std.HashMap Progress Nat
  states : Array ScanState

def Builder.stateOf (b : Builder) (p : Progress) : Builder × Nat :=
  match b.index[p]? with
  | some i => (b, i)
  | none =>
      let n := b.known.size
      ({ b with known := b.known.push p, index := b.index.insert p n }, n)

def completion? (lexemes : Array Lexeme) (p : Progress) : Option Nat :=
  p.running.foldl
    (fun best (t, s) =>
      if ((lexemes.getD t default).machine.states.getD s default).accepts then
        match best with
        | none => some t
        | some u => if prefersToken lexemes u t then some u else some t
      else best)
    none

/-- The next state of each token that can read a letter, with whether the letter is a blank
before all of them and the highest level among them. -/
def advance (lexemes : Array Lexeme) (p : Progress) (letter : Nat) :
    List (Nat × Nat) × Bool × Nat :=
  p.running.foldr
    (fun (t, s) (acc : List (Nat × Nat) × Bool × Nat) =>
      let x := lexemes.getD t default
      match x.machine.step s letter with
      | none => acc
      | some s' =>
          let skipped := (x.machine.states.getD s default).skips.has letter
          ((t, s') :: acc.1, acc.2.1 && skipped,
            max acc.2.2 (if skipped then 0 else x.level)))
    ([], true, 0)

/-- Process one state. -/
def expand (lexemes : Array Lexeme) (b : Builder) (p : Progress) : Builder :=
  let complete := completion? lexemes p
  let leading := p.running.any fun (t, s) =>
    ((lexemes.getD t default).machine.states.getD s default).leading
  let (b, next, skips) := Nat.fold letterCount
    (fun letter _ (acc : Builder × Array Nat × Nat) =>
      let (b, next, skips) := acc
      match advance lexemes p letter with
      | ([], _, _) => (b, next.push 0, skips)
      | (running, blank, level) =>
          let goesOn :=
            match complete with
            | none => true
            | some t =>
                let doneLevel := (lexemes.getD t default).level
                if level < doneLevel then false
                else if level == doneLevel then
                  !blank && (!leading || running.any fun (u, _) => u == t)
                else true
          if goesOn then
            let (b, target) := b.stateOf ⟨running, p.finish && blank⟩
            (b, next.push (target + 1), if blank then skips ||| (1 <<< letter) else skips)
          else (b, next.push 0, skips))
    (b, #[], 0)
  let state : ScanState :=
    { accepts := complete.map .token, next, skips := ⟨skips⟩, endsText := p.finish }
  { b with states := b.states.push state }

def expandAll (lexemes : Array Lexeme) : Nat → Nat → Builder → Builder
  | 0, _, b => b
  | budget + 1, i, b =>
      match b.known[i]? with
      | none => b
      | some p => expandAll lexemes budget (i + 1) (expand lexemes b p)

/-- The progress before anything has been read when looking for a set of tokens. -/
def initial (size : Nat) (set : TokenSet) : Progress :=
  ⟨((List.range size).filter fun t => set.testBit t).map fun t => (t, 0), set.testBit size⟩

/-- A scanner for several sets of tokens, with the state in which each of them starts. -/
def ofSets (lexemes : Array Lexeme) (sets : List TokenSet) : Scanner × Array Nat :=
  let (b, starts) := sets.foldl
    (fun (acc : Builder × Array Nat) set =>
      let (b, start) := acc.1.stateOf (initial lexemes.size set)
      (b, acc.2.push start))
    (⟨#[], {}, #[]⟩, #[])
  (⟨(expandAll lexemes 1048576 0 b).states⟩, starts)

end Scanner

end JavaOutline.Lexing
