import JavaOutline.Grammar.Production

/-!
A deterministic machine for every token.

A pattern's machine is built on its positions, the places of the pattern that read one letter. A
machine state is the set of positions that may read next, together with whether the text read so
far is already a token. Tokens that may follow blanks begin with a loop over the blanks.
-/

namespace JavaOutline.Lexing

open Grammar

/-- The positions of a pattern and how they follow one another. Sets of positions are masks. -/
structure Positions where
  nullable : Bool
  first : Nat
  last : Nat
  /-- By position: the letters it reads. -/
  reads : Array CharSet
  /-- By position: the positions that may read after it. -/
  follow : Array Nat

/-- Let every position of `froms` be followed by those of `tos`. -/
def joinFollow (follow : Array Nat) (froms tos : Nat) : Array Nat :=
  follow.mapIdx fun i set => if froms.testBit i then set ||| tos else set

/-- Number the positions of a pattern, after those already numbered. -/
def positionsOf : Pattern → Array CharSet → Array Nat → Positions
  | .empty, reads, follow => ⟨true, 0, 0, reads, follow⟩
  | .chars set, reads, follow =>
      let here := 1 <<< reads.size
      ⟨false, here, here, reads.push set, follow.push 0⟩
  | .seq a b, reads, follow =>
      let pa := positionsOf a reads follow
      let pb := positionsOf b pa.reads pa.follow
      { nullable := pa.nullable && pb.nullable
        first := if pa.nullable then pa.first ||| pb.first else pa.first
        last := if pb.nullable then pa.last ||| pb.last else pb.last
        reads := pb.reads
        follow := joinFollow pb.follow pa.last pb.first }
  | .alt a b, reads, follow =>
      let pa := positionsOf a reads follow
      let pb := positionsOf b pa.reads pa.follow
      { nullable := pa.nullable || pb.nullable
        first := pa.first ||| pb.first
        last := pa.last ||| pb.last
        reads := pb.reads
        follow := pb.follow }
  | .some a, reads, follow =>
      let pa := positionsOf a reads follow
      { pa with follow := joinFollow pa.follow pa.last pa.first }

structure MachineState where
  /-- Whether the text read so far is a token. -/
  accepts : Bool
  /-- By letter: the next state, counted from one; zero where the letter cannot be read. -/
  next : Array Nat
  /-- The letters that are read only as blanks before the token. -/
  skips : CharSet
  /-- Whether blanks may still be read before the token. -/
  leading : Bool
  deriving Inhabited

/-- A token's machine; state 0 is the start. -/
structure Machine where
  states : Array MachineState
  deriving Inhabited

namespace Machine

def readers (reads : Array CharSet) (set letter : Nat) : List Nat :=
  (List.range reads.size).filter fun i =>
    set.testBit i && (reads.getD i CharSet.empty).has letter

/-- Discover the states from number `i` on, at most `budget` of them. A state is given by its set
of positions; the bit after the last position marks acceptance, and position `lead`, if there is
one, reads the leading blanks. -/
def explore (reads : Array CharSet) (after : Array Nat) (lead : Option Nat) :
    Nat → Nat → Array Nat → Array MachineState → Array MachineState
  | 0, _, _, states => states
  | budget + 1, i, sets, states =>
      match sets[i]? with
      | none => states
      | some set =>
          let leading := match lead with
            | some p => set.testBit p
            | none => false
          let (sets, next, skips) := Nat.fold letterCount
            (fun letter _ (acc : Array Nat × Array Nat × Nat) =>
              let (sets, next, skips) := acc
              match readers reads set letter with
              | [] => (sets, next.push 0, skips)
              | found =>
                  let reached := found.foldl (fun s p => s ||| after.getD p 0) 0
                  let skips := if lead.isSome && found == lead.toList then
                    skips ||| (1 <<< letter) else skips
                  match sets.findIdx? (fun s => s == reached) with
                  | some k => (sets, next.push (k + 1), skips)
                  | none => (sets.push reached, next.push sets.size.succ, skips))
            (sets, #[], 0)
          explore reads after lead budget (i + 1) sets
            (states.push
              { accepts := set.testBit reads.size, next, skips := ⟨skips⟩, leading })

/-- The machine of a pattern. When `blanks` is given the token may follow any number of them. -/
def ofPattern (p : Pattern) (blanks : Option CharSet) : Machine :=
  let pos := positionsOf p #[] #[]
  match blanks with
  | none =>
      let accept := 1 <<< pos.reads.size
      let after := joinFollow pos.follow pos.last accept
      let start := if pos.nullable then pos.first ||| accept else pos.first
      ⟨explore pos.reads after none 4096 0 #[start] #[]⟩
  | some set =>
      let lead := pos.reads.size
      let accept := 1 <<< (lead + 1)
      let start := pos.first ||| (1 <<< lead)
      let start := if pos.nullable then start ||| accept else start
      let after := (joinFollow pos.follow pos.last accept).push start
      ⟨explore (pos.reads.push set) after (some lead) 4096 0 #[start] #[]⟩

def step (m : Machine) (state letter : Nat) : Option Nat :=
  match (m.states.getD state default).next.getD letter 0 with
  | 0 => none
  | n + 1 => some n

def firstLetters (m : Machine) : CharSet :=
  ⟨Nat.fold letterCount
    (fun letter _ set => if (m.step 0 letter).isSome then set ||| (1 <<< letter) else set) 0⟩

end Machine

/-- A token with what decides between it and others. -/
structure Lexeme where
  machine : Machine
  /-- The level its pattern was given. -/
  level : Nat
  /-- Fixed spellings go before patterns, and tokens that exclude blanks before those that do
  not. -/
  rank : Nat
  deriving Inhabited

def Lexeme.ofTerminal (separators : CharSet) (t : Terminal) : Lexeme :=
  match t.body with
  | .text s => ⟨Machine.ofPattern (Pattern.text s) (some separators), 0, 2⟩
  | .token true level p => ⟨Machine.ofPattern p none, level, 1⟩
  | .token false level p => ⟨Machine.ofPattern p (some separators), level, 0⟩
  | _ => ⟨⟨#[]⟩, 0, 0⟩

/-- Whether token `a` wins over token `b` when both read the same text. -/
def prefersToken (lexemes : Array Lexeme) (a b : Nat) : Bool :=
  let x := lexemes.getD a default
  let y := lexemes.getD b default
  if x.level < y.level then false
  else if y.level < x.level then true
  else if x.rank < y.rank then false
  else if y.rank < x.rank then true
  else decide (a < b)

end JavaOutline.Lexing
