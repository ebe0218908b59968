import JavaOutline.Parsing.Recover

/-!
The parser: all readings of a text are advanced token by token until the best complete tree is
known.
-/

namespace JavaOutline.Parsing

open Automaton

namespace Parse

/-- The token read last, if it was looked for at this byte and a state can use it as it is. -/
def cached? (table : Table) (p : Parse) (state bytes : Nat) : Option Subtree :=
  match p.cache with
  | none => none
  | some (place, token) =>
      if place != bytes then none
      else
        let symbol := token.symbol
        let usable := table.accepts state symbol
        let sameScan := table.scanStart token.info.state == table.scanStart state
        if usable && sameScan &&
            (symbol != Table.word || (!token.info.keyword && token.info.state == state)) then
          some token
        else if token.info.size.bytes == 0 && symbol != Table.finish then none
        else if table.isReusable state symbol then some token
        else none

/-- What came of the actions of one state on one token. -/
inductive Outcome where
  /-- The token was used, or the text is complete. -/
  | done
  /-- Productions were completed; the reading goes on as the named one, unless all that came of it
  were joined into others. -/
  | reduced (version : Option Nat)
  | nothing

/-- Perform the actions of a state on a token one after another. -/
def perform (table : Table) (v : Nat) (lookahead : Subtree) :
    List Action → Outcome → Parse → Parse × Outcome
  | [], outcome, p => (p, outcome)
  | a :: rest, outcome, p =>
      match a with
      | .shift target repetition =>
          if repetition then perform table v lookahead rest outcome p
          else
            ({ p with
                stack := p.stack.push table v (some (lookahead.withExtra false)) target }, .done)
      | .shiftExtra =>
          ({ p with
              stack := p.stack.push table v (some (lookahead.withExtra true)) (p.stack.state v) },
            .done)
      | .accept => (accept table p v [] lookahead, .done)
      | .recover => (recover table p v lookahead, .done)
      | .reduce r =>
          let (s, made) := p.stack.reduce table v (table.reductions.getD r default)
          let outcome :=
            match made, outcome with
            | some w, _ => .reduced (some w)
            | none, .reduced w => .reduced w
            | none, _ => .reduced none
          perform table v lookahead rest outcome { p with stack := s }

/-- Advance a reading with a token until the token is used or the reading stops. -/
def advanceWith (table : Table) (v : Nat) : Nat → Subtree → Parse → Parse
  | 0, _, p => { p with stack := p.stack.halt v }
  | budget + 1, lookahead, p =>
      let state := p.stack.state v
      match perform table v lookahead (table.actions state lookahead.symbol) .nothing p with
      | (p, .done) => p
      | (p, .reduced (some w)) =>
          advanceWith table v budget lookahead { p with stack := p.stack.replace w v }
      | (p, .reduced none) => { p with stack := p.stack.halt v }
      | (p, .nothing) =>
          if lookahead.info.keyword && lookahead.symbol != Table.word &&
              table.accepts state Table.word then
            advanceWith table v budget (lookahead.withSymbol Table.word) p
          else { p with stack := p.stack.pause v lookahead }

def advance (table : Table) (src : Source) (p : Parse) (v : Nat) : Parse :=
  let state := p.stack.state v
  let position := p.stack.position v
  let budget := 64 * (src.chars.size + 64)
  match p.cached? table state position.bytes with
  | some token => advanceWith table v budget token p
  | none =>
      let token := lookahead table src state position
      advanceWith table v budget token { p with cache := some (position.bytes, token) }

/-- Advance one reading until it has passed the place that some reading has come to already. -/
def advanceFar (table : Table) (src : Source) (v : Nat) : Nat → Nat → Parse → Parse × Nat
  | 0, last, p => (p, last)
  | budget + 1, last, p =>
      if p.stack.isActive v then
        let p := advance table src p v
        let position := (p.stack.position v).bytes
        if position > last || (v > 0 && position == last) then (p, position)
        else advanceFar table src v budget last p
      else (p, last)

def advanceAll (table : Table) (src : Source) (steps : Nat) :
    Nat → Nat → Nat → Parse → Parse × Nat
  | 0, _, last, p => (p, last)
  | budget + 1, v, last, p =>
      if v < p.stack.heads.size then
        let (p, last) := advanceFar table src v steps last p
        advanceAll table src steps budget (v + 1) last p
      else (p, last)

/-- Compare reading `i`, which stands as given, with the readings from `j` on that come before
it: one that is clearly worse is dropped, ones that agree are joined, and the better comes first.
The result says where `i` has come to. -/
def rank (table : Table) (mine : Standing) : Nat → Nat → Nat → Stack → Stack × Option Nat
  | 0, i, _, s => (s, some i)
  | budget + 1, i, j, s =>
      if j ≥ i then (s, some i)
      else
        let (s, theirs) := s.standing j
        match theirs.compare mine with
        | .takeLeft => (s.remove i, none)
        | .preferLeft | .none =>
            match s.merge? table j i with
            | some merged => (merged, none)
            | none => rank table mine budget i (j + 1) s
        | .preferRight =>
            match s.merge? table j i with
            | some merged => (merged, none)
            | none => rank table mine budget i (j + 1) (s.swap i j)
        | .takeRight => rank table mine budget (i - 1) j (s.remove j)

/-- Order the readings from `i` on, and find the lowest price of those that are not in error. -/
def rankAll (table : Table) : Nat → Nat → Option Nat → Stack → Stack × Option Nat
  | 0, _, lowest, s => (s, lowest)
  | budget + 1, i, lowest, s =>
      if i ≥ s.heads.size then (s, lowest)
      else if s.isHalted i then rankAll table budget i lowest (s.remove i)
      else
        let (s, mine) := s.standing i
        let lowest :=
          if mine.inError then lowest
          else match lowest with
            | none => some mine.cost
            | some c => some (min c mine.cost)
        match rank table mine (2 * s.heads.size + 2) i 0 s with
        | (s, some i) => rankAll table budget (i + 1) lowest s
        | (s, none) => rankAll table budget i lowest s

/-- Let the first of the waiting readings recover if no reading before it goes on; forget the
other waiting readings. The readings from `i` to `stop` are looked at. -/
def resume (table : Table) :
    Nat → Nat → Nat → Bool → Option Nat → Parse → Parse × Option Nat
  | 0, _, _, _, lowest, p => (p, lowest)
  | budget + 1, i, stop, going, lowest, p =>
      if i ≥ stop then (p, lowest)
      else
        match (p.stack.head i).status with
        | .paused lookahead =>
            if !going && p.acceptCount < versionLimit then
              let lowest := some (p.stack.cost i)
              let p := handleError table { p with stack := p.stack.setStatus i .active } i lookahead
              resume table budget (i + 1) stop true lowest p
            else
              resume table budget i (stop - 1) going lowest { p with stack := p.stack.remove i }
        | _ => resume table budget (i + 1) stop true lowest p

/-- Drop, join and order readings between two rounds. The result is the lowest price of a reading
that goes on. -/
def condense (table : Table) (p : Parse) : Parse × Option Nat :=
  let (s, lowest) := rankAll table (4 * p.stack.heads.size + 4) 0 none p.stack
  let s := { s with heads := s.heads.take versionLimit }
  resume table (s.heads.size + 1) 0 s.heads.size false lowest { p with stack := s }

/-- Advance all readings round by round until the best complete tree is known. -/
def loop (table : Table) (src : Source) (steps : Nat) : Nat → Nat → Parse → Parse
  | 0, _, p => p
  | budget + 1, last, p =>
      if p.stack.heads.isEmpty then p
      else
        let (p, last) := advanceAll table src steps steps 0 last p
        let (p, lowest) := condense table p
        let settled := match p.finished with
          | none => false
          | some t => match lowest with
              | none => true
              | some c => decide (t.cost < c)
        if settled then p else loop table src steps budget last p

/-- The best tree for a text. If no reading comes to the end of the text, all of it is one
mistake. -/
def run (table : Table) (text : String) : Subtree :=
  let src := Source.ofString text
  let steps := 1024 * (src.chars.size + 64)
  (loop table src steps steps 0 ⟨Stack.initial, none, none, 0⟩).finished.getD
    (Subtree.unread table src.extent)

end Parse

end JavaOutline.Parsing
