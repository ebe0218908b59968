import JavaOutline.Automaton.Table
import JavaOutline.Parsing.Extent

/-!
Reading tokens from a text.
-/

namespace JavaOutline.Parsing

open Grammar Lexing Automaton

structure Source where
  chars : Array Char
  /-- By character: its letter in the scanner's alphabet. -/
  letters : Array Nat

namespace Source

def ofString (s : String) : Source :=
  let chars := s.toList.toArray
  ⟨chars, chars.map letterOf⟩

def extent (src : Source) : Extent := src.chars.foldl Extent.push Extent.zero

def atEnd (src : Source) (p : Extent) : Bool := p.chars ≥ src.chars.size

def step (src : Source) (p : Extent) : Extent :=
  match src.chars[p.chars]? with
  | some c => p.push c
  | none => p

/-- What one run of a scanner found. -/
structure Reading where
  /-- Where the token begins, after the blanks before it. -/
  start : Extent
  /-- The last token met, and where it ends. -/
  found : Option (Scanned × Extent)
  /-- Where the scanner stopped reading. -/
  here : Extent

/-- Run a scanner from a state, reading at most `budget` characters. The character U+0000 is never
part of a token. -/
def scanFrom (src : Source) (scanner : Scanner) : Nat → Nat → Reading → Reading
  | 0, _, r => r
  | budget + 1, state, r =>
      let s := scanner.states.getD state default
      let r := match s.accepts with
        | some token => { r with found := some (token, r.here) }
        | none => r
      if src.atEnd r.here then
        if s.endsText then { r with found := some (.finish, r.here) } else r
      else
        let letter := src.letters.getD r.here.chars 0
        match if letter == 0 then 0 else s.next.getD letter 0 with
        | 0 => r
        | target + 1 =>
            let here := src.step r.here
            src.scanFrom scanner budget target
              { start := if s.skips.has letter then here else r.start
                found := r.found
                here }

/-- Look for a token at a position. A byte order mark at the very beginning is skipped. -/
def scan (src : Source) (scanner : Scanner) (state : Nat) (p : Extent) : Reading :=
  let p := if p.bytes == 0 && src.chars[0]? == some '\uFEFF' then src.step p else p
  src.scanFrom scanner (src.chars.size - p.chars + 1) state ⟨p, none, p⟩

end Source

end JavaOutline.Parsing
