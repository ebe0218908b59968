import JavaOutline.Parsing.Subtree

/-!
The next token of a reading.

Tokens are looked for with the scanner state of the parser state. If there is none, any token of
the grammar will do, and if there is none of these either, characters are skipped until one can be
found.
-/

namespace JavaOutline.Parsing

open Automaton Lexing

/-- Skip characters from a failed reading on until a token of the error state can be read or the
text ends. The skipped stretch so far ends at `stop`; the result is where it ends at last. -/
def skipUnreadable (table : Table) (src : Source) :
    Nat → Extent → Source.Reading → Extent
  | 0, stop, _ => stop
  | budget + 1, stop, r =>
      if r.here.bytes == stop.bytes && src.atEnd r.here then stop
      else
        let here := if r.here.bytes == stop.bytes then src.step r.here else r.here
        let next := src.scan table.scanner (table.scanStart Table.errorState) here
        match next.found with
        | some _ => here
        | none => skipUnreadable table src budget here next

/-- The token of a successful reading. A word that spells a keyword becomes that keyword where the
state can use it. -/
def tokenOf (table : Table) (src : Source) (state : Nat) (origin : Extent) (r : Source.Reading)
    (scanned : Scanned) (stop : Extent) : Subtree :=
  let symbol := table.symbolOf scanned
  let padding := r.start - origin
  let size := stop - r.start
  if symbol == Table.word then
    match (src.scan table.keywordScanner table.keywordScan r.start).found with
    | none => .leaf symbol padding size state false
    | some (kw, kwStop) =>
        let kwSymbol := table.symbolOf kw
        if kwStop.bytes == stop.bytes && table.accepts state kwSymbol then
          .leaf kwSymbol padding size state true
        else .leaf symbol padding size state true
  else .leaf symbol padding size state false

/-- The token at a position for a state. -/
def lookahead (table : Table) (src : Source) (state : Nat) (origin : Extent) : Subtree :=
  let first := src.scan table.scanner (table.scanStart state) origin
  match first.found with
  | some (scanned, stop) => tokenOf table src state origin first scanned stop
  | none =>
      let second :=
        if state == Table.errorState then first
        else src.scan table.scanner (table.scanStart Table.errorState) origin
      match second.found with
      | some (scanned, stop) => tokenOf table src state origin second scanned stop
      | none =>
          let stop := skipUnreadable table src (src.chars.size + 1) second.start second
          .leaf table.error (second.start - origin) (stop - second.start) state false

end JavaOutline.Parsing
