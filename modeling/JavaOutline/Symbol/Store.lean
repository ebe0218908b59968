import JavaOutline.Symbol.Basic

/-!
Collections of symbols in a fixed order.

Nothing is ever removed or reordered; only summaries are added to symbols.
-/

namespace JavaOutline

/-- Symbols in the order in which they were found. -/
structure Store where
  symbols : List Symbol
  deriving DecidableEq, Repr, Inhabited

namespace Store

def empty : Store := ⟨[]⟩

def extend (s : Store) (symbols : List Symbol) : Store := ⟨s.symbols ++ symbols⟩

def size (s : Store) : Nat := s.symbols.length

def isEmpty (s : Store) : Bool := s.symbols.isEmpty

def ofKind (s : Store) (kind : SymbolKind) : List Symbol :=
  s.symbols.filter fun x => x.kind == kind

def classes (s : Store) : List Symbol := s.ofKind .classDecl

def methods (s : Store) : List Symbol := s.ofKind .methodDecl

/-- The first symbol with the given id. -/
def get? (s : Store) (id : String) : Option Symbol := s.symbols.find? fun x => x.id == id

def withSummary (summary : String) (x : Symbol) : Symbol := { x with summary := some summary }

/-- Look for the first symbol with the given id and give it a summary; says whether there was
one. -/
def attachIn (id summary : String) : List Symbol → List Symbol × Bool
  | [] => ([], false)
  | x :: rest =>
      if x.id = id then (withSummary summary x :: rest, true)
      else
        let (changed, found) := attachIn id summary rest
        (x :: changed, found)

/-- Give the first symbol with the given id a summary; says whether there was one. -/
def attach (s : Store) (id summary : String) : Store × Bool :=
  let (symbols, found) := attachIn id summary s.symbols
  (⟨symbols⟩, found)

/-- Give the symbol at a position a summary; says whether there was one. -/
def attachAt (s : Store) (index : Nat) (summary : String) : Store × Bool :=
  (⟨s.symbols.modify index (withSummary summary)⟩, decide (index < s.size))

/-- The elements of a list without those that occurred before. -/
def firstOccurrences : List String → List String → List String
  | _, [] => []
  | seen, a :: rest =>
      if a ∈ seen then firstOccurrences seen rest else a :: firstOccurrences (a :: seen) rest

/-- The files that the symbols come from, in the order in which they first occur. -/
def files (s : Store) : List String := firstOccurrences [] (s.symbols.map Symbol.filePath)

def inFile (s : Store) (path : String) : List Symbol :=
  s.symbols.filter fun x => x.filePath == path

/-- Attach the results of summarizing, position by position; counts the successes. -/
def attachResults : List (Option String) → Nat → Store × Nat → Store × Nat
  | [], _, acc => acc
  | none :: rest, index, acc => attachResults rest (index + 1) acc
  | some summary :: rest, index, (s, count) =>
      let (s, attached) := s.attachAt index summary
      attachResults rest (index + 1) (s, if attached then count + 1 else count)

/-- Summarize every symbol. All summaries are made before the first is attached; a symbol for which
there is none stays as it was. Also says how many were attached. -/
def summarizeAll (s : Store) (summarize : Symbol → Option String) : Store × Nat :=
  attachResults (s.symbols.map summarize) 0 (s, 0)

end Store

end JavaOutline
