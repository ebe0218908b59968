import JavaOutline.Automaton.Merge
import JavaOutline.Lexing.Scanner

/-!
The finished parse table of a grammar.

Symbols are numbered anew: 0 is the end of the text, 1 the word token, the other tokens follow,
and the constructs come after all tokens. Two numbers beyond these stand for stretches of text
that could not be understood.
-/

namespace JavaOutline.Automaton

open Grammar Lexing

structure SymbolInfo where
  name : String
  visible : Bool
  named : Bool
  deriving Inhabited, Repr

structure Row where
  /-- By token number: what to do. -/
  actions : Array (List Action)
  /-- The tokens that may be kept if they were scanned for another state. -/
  reusable : TokenSet
  /-- By construct: the next state; zero where there is none. -/
  targets : Array Nat
  /-- The scanner state from which tokens are looked for. -/
  scan : Nat
  deriving Inhabited

structure Table where
  tokenCount : Nat
  rows : Array Row
  symbols : Array SymbolInfo
  reductions : Array Reduction
  shapes : Array Shape
  scanner : Scanner
  /-- By grammar token: its number as a symbol. -/
  numbers : Array Nat
  keywordScanner : Scanner
  keywordScan : Nat
  deriving Inhabited

namespace Table

/-- The state entered after an error. -/
def errorState : Nat := 0

def startState : Nat := 1

def finish : Nat := 0

/-- The symbol from which keywords are told apart. -/
def word : Nat := 1

/-- The symbol of a run of skipped tokens that is still growing. -/
def errorRun (t : Table) : Nat := t.symbols.size - 2

/-- The symbol of a stretch of text that could not be understood. -/
def error (t : Table) : Nat := t.symbols.size - 1

/-- What to do in a state on a token. -/
def actions (t : Table) (state symbol : Nat) : List Action :=
  if symbol < t.tokenCount then (t.rows.getD state default).actions.getD symbol [] else []

def accepts (t : Table) (state symbol : Nat) : Bool := !(t.actions state symbol).isEmpty

/-- Whether the first thing to do in a state on a token is to complete a production. -/
def reducesOn (t : Table) (state symbol : Nat) : Bool :=
  match t.actions state symbol with
  | .reduce _ :: _ => true
  | _ => false

/-- The state after a symbol, or the error state if there is none. -/
def next (t : Table) (state symbol : Nat) : Nat :=
  if symbol < t.tokenCount then
    match (t.actions state symbol).getLast? with
    | some (.shift target _) => target
    | some .shiftExtra => state
    | _ => errorState
  else (t.rows.getD state default).targets.getD (symbol - t.tokenCount) errorState

def isReusable (t : Table) (state symbol : Nat) : Bool :=
  (t.rows.getD state default).reusable.testBit symbol

def scanStart (t : Table) (state : Nat) : Nat := (t.rows.getD state default).scan

def info (t : Table) (symbol : Nat) : SymbolInfo := t.symbols.getD symbol default

/-- The tokens that may be assumed though they are not in the text: those that show in the tree, so
that the assumption shows too. -/
def assumable (t : Table) : List Nat :=
  ((List.range t.tokenCount).drop 1).filter fun token => (t.info token).visible

def symbolOf (t : Table) : Scanned → Nat
  | .token i => t.numbers.getD i 0
  | .finish => finish

def tokenNumber (word t : Nat) : Nat :=
  if t == word then 1 else if t < word then t + 2 else t + 1

/-- The tokens that are looked for after an error: all but those that would hide a token that no
other token disturbs. -/
def recoveryTokens (overlaps : OverlapTable) (together : Array TokenSet) (keywords : TokenSet)
    (word : Nat) : TokenSet :=
  let tokens := List.range overlaps.size
  let apart (i j : Nat) : Bool := !(together.getD i 0).testBit j
  let undisturbed := tokens.filter fun i =>
    tokens.all fun j => j == i || !apart i j || !overlaps.stretches i j
  tokens.foldl
    (fun set i =>
      let kept := undisturbed.contains i || keywords.testBit i || i == word ||
        undisturbed.all fun j => !apart i j || !overlaps.conflicts i j
      if kept then set ||| (1 <<< i) else set)
    0

/-- For each token, the tokens that must not be looked for with one scanner state together with
it when only one of the two is wanted. -/
def hindrances (overlaps : OverlapTable) (together : Array TokenSet) : Array TokenSet :=
  (Array.range overlaps.size).map fun i =>
    Nat.fold overlaps.size
      (fun j _ set =>
        let hinders := overlaps.conflicts i j || (overlaps.get i j).isPrefix ||
          (!(together.getD i 0).testBit j && (overlaps.overlaps j i || overlaps.overlaps i j))
        if hinders then set ||| (1 <<< j) else set)
      0

/-- Whether two sets of tokens may be looked for with one scanner state: no token of one alone
hinders a token of the other. -/
def compatible (hinder : Array TokenSet) (a b : TokenSet) : Bool :=
  a == b || Nat.all hinder.size fun i _ =>
    if a.testBit i then b.testBit i || (hinder.getD i 0) &&& b == 0
    else !b.testBit i || (hinder.getD i 0) &&& a == 0

/-- Assign to each set of tokens the first earlier class of sets it is compatible with. -/
def scanClasses (hinder : Array TokenSet) (sets : List TokenSet) :
    Array TokenSet × Array Nat :=
  sets.foldl
    (fun (acc : Array TokenSet × Array Nat) set =>
      match acc.1.findIdx? (fun c => compatible hinder c set) with
      | some k => (acc.1.modify k fun c => c ||| set, acc.2.push k)
      | none => (acc.1.push set, acc.2.push acc.1.size))
    (#[], #[])

/-- The constructs whose completion from a single part leaves no trace in the tree. -/
def traceless (p : Productions) : Array Bool :=
  let renamed := (p.constructs.toList.flatMap fun v => v.alternatives.flatMap fun prod =>
    prod.steps.filterMap fun s => if s.rename.isSome then some s.symbol else none).eraseDups
  p.constructs.mapIdx fun i v =>
    v.visibility != .named && !p.groups.contains i && (p.standingNames.getD i none).isNone &&
      !renamed.contains (.construct i)

def symbolInfos (p : Productions) : Array SymbolInfo :=
  let info (t : Terminal) : SymbolInfo :=
    ⟨t.name, t.visibility.isVisible, t.visibility == .named⟩
  let wordInfo := (p.terminals[p.word]?).toList.map info
  let others :=
    (p.terminals.toList.zipIdx.filter fun (_, i) => i != p.word).map fun (t, _) => info t
  let constructs := p.constructs.toList.zipIdx.map fun (v, i) =>
    match p.standingNames.getD i none with
    | some name => SymbolInfo.mk name true true
    | none => SymbolInfo.mk v.name v.visibility.isVisible
        (v.visibility == .named || p.groups.contains i)
  let ending := SymbolInfo.mk "end" false true
  let errors := [SymbolInfo.mk "_ERROR" false false, SymbolInfo.mk "ERROR" true true]
  (ending :: wordInfo ++ others ++ constructs ++ errors).toArray

def distinct (sets : Array TokenSet) : List TokenSet :=
  (sets.foldl (fun (pool : Draft.SetPool) set => (pool.add set).1) ⟨#[], {}⟩).sets.toList

/-- The state entered after an error. It leads nowhere: extras stay extras, and every other token
that is looked for there asks for recovery. -/
def recoveryState (extras : List Nat) (tokens : TokenSet) (size : Nat) : State :=
  let actions := (List.range (size + 1)).filterMap fun t =>
    if extras.contains t then some (t, [Action.shiftExtra])
    else if tokens.testBit t || t == size then some (t, [Action.recover])
    else none
  ⟨actions.toArray, #[], 0⟩

def rowOf (p : Productions) (overlaps : OverlapTable) (keep : Bool) (scan : Nat) (s : State) :
    Row :=
  let size := p.terminals.size
  let number (t : Nat) : Nat := if t == size then finish else tokenNumber p.word t
  let valid := s.tokens
  let reusable := s.actions.foldl
    (fun set (t, as) =>
      let disturbed := t < size && Nat.any size fun i _ =>
        valid.testBit i && overlaps.overlaps i t
      if !disturbed && (keep || as == [.shiftExtra]) then set ||| (1 <<< number t) else set)
    0
  { actions := s.actions.foldl (fun a (t, as) => a.setIfInBounds (number t) as)
      (Array.replicate (size + 1) [])
    reusable
    targets := s.targets.foldl (fun a (v, target) => a.setIfInBounds v target)
      (Array.replicate p.constructs.size 0)
    scan }

def ofProductions (p : Productions) : Table :=
  let size := p.terminals.size
  let items := ItemTable.ofProductions p
  let lexemes := p.terminals.map (Lexeme.ofTerminal p.separators)
  let overlaps := OverlapTable.ofLexemes lexemes
    (followingLetters lexemes (followingTokens p items))
  let draft := Draft.build items p.extras
  let tokenSets := distinct (draft.map State.tokens)
  let together := companions size tokenSets
  let kws := Lexing.keywords lexemes overlaps p.word tokenSets
  let clashes := Merge.clashTable overlaps p.word kws
  let joined := Merge.join draft (Merge.groups clashes draft)
  let marks := traceless p
  let states := Merge.orderBySize
    (Merge.dropUnused (Merge.bypass items (fun v => marks.getD v false) joined))
  let recovery := recoveryTokens overlaps together kws p.word
  let states := states.setIfInBounds errorState (recoveryState p.extras recovery size)
  -- Keywords are looked for as words.
  let scanSets := states.toList.map fun s =>
    let plain := s.tokens
    let spelled := plain &&& kws
    if spelled == 0 then plain else (plain ^^^ spelled) ||| (1 <<< p.word)
  let (classes, classOf) := scanClasses (hindrances overlaps together) scanSets
  let (scanner, starts) := Scanner.ofSets lexemes classes.toList
  let (keywordScanner, keywordStarts) := Scanner.ofSets lexemes [kws]
  { tokenCount := size + 1
    rows := states.mapIdx fun i s =>
      rowOf p overlaps (i != errorState) (starts.getD (classOf.getD i 0) 0) s
    symbols := symbolInfos p
    reductions := items.reductions.map fun r => { r with construct := size + 1 + r.construct }
    shapes := items.shapes
    scanner, keywordScanner
    keywordScan := keywordStarts.getD 0 0
    numbers := (Array.range size).map (tokenNumber p.word) }

end Table

end JavaOutline.Automaton
