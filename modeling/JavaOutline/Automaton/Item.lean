import JavaOutline.Grammar.Production

/-!
Items of a grammar: productions with a mark that shows how much of them has been read.

Two items count as one when nothing that is still to be read, or that shows in the finished node,
tells them apart. `ItemTable.ofProductions` numbers the classes of this relation in a fixed order
and tabulates what the automaton needs to know about each of them.
-/

namespace JavaOutline.Automaton

open Grammar

/-- A set of tokens as a bit mask. The bit after the last token stands for the end of the text. -/
abbrev TokenSet := Nat

/-- How the parts of a production appear in the finished node: other names, by place, and labels
with their place. A label is inherited when it belongs to a part of a hidden child. -/
structure Shape where
  renames : List (Option String)
  labels : List (String × Nat × Bool)
  deriving DecidableEq, Repr, Inhabited

structure Reduction where
  construct : Nat
  count : Nat
  dynamic : Int
  shape : Nat
  deriving DecidableEq, Repr, Inhabited

/-- What the automaton knows about a class of items. Symbols are coded as one range of numbers:
tokens first, constructs after them. -/
structure ItemInfo where
  /-- The symbol after the mark. -/
  next : Option Nat
  /-- The class reached by reading it. -/
  advanced : Nat
  /-- What can follow the next symbol inside the production, if anything does. -/
  follow : Option TokenSet
  construct : Nat
  level : Int
  assoc : Option Assoc
  /-- Whether the mark is past the beginning. -/
  started : Bool
  reduction : Nat
  deriving Inhabited

/-- A construct that may begin where another one begins: the tokens that can follow it there for
certain, and whether what follows the other one can follow it too. -/
structure Opening where
  construct : Nat
  follow : TokenSet
  inherits : Bool
  deriving DecidableEq, Inhabited

structure ItemTable where
  tokenCount : Nat
  constructCount : Nat
  items : Array ItemInfo
  reductions : Array Reduction
  shapes : Array Shape
  /-- The class with which a text begins. -/
  start : Nat
  /-- The tokens a symbol can begin with, by symbol code. -/
  first : Array TokenSet
  /-- The tokens a symbol can end with, by symbol code. -/
  last : Array TokenSet
  /-- By construct: the constructs that may begin where it begins, itself included. -/
  openings : Array (Array Opening)
  /-- By construct: each first symbol with the class reached by reading it. -/
  starters : Array (Array (Nat × Nat))
  /-- By construct: the class of its empty alternative. -/
  blanks : Array (Option Nat)
  /-- By construct: whether it stands for a repetition. -/
  repeats : Array Bool

namespace ItemTable

def code (tokenCount : Nat) : Sym → Nat
  | .token i => i
  | .construct i => tokenCount + i

/-- One round of collecting labels: those a construct gives itself and those of its hidden
parts. -/
def labelRound (p : Productions) (known : Array (List String)) : Array (List String) :=
  p.constructs.mapIdx fun i v =>
    v.alternatives.foldl
      (fun labels prod => prod.steps.foldl
        (fun labels s =>
          let own := s.label.toList
          let inherited :=
            match s.symbol with
            | .token _ => []
            | .construct j =>
                match p.constructs[j]? with
                | some w => if w.visibility.isVisible then [] else known.getD j []
                | none => []
          (own ++ inherited).foldl
            (fun labels l => if labels.contains l then labels else l :: labels) labels)
        labels)
      (known.getD i [])

/-- Repeat a step until nothing changes, at most `budget` times. -/
def settle {α : Type} [BEq α] (step : α → α) : Nat → α → α
  | 0, a => a
  | budget + 1, a =>
      let b := step a
      if b == a then a else settle step budget b

/-- By construct: the labels of its parts, those of hidden parts included, in order. -/
def labels (p : Productions) : Array (List String) :=
  (settle (labelRound p) p.constructs.size (p.constructs.map fun _ => [])).map fun ls =>
    ls.mergeSort (fun a b => decide (a ≤ b))

/-- One round of collecting the tokens at one end of every construct. -/
def edgeRound (p : Productions) (edge : List Step → Option Step) (known : Array TokenSet) :
    Array TokenSet :=
  p.constructs.mapIdx fun i v =>
    v.alternatives.foldl
      (fun set prod =>
        match edge prod.steps with
        | none => set
        | some s =>
            match s.symbol with
            | .token t => set ||| (1 <<< t)
            | .construct j => set ||| known.getD j 0)
      (known.getD i 0)

/-- By symbol code: the tokens at one end of the symbol. -/
def edges (p : Productions) (edge : List Step → Option Step) : Array TokenSet :=
  (Array.range p.terminals.size).map (fun t => 1 <<< t) ++
    settle (edgeRound p edge) p.constructs.size (p.constructs.map fun _ => 0)

/-- One round of collecting openings: whatever may begin where a known opening begins. -/
def openingRound (p : Productions) (first : Array TokenSet) (known : Array Opening) :
    Array Opening :=
  known.foldl
    (fun acc o =>
      match p.constructs[o.construct]? with
      | none => acc
      | some v => v.alternatives.foldl
          (fun acc prod =>
            match prod.steps with
            | ⟨.construct j, _, _, _, _⟩ :: rest =>
                let added : Opening :=
                  match rest with
                  | [] => ⟨j, o.follow, o.inherits⟩
                  | s :: _ => ⟨j, first.getD (code p.terminals.size s.symbol) 0, false⟩
                match acc.findIdx? (fun x => x.construct == j) with
                | some k => acc.modify k fun x =>
                    { x with
                      follow := x.follow ||| added.follow
                      inherits := x.inherits || added.inherits }
                | none => acc.push added
            | _ => acc)
          acc)
    known

/-- The place of a name in an ordered list, from one on; zero for no name. -/
def nameRank (names : List String) : Option String → Nat
  | none => 0
  | some n => names.idxOf n + 1

def levelRank : Option Int → Nat
  | none => 0
  | some l => (l + 1000).toNat

def assocRank : Option Assoc → Nat
  | none => 0
  | some .left => 1
  | some .right => 2

/-- Everything that tells an item from others, most significant first. Steps already read count
only by the names and labels they give, unless a hidden one among them has labels of its own. -/
def itemKey (tokenCount : Nat) (names : List String) (construct : Nat) (prod : Production)
    (mark : Nat) (inherited : Bool) : List Nat :=
  let previous := if mark = 0 then none else prod.steps[mark - 1]?
  [mark, construct, (prod.dynamic + 1000).toNat, prod.steps.length,
   levelRank (previous.bind fun s => s.level), assocRank (previous.bind fun s => s.assoc),
   if inherited then 1 else 0] ++
  prod.steps.zipIdx.flatMap fun (s, i) =>
    if i < mark then
      [nameRank names s.rename, nameRank names s.label,
       if inherited then code tokenCount s.symbol + 1 else 0]
    else
      [code tokenCount s.symbol + 1, levelRank s.level, assocRank s.assoc,
       nameRank names s.rename, nameRank names s.label]

def shapeOf (p : Productions) (labelsOf : Array (List String)) (prod : Production) : Shape where
  renames :=
    (prod.steps.map fun s => s.rename).reverse.dropWhile (fun r => r.isNone) |>.reverse
  labels := prod.steps.zipIdx.flatMap fun (s, i) =>
    (s.label.toList.map fun l => (l, i, false)) ++
    match s.symbol with
    | .token _ => []
    | .construct j =>
        match p.constructs[j]? with
        | some w =>
            if w.visibility.isVisible then []
            else (labelsOf.getD j []).map fun l => (l, i, true)
        | none => []

/-- Whether reading the first `mark` steps passes a hidden construct with labels. -/
def passesLabels (p : Productions) (labelsOf : Array (List String)) (prod : Production)
    (mark : Nat) : Bool :=
  (prod.steps.take mark).any fun s =>
    match s.symbol with
    | .token _ => false
    | .construct j =>
        match p.constructs[j]? with
        | some w => !w.visibility.isVisible && !(labelsOf.getD j []).isEmpty
        | none => false

/-- Lexicographic order of sort keys. -/
def keyLe : List Nat → List Nat → Bool
  | [], _ => true
  | _ :: _, [] => false
  | a :: as, b :: bs => if a < b then true else if b < a then false else keyLe as bs

structure Entry where
  construct : Nat
  production : Production
  base : Nat
  deriving Inhabited

/-- Number the entries' items one after another. -/
def layOut : List (Nat × Production) → Nat → List Entry
  | [], _ => []
  | (v, prod) :: rest, base => ⟨v, prod, base⟩ :: layOut rest (base + prod.steps.length + 1)

/-- The position of an element, which is appended if it is new. -/
def intern {α : Type} [BEq α] (table : Array α) (a : α) : Array α × Nat :=
  match table.findIdx? (fun b => b == a) with
  | some i => (table, i)
  | none => (table.push a, table.size)

def ofProductions (p : Productions) : ItemTable :=
  let tokenCount := p.terminals.size
  let augmented := p.constructs.size
  let labelsOf := labels p
  let first := edges p List.head?
  let last := edges p List.getLast?
  let flat := (p.constructs.toList.zipIdx.flatMap fun (v, i) =>
      v.alternatives.map fun prod => (i, prod)) ++
    [(augmented, ⟨[{ symbol := .construct 0 }], 0⟩)]
  let entries := layOut flat 0
  let names := (flat.flatMap fun (_, prod) =>
      prod.steps.flatMap fun s => s.rename.toList ++ s.label.toList).eraseDups.mergeSort
    (fun a b => decide (a ≤ b))
  -- Every item with its key, in the order of the keys.
  let keyed := (entries.flatMap fun e =>
      (List.range (e.production.steps.length + 1)).map fun mark =>
        (itemKey tokenCount names e.construct e.production mark
          (passesLabels p labelsOf e.production mark), e, mark)).mergeSort
    (fun a b => keyLe a.1 b.1)
  -- Number the classes in that order.
  let itemCount := keyed.length
  let (classOf, leaders) := (keyed.foldl
    (fun (acc : (Array Nat × Array (Entry × Nat)) × Option (List Nat)) (key, e, mark) =>
      let ((classOf, leaders), previous) := acc
      let leaders := if previous == some key then leaders else leaders.push (e, mark)
      ((classOf.setIfInBounds (e.base + mark) (leaders.size - 1), leaders), some key))
    ((Array.replicate itemCount 0, #[]), none)).1
  -- Shapes and reductions, the plain shape first.
  let shapeList := entries.map fun e => shapeOf p labelsOf e.production
  let shapes := (shapeList.foldl (fun table s => (intern table s).1) #[⟨[], []⟩])
  let reductionOf (e : Entry) : Reduction :=
    ⟨e.construct, e.production.steps.length, e.production.dynamic,
      (shapes.findIdx? (fun s => s == shapeOf p labelsOf e.production)).getD 0⟩
  let (items, reductions) := leaders.foldl
    (fun (acc : Array ItemInfo × Array Reduction) (e, mark) =>
      let (items, reductions) := acc
      let previous := if mark = 0 then none else e.production.steps[mark - 1]?
      let (reductions, reduction) :=
        if mark = e.production.steps.length then intern reductions (reductionOf e)
        else (reductions, 0)
      (items.push
        { next := (e.production.steps[mark]?).map fun s => code tokenCount s.symbol
          advanced := classOf.getD (e.base + mark + 1) 0
          follow := (e.production.steps[mark + 1]?).map fun s =>
            first.getD (code tokenCount s.symbol) 0
          construct := e.construct
          level := (previous.bind fun s => s.level).getD 0
          assoc := previous.bind fun s => s.assoc
          started := mark > 0
          reduction }, reductions))
    (#[], #[])
  let starters := (Array.range (augmented + 1)).map fun v =>
    ((entries.filterMap fun e =>
      if e.construct == v then
        (e.production.steps.head?).map fun s =>
          (code tokenCount s.symbol, classOf.getD (e.base + 1) 0)
      else none).eraseDups).toArray
  let blanks := (Array.range (augmented + 1)).map fun v =>
    (entries.find? fun e => e.construct == v && e.production.steps.isEmpty).map fun e =>
      classOf.getD e.base 0
  { tokenCount, items, reductions, shapes, first, last, starters, blanks
    constructCount := p.constructs.size
    start := match entries.getLast? with
      | some e => classOf.getD e.base 0
      | none => 0
    openings := (Array.range p.constructs.size).map fun v =>
      settle (openingRound p first) (2 * p.constructs.size) #[⟨v, 0, true⟩]
    repeats := p.constructs.map fun v => v.visibility == .auxiliary }

end ItemTable

end JavaOutline.Automaton
