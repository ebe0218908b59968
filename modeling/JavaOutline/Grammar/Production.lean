import JavaOutline.Grammar.Rule

/-!
A grammar in production form.

`Productions.ofGrammar` numbers the tokens and the constructs of a grammar, turns repetitions into
constructs of their own and lists every construct's alternatives as plain sequences of symbols.
-/

namespace JavaOutline.Grammar

/-- A grammar symbol: the number of a token or of a construct. -/
inductive Sym where
  | token (index : Nat)
  | construct (index : Nat)
  deriving DecidableEq, Repr, Inhabited

/-- One place in a production. -/
structure Step where
  symbol : Sym
  level : Option Int := none
  assoc : Option Assoc := none
  label : Option String := none
  rename : Option String := none
  deriving DecidableEq, Repr, Inhabited

structure Production where
  steps : List Step
  dynamic : Int := 0
  deriving DecidableEq, Repr, Inhabited

/-- How a symbol shows in the tree. Auxiliary symbols exist only for repetition or as unnamed
patterns and are as invisible as hidden ones. -/
inductive Visibility where
  | hidden
  | auxiliary
  | anonymous
  | named
  deriving DecidableEq, Repr, Inhabited

def Visibility.isVisible : Visibility → Bool
  | .anonymous | .named => true
  | .hidden | .auxiliary => false

/-- A token: its name, how it shows, and the rule that spells it. -/
structure Terminal where
  name : String
  visibility : Visibility
  body : Rule
  deriving Repr, Inhabited

structure Variable where
  name : String
  visibility : Visibility
  alternatives : List Production
  deriving Repr, Inhabited

structure Productions where
  terminals : Array Terminal
  constructs : Array Variable
  extras : List Nat
  separators : CharSet
  word : Nat
  /-- The constructs that only group others. -/
  groups : List Nat
  /-- The name under which a construct always appears, if it is renamed everywhere. -/
  standingNames : Array (Option String)

namespace Productions

/-- Names that start with an underscore and groups stay out of the tree. -/
def ruleVisibility (g : Grammar) (name : String) : Visibility :=
  if name.startsWith "_" || g.groups.contains name then .hidden else .named

/-- A token met in the rules, with the number of places it was met in. -/
structure Sighting where
  terminal : Terminal
  uses : Nat
  deriving Inhabited

/-- Note one occurrence of a token of the construct `owner`. -/
def sight (owner : String) (body : Rule) (name : Option String)
    (seen : Array Sighting × Nat) : Array Sighting × Nat :=
  match seen.1.findIdx? (fun s => s.terminal.body == body) with
  | some i => (seen.1.modify i fun s => { s with uses := s.uses + 1 }, seen.2)
  | none =>
      match name with
      | some spelling => (seen.1.push ⟨⟨spelling, .anonymous, body⟩, 1⟩, seen.2)
      | none =>
          (seen.1.push ⟨⟨s!"{owner}_token{seen.2 + 1}", .auxiliary, body⟩, 1⟩, seen.2 + 1)

def sightAll (owner : String) : Rule → Array Sighting × Nat → Array Sighting × Nat
  | .blank, seen | .ref _, seen => seen
  | .text s, seen => sight owner (.text s) (some s) seen
  | .token i p b, seen => sight owner (.token i p b) none seen
  | .seq a b, seen | .alt a b, seen => sightAll owner b (sightAll owner a seen)
  | .some r, seen | .prec _ _ r, seen | .dynamic _ r, seen | .field _ r, seen
  | .named _ r, seen => sightAll owner r seen

def sightings (g : Grammar) : Array Sighting :=
  g.rules.foldl (fun seen (name, rule) => (sightAll name rule (seen, 0)).1) #[]

/-- The token that a rule consists of, if it is nothing but a token. -/
def soleToken? (seen : Array Sighting) : Rule → Option Nat
  | .text s => seen.findIdx? (fun x => x.terminal.body == .text s)
  | .token i p b => seen.findIdx? (fun x => x.terminal.body == .token i p b)
  | _ => none

/-- The token that a rule only gives a name to: the rule is a token that occurs nowhere else. -/
def namedToken? (g : Grammar) (seen : Array Sighting) (name : String) (rule : Rule) :
    Option Nat :=
  match soleToken? seen rule with
  | none => none
  | some i =>
      match seen[i]? with
      | none => none
      | some s =>
          if s.uses == 1 &&
              (s.terminal.visibility == .auxiliary || ruleVisibility g name != .hidden) then
            some i
          else none

/-- Repetitions that have become constructs, and how many of them the current owner has. -/
structure Repetitions where
  made : Array (String × Rule)
  count : Nat

/-- Replace every repetition in a rule by a construct of its own, innermost first. Equal
repetitions share one construct. -/
def liftRepetitions (owner : String) : Rule → Repetitions → Rule × Repetitions
  | .seq a b, reps =>
      let (a, reps) := liftRepetitions owner a reps
      let (b, reps) := liftRepetitions owner b reps
      (.seq a b, reps)
  | .alt a b, reps =>
      let (a, reps) := liftRepetitions owner a reps
      let (b, reps) := liftRepetitions owner b reps
      (.alt a b, reps)
  | .some r, reps =>
      let (r, reps) := liftRepetitions owner r reps
      match reps.made.find? (fun entry => entry.2 == r) with
      | some (name, _) => (.ref name, reps)
      | none =>
          let name := s!"{owner}_repeat{reps.count + 1}"
          (.ref name, { made := reps.made.push (name, r), count := reps.count + 1 })
  | .prec l a r, reps =>
      let (r, reps) := liftRepetitions owner r reps
      (.prec l a r, reps)
  | .dynamic l r, reps =>
      let (r, reps) := liftRepetitions owner r reps
      (.dynamic l r, reps)
  | .field l r, reps =>
      let (r, reps) := liftRepetitions owner r reps
      (.field l r, reps)
  | .named n r, reps =>
      let (r, reps) := liftRepetitions owner r reps
      (.named n r, reps)
  | r, reps => (r, reps)

/-- Of two preferences the one that is stronger in size; the first on a tie. -/
def strongerOf (a b : Int) : Int := if b.natAbs > a.natAbs then b else a

def Production.append (p q : Production) : Production :=
  ⟨p.steps ++ q.steps, strongerOf p.dynamic q.dynamic⟩

/-- Every way to read a rule without repetitions as a sequence of steps. The step `like` carries
the annotations that enclose the rule; `resolve` numbers its symbols. -/
def alternatives (resolve : Rule → Sym) : Step → Rule → List Production
  | _, .blank => [⟨[], 0⟩]
  | like, .text s => [⟨[{ like with symbol := resolve (.text s) }], 0⟩]
  | like, .token i p b => [⟨[{ like with symbol := resolve (.token i p b) }], 0⟩]
  | like, .ref n => [⟨[{ like with symbol := resolve (.ref n) }], 0⟩]
  | like, .seq a b =>
      (alternatives resolve like a).flatMap fun p =>
        (alternatives resolve like b).map fun q => Production.append p q
  | like, .alt a b => alternatives resolve like a ++ alternatives resolve like b
  | like, .some r => alternatives resolve like r
  | like, .prec l a r =>
      alternatives resolve { like with level := some l, assoc := a.or like.assoc } r
  | like, .dynamic l r =>
      (alternatives resolve like r).map fun p => { p with dynamic := strongerOf l p.dynamic }
  | like, .field l r => alternatives resolve { like with label := some l } r
  | like, .named n r => alternatives resolve { like with rename := some n } r

/-- Replace each inlined construct of a sequence of steps by its alternatives. The inserted steps
take over the label and name of the step they replace, and the last of them its precedence. -/
def inlineSteps (inlined : Nat → Option (List Production)) : List Step → List Production
  | [] => [⟨[], 0⟩]
  | s :: rest =>
      let tails := inlineSteps inlined rest
      let bodies :=
        match s.symbol with
        | .token _ => none
        | .construct i => inlined i
      match bodies with
      | none => tails.map fun t => { t with steps := s :: t.steps }
      | some bodies =>
          bodies.flatMap fun p =>
            let inserted := p.steps.map fun x =>
              { x with label := s.label.or x.label, rename := s.rename.or x.rename }
            let inserted := inserted.dropLast ++ inserted.getLast?.toList.map fun x =>
              { x with level := x.level.or s.level, assoc := x.assoc.or s.assoc }
            tails.map fun t =>
              ⟨inserted ++ t.steps, strongerOf t.dynamic p.dynamic⟩

/-- The name under which the construct `i` appears at each of its occurrences, if it is renamed
at all of them; the most frequent name, the earliest on a tie. -/
def standingName? (all : List Step) (i : Nat) : Option String :=
  let occurrences := all.filter fun s => s.symbol == .construct i
  if occurrences.any fun s => s.rename.isNone then none
  else
    let names := occurrences.filterMap fun s => s.rename
    names.eraseDups.foldl
      (fun best n =>
        match best with
        | none => some n
        | some b => if names.count n > names.count b then some n else some b)
      none

/-- Number tokens and constructs and list every construct's alternatives. -/
def ofGrammar (g : Grammar) : Productions :=
  let seen := sightings g
  -- Rules that only name a token give way to that token.
  let (naming, kept) := (g.rules.zipIdx).partition fun ((name, rule), i) =>
    i > 0 && (namedToken? g seen name rule).isSome
  let namings := naming.filterMap fun ((name, rule), _) =>
    (namedToken? g seen name rule).map fun t => (name, t)
  let terminals := namings.foldl
    (fun (ts : Array Terminal) (name, t) =>
      ts.modify t fun x => { x with name := name, visibility := ruleVisibility g name })
    (seen.map fun s => s.terminal)
  -- Repetitions follow the other constructs.
  let (lifted, reps) := kept.foldl
    (fun (acc : Array (String × Visibility × Rule) × Repetitions) ((name, rule), _) =>
      let (rule, reps) := liftRepetitions name rule { acc.2 with count := 0 }
      (acc.1.push (name, ruleVisibility g name, rule), reps))
    (#[], ⟨#[], 0⟩)
  let plain := lifted ++ reps.made.map fun (name, rule) =>
    (name, Visibility.auxiliary, Rule.alt (.seq (.ref name) (.ref name)) rule)
  let numberOf (name : String) : Sym :=
    match namings.find? fun (n, _) => n == name with
    | some (_, t) => .token t
    | none => .construct ((plain.findIdx? fun (n, _) => n == name).getD 0)
  let resolve : Rule → Sym
    | .ref name => numberOf name
    | rule => .token ((soleToken? seen rule).getD 0)
  let flat := plain.map fun (_, _, rule) =>
    (alternatives resolve { symbol := .token 0 } rule).eraseDups
  let isInlined (i : Nat) : Bool :=
    match plain[i]? with
    | some (name, _) => g.inlined.contains name
    | none => false
  let allSteps := flat.toList.flatten.flatMap fun p => p.steps
  let standingNames := (Array.range plain.size).map fun i =>
    if isInlined i then none else standingName? allSteps i
  -- A construct that always goes by the same name needs no renaming at each place.
  let settle (s : Step) : Step :=
    match s.symbol with
    | .token _ => s
    | .construct i =>
        if s.rename.isSome && s.rename == standingNames.getD i none then { s with rename := none }
        else s
  let settled := flat.map fun ps => ps.map fun p => { p with steps := p.steps.map settle }
  let inlined (i : Nat) : Option (List Production) :=
    if isInlined i then settled[i]? else none
  let constructs := plain.zipIdx.map fun ((name, visibility, _), i) =>
    { name, visibility
      alternatives := ((settled.getD i []).flatMap fun p =>
        (inlineSteps inlined p.steps).map fun q =>
          { q with dynamic := strongerOf p.dynamic q.dynamic }).eraseDups }
  { terminals, constructs, standingNames
    separators := g.separators
    extras := g.extras.filterMap fun name =>
      match numberOf name with
      | .token t => some t
      | .construct _ => none
    word := match numberOf g.word with
      | .token t => t
      | .construct _ => 0
    groups := g.groups.map fun name => (plain.findIdx? fun (n, _) => n == name).getD 0 }

end Productions

end JavaOutline.Grammar
