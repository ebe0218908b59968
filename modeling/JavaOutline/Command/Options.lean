import JavaOutline.Symbol.View

/-!
The options of the command line.

Arguments are read from left to right, and the first that is wrong, or that asks for the version or
for help, decides.
-/

namespace JavaOutline.Command

structure Options where
  inputDir : String
  namespaceName : Option String
  format : View
  output : Option String
  exclude : List String
  noIgnoreFile : Bool
  sequential : Bool
  check : Bool
  verbose : Bool
  deriving DecidableEq, Repr

inductive Key where
  | inputDir
  | namespaceName
  | format
  | output
  | exclude
  deriving DecidableEq, Repr

inductive Switch where
  | noIgnoreFile
  | sequential
  | check
  | verbose
  | help
  | version
  deriving DecidableEq, Repr

def keyOf? : String → Option Key
  | "input-dir" => some .inputDir
  | "namespace" => some .namespaceName
  | "format" => some .format
  | "output" => some .output
  | "exclude" => some .exclude
  | _ => none

def switchOf? : String → Option Switch
  | "no-ignore-file" => some .noIgnoreFile
  | "sequential" => some .sequential
  | "check" => some .check
  | "verbose" => some .verbose
  | "help" => some .help
  | "version" => some .version
  | _ => none

def switchOfLetter? : Char → Option Switch
  | 'v' => some .verbose
  | 'h' => some .help
  | 'V' => some .version
  | _ => none

/-- What the arguments read so far say. -/
structure Progress where
  inputDir : Option String
  namespaceName : Option String
  format : Option View
  output : Option String
  exclude : List String
  switches : List Switch
  deriving DecidableEq, Repr

def Progress.empty : Progress := ⟨none, none, none, none, [], []⟩

/-- Why there are no options to go by. -/
inductive Refusal where
  | usage
  | help
  | version
  deriving DecidableEq, Repr

/-- Set a value that may be given once. -/
def once {α : Type} (old : Option α) (new : α) : Except Refusal (Option α) :=
  match old with
  | none => .ok (some new)
  | some _ => .error .usage

/-- Take in the value of an option. A path must not be empty, and all options but the exclusions may
be given only once. -/
def Progress.setValue (p : Progress) (key : Key) (value : String) : Except Refusal Progress :=
  match key with
  | .inputDir =>
      if value = "" then .error .usage
      else (once p.inputDir value).map fun v => { p with inputDir := v }
  | .namespaceName => (once p.namespaceName value).map fun v => { p with namespaceName := v }
  | .format =>
      match View.ofName? value with
      | none => .error .usage
      | some view => (once p.format view).map fun v => { p with format := v }
  | .output =>
      if value = "" then .error .usage
      else (once p.output value).map fun v => { p with output := v }
  | .exclude => .ok { p with exclude := p.exclude ++ [value] }

def Progress.setSwitch (p : Progress) (s : Switch) : Except Refusal Progress :=
  match s with
  | .help => .error .help
  | .version => .error .version
  | s => if s ∈ p.switches then .error .usage else .ok { p with switches := p.switches ++ [s] }

/-- Take in the letters of an argument one by one. -/
def Progress.setLetters (p : Progress) : List Char → Except Refusal Progress
  | [] => .ok p
  | c :: rest =>
      match switchOfLetter? c with
      | none => .error .usage
      | some s =>
          match p.setSwitch s with
          | .error r => .error r
          | .ok p => p.setLetters rest

inductive Argument where
  /-- `--`, after which there are no options. -/
  | separator
  | long (name : String) (value : Option String)
  | letters (letters : List Char)
  | plain (text : String)
  deriving DecidableEq, Repr

def Argument.ofString (s : String) : Argument :=
  match s.toList with
  | '-' :: '-' :: rest =>
      if rest = [] then .separator
      else
        let name := rest.takeWhile fun c => c != '='
        match rest.drop name.length with
        | [] => .long (String.ofList name) none
        | _ :: value => .long (String.ofList name) (some (String.ofList value))
  | '-' :: c :: rest => .letters (c :: rest)
  | _ => .plain s

/-- Read arguments. `waiting` is an option that still needs its value. -/
def readArguments (waiting : Option Key) (p : Progress) :
    List String → Except Refusal Progress
  | [] => if waiting.isSome then .error .usage else .ok p
  | a :: rest =>
      match waiting, Argument.ofString a with
      | some key, .plain value =>
          match p.setValue key value with
          | .error r => .error r
          | .ok p => readArguments none p rest
      | some _, _ => .error .usage
      | none, .plain _ => .error .usage
      | none, .separator => if rest = [] then .ok p else .error .usage
      | none, .letters letters =>
          match p.setLetters letters with
          | .error r => .error r
          | .ok p => readArguments none p rest
      | none, .long name value =>
          match keyOf? name, switchOf? name, value with
          | some key, _, some value =>
              match p.setValue key value with
              | .error r => .error r
              | .ok p => readArguments none p rest
          | some key, _, none => readArguments (some key) p rest
          | none, some s, none =>
              match p.setSwitch s with
              | .error r => .error r
              | .ok p => readArguments none p rest
          | _, _, _ => .error .usage

/-- The options that a list of arguments gives. The directory must be among them. -/
def Options.ofArguments (args : List String) : Except Refusal Options :=
  match readArguments none Progress.empty args with
  | .error r => .error r
  | .ok p =>
      match p.inputDir with
      | none => .error .usage
      | some inputDir =>
          .ok
            { inputDir
              namespaceName := p.namespaceName
              format := p.format.getD View.standard
              output := p.output
              exclude := p.exclude
              noIgnoreFile := decide (Switch.noIgnoreFile ∈ p.switches)
              sequential := decide (Switch.sequential ∈ p.switches)
              check := decide (Switch.check ∈ p.switches)
              verbose := decide (Switch.verbose ∈ p.switches) }

end JavaOutline.Command
