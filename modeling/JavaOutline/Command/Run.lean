import JavaOutline.Command.Options
import JavaOutline.Project.Extract

/-!
The command: it prints a view of a project as JSON, or checks the syntax of its files.
-/

namespace JavaOutline.Command

def name : String := "comprehend"

def version : String := "0.1.0"

/-- What went wrong, followed by what lies behind it. -/
structure Failure where
  message : String
  causes : List String
  deriving DecidableEq, Repr

namespace Failure

def ofError (e : Error) : Failure := ⟨e.message, e.cause?.toList⟩

def because (message : String) (e : Error) : Failure := ⟨message, e.message :: e.cause?.toList⟩

/-- A text after a lead, with its further lines indented. -/
def indented (lead gap text : String) : String :=
  lead ++ ("\n" ++ gap).intercalate (text.splitOn "\n")

/-- A number in five columns. -/
def numbered (n : Nat) : String :=
  let digits := Nat.repr n
  String.ofList (List.replicate (5 - digits.length) ' ') ++ digits ++ ": "

/-- The causes, numbered if there are several. -/
def causeLines (f : Failure) : List String :=
  match f.causes with
  | [one] => [indented "    " "    " one]
  | several => several.zipIdx.map fun (c, i) => indented (numbered i) "       " c

def report (f : Failure) : String :=
  "Error: " ++ f.message ++ "\n" ++
    (if f.causes.isEmpty then ""
     else "\nCaused by:\n" ++ String.join (f.causeLines.map fun l => l ++ "\n"))

end Failure

structure Outcome where
  exitCode : Nat
  stdout : String
  /-- The report on what went wrong. -/
  stderr : Option String
  /-- The files after the run. -/
  files : FileSystem

def Options.project (o : Options) : Project :=
  { root := Path.ofString o.inputDir
    config :=
      { ProjectConfig.standard with
        exclude := ProjectConfig.standard.exclude ++ o.exclude
        useIgnoreFile := !o.noIgnoreFile
        parallel := !o.sequential } }

/-- A skipped file as an object, if its path is a text. -/
def skippedJson? (s : Skipped) : Option Json :=
  s.path.text?.map fun path => .obj [("path", .str path), ("reason", .str s.reason)]

def outputJson (namespaceName : String) (view : View) (e : Extraction) :
    Except Failure Json :=
  match e.skipped.mapM skippedJson? with
  | none => .error ⟨"path contains invalid UTF-8 characters", []⟩
  | some skipped =>
      .ok
        (.obj
          [("namespace", .str namespaceName), ("format", .str view.name),
            ("skipped", .arr skipped), ("records", e.symbols.toValue view)])

def Options.projectNamespace (o : Options) (fs : FileSystem) : Except Failure String :=
  match o.namespaceName with
  | some name => .ok name
  | none =>
      match fs.namespaceOf (Path.ofString o.inputDir) with
      | some name => .ok name
      | none => .error ⟨s!"cannot derive a namespace from '{o.inputDir}'", []⟩

def outputText (fs : FileSystem) (o : Options) : Except Failure String :=
  match o.projectNamespace fs with
  | .error failure => .error failure
  | .ok namespaceName =>
      match o.project.extract fs with
      | .error e => .error (.because s!"failed to extract '{o.inputDir}'" e)
      | .ok extraction => (outputJson namespaceName o.format extraction).map Json.toPretty

def Failure.ofWriting (path cause : String) : Failure := ⟨s!"failed to write '{path}'", [cause]⟩

/-- Extract a project and print it, or write it to a file. -/
def runExtract (fs : FileSystem) (o : Options) : Except Failure (String × FileSystem) :=
  match outputText fs o, o.output with
  | .error failure, _ => .error failure
  | .ok text, none => .ok (text ++ "\n", fs)
  | .ok text, some path =>
      match fs.write (Path.ofString path) (Text.encode text) with
      | .error f => .error (.ofWriting path f.message)
      | .ok files => .ok ("", files)

def mistakeReport (path : Path) (lines : List UInt32) : String :=
  String.join (lines.map fun l => s!"{path.display}:{l.toNat}: syntax error\n")

/-- Check files one after another: what is printed, and how many have mistakes. Files that cannot be
read are passed over. -/
def checkFiles (fs : FileSystem) : List Path → Except Error (String × Nat)
  | [] => .ok ("", 0)
  | path :: rest =>
      match readText fs path with
      | .error _ => checkFiles fs rest
      | .ok text =>
          (checkSyntax text).bind fun report =>
            match checkFiles fs rest with
            | .error e => .error e
            | .ok (printed, failing) =>
                if report.isValid then .ok (printed, failing)
                else .ok (mistakeReport path report.errorLines ++ printed, failing + 1)

/-- Check a project: what is printed, and what went wrong. -/
def runCheck (fs : FileSystem) (o : Options) : String × Option Failure :=
  match o.project.discoverFiles fs with
  | .error e => ("", some (.ofError e))
  | .ok files =>
      match checkFiles fs files with
      | .error e => ("", some (.ofError e))
      | .ok (printed, failing) =>
          if failing = 0 then (printed, none)
          else (printed, some ⟨s!"{failing} of {files.length} files have syntax errors", []⟩)

def runWith (fs : FileSystem) (o : Options) : Outcome :=
  if o.check then
    match runCheck fs o with
    | (printed, none) => ⟨0, printed, none, fs⟩
    | (printed, some failure) => ⟨1, printed, some failure.report, fs⟩
  else
    match runExtract fs o with
    | .ok (printed, files) => ⟨0, printed, none, files⟩
    | .error failure => ⟨1, "", some failure.report, fs⟩

def run (fs : FileSystem) (args : List String) : Outcome :=
  match Options.ofArguments args with
  | .ok o => runWith fs o
  | .error .usage => ⟨2, "", none, fs⟩
  | .error .help => ⟨0, "", none, fs⟩
  | .error .version => ⟨0, name ++ " " ++ version ++ "\n", none, fs⟩

end JavaOutline.Command
