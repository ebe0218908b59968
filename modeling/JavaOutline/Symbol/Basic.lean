/-!
The symbols of a program: its classes and methods.
-/

namespace JavaOutline

inductive SymbolKind where
  | classDecl
  | methodDecl
  deriving DecidableEq, Repr, Inhabited

namespace SymbolKind

def name : SymbolKind → String
  | classDecl => "class"
  | methodDecl => "method"

def ofName? : String → Option SymbolKind
  | "class" => some classDecl
  | "method" => some methodDecl
  | _ => none

/-- The word for a kind stands for that kind. -/
@[simp] theorem ofName?_name (k : SymbolKind) : ofName? k.name = some k := by cases k <;> rfl

end SymbolKind

/-- A class or a method of a program. -/
structure Symbol where
  /-- Tells the symbol apart from all others of its program. -/
  id : String
  name : String
  kind : SymbolKind
  filePath : String
  /-- The text of the declaration. -/
  code : String
  /-- The first line of the declaration, counted from one. -/
  startLine : UInt32
  endLine : UInt32
  /-- The bytes before the declaration on its first line. -/
  indent : UInt32
  /-- The class that a method belongs to. -/
  parentClass : Option String
  /-- The plain names in a class's `extends` clause. -/
  superclasses : List String
  /-- The plain names in a class's `implements` clause. -/
  interfaces : List String
  /-- The methods of a class. -/
  methods : List String
  /-- The methods that a method calls. -/
  calls : List String
  summary : Option String
  deriving DecidableEq, Repr, Inhabited

namespace Symbol

def isClass (s : Symbol) : Bool := s.kind == .classDecl

def isMethod (s : Symbol) : Bool := s.kind == .methodDecl

def describe (s : Symbol) : String :=
  s!"Symbol(name='{s.name}', kind='{s.kind.name}', file_path='{s.filePath}', " ++
    s!"line={s.startLine.toNat})"

end Symbol

end JavaOutline
