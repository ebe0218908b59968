import JavaOutline.Symbol.Basic
import JavaOutline.Syntax.Mistake
import JavaOutline.Text.Blank
import JavaOutline.Text.Utf8

/-!
Drafts of symbols.

A draft is what one declaration says by itself: a symbol without the path of its file and without
an id. Which nodes matter is decided by the tree alone; texts are read from the bytes of the
content.
-/

namespace JavaOutline

open Syntax

/-- A symbol that is not yet tied to a file. -/
structure Draft where
  kind : SymbolKind
  name : String
  code : String
  startLine : UInt32
  endLine : UInt32
  indent : UInt32
  parentClass : Option String
  superclasses : List String
  interfaces : List String
  methods : List String
  calls : List String
  deriving DecidableEq, Repr, Inhabited

/-- What a node means for the outline of a program. -/
inductive Role where
  | classDeclaration
  | methodDeclaration
  | other
  deriving DecidableEq, Repr

def Role.ofKind (kind : String) : Role :=
  if kind = "class_declaration" then .classDeclaration
  else if kind = "method_declaration" then .methodDeclaration
  else .other

def invocationKind : String := "method_invocation"

def superclassKind : String := "superclass"

def interfacesKind : String := "super_interfaces"

def typeListKind : String := "type_list"

def plainTypeKind : String := "type_identifier"

namespace Draft

def textOf (content : List UInt8) (n : Node) : String :=
  Text.slice content n.info.start.byte n.info.stop.byte

/-- The name of a declaration; empty if the tree has none. -/
def nameOf (content : List UInt8) (n : Node) : String :=
  match n.name? with
  | some c => Text.trim (textOf content c)
  | none => ""

/-- The entries of a clause: its children, where the children of a type list stand for the list. -/
def clauseEntries (clause : Node) : List Node :=
  clause.children.flatMap fun c => if c.kind = typeListKind then c.children else [c]

/-- The plain names in the clauses of one kind. -/
def clauseNames (content : List UInt8) (kind : String) (n : Node) : List String :=
  let clauses := n.children.filter fun c => c.kind = kind
  let entries := (clauses.flatMap clauseEntries).filter fun e => e.kind = plainTypeKind
  entries.map fun e => Text.trim (textOf content e)

mutual

/-- The calls in a tree, the enclosing ones first. -/
def invocations : Node → List Node
  | .mk i cs => (if i.kind = invocationKind then [Node.mk i cs] else []) ++ invocationsIn cs

def invocationsIn : List Node → List Node
  | [] => []
  | n :: rest => invocations n ++ invocationsIn rest

end

/-- The names of the methods called anywhere in a tree. -/
def callsIn (content : List UInt8) (n : Node) : List String :=
  (invocations n).filterMap fun call => call.name?.map (textOf content)

/-- What every declaration has. -/
def located (content : List UInt8) (kind : SymbolKind) (n : Node) : Draft :=
  { kind
    name := nameOf content n
    code := textOf content n
    startLine := lineNumber n.info.start.row
    endLine := lineNumber n.info.stop.row
    indent := n.info.start.column.toUInt32
    parentClass := none
    superclasses := []
    interfaces := []
    methods := []
    calls := [] }

def ofClass (content : List UInt8) (methods : List String) (n : Node) : Draft :=
  { located content .classDecl n with
    superclasses := clauseNames content superclassKind n
    interfaces := clauseNames content interfacesKind n
    methods }

def ofMethod (content : List UInt8) (parentClass : Option String) (n : Node) : Draft :=
  { located content .methodDecl n with
    parentClass
    calls := callsIn content n }

/-- The name of a symbol within its file: a method's is preceded by that of its class. -/
def qualifiedName (d : Draft) : String :=
  match d.kind, d.parentClass with
  | .methodDecl, some parent => parent ++ "." ++ d.name
  | _, _ => d.name

def toSymbol (path id : String) (d : Draft) : Symbol :=
  { id
    name := d.name
    kind := d.kind
    filePath := path
    code := d.code
    startLine := d.startLine
    endLine := d.endLine
    indent := d.indent
    parentClass := d.parentClass
    superclasses := d.superclasses
    interfaces := d.interfaces
    methods := d.methods
    calls := d.calls
    summary := none }

end Draft

end JavaOutline
