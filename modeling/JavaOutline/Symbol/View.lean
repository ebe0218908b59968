import JavaOutline.Digest.Blake3
import JavaOutline.Doc.Insert
import JavaOutline.Symbol.Codec

/-!
Views of a store: what the users of an outline want to know of its symbols.
-/

namespace JavaOutline

inductive View where
  | symbols
  | docs
  | classes
  | index
  deriving DecidableEq, Repr

namespace View

def name : View → String
  | symbols => "symbols"
  | docs => "docs"
  | classes => "classes"
  | index => "index"

def ofName? : String → Option View
  | "symbols" => some symbols
  | "docs" => some docs
  | "classes" => some classes
  | "index" => some index
  | _ => none

/-- The view that is meant when none is named. -/
def standard : View := symbols

/-- What is said when there is no view of the given name. -/
def unknownMessage (name : String) : String :=
  s!"unknown view '{name}': expected symbols, docs, classes or index"

end View

/-- A class in short. -/
structure ClassOverview where
  name : String
  filePath : String
  summary : Option String
  deriving DecidableEq, Repr

def ClassOverview.ofSymbol (s : Symbol) : ClassOverview := ⟨s.name, s.filePath, s.summary⟩

/-- What an index keeps of a symbol beside its content. -/
structure IndexMetadata where
  id : String
  name : String
  kind : SymbolKind
  filePath : String
  startLine : UInt32
  endLine : UInt32
  parentClass : String
  hasSuperclasses : Bool
  hasInterfaces : Bool
  methodCount : Nat
  callCount : Nat
  sourceHash : String
  deriving DecidableEq, Repr

structure IndexRecord where
  id : String
  content : String
  metadata : IndexMetadata
  deriving DecidableEq, Repr

def IndexRecord.ofSymbol (s : Symbol) : IndexRecord :=
  { id := s.id
    content := s.code ++ "\n\n" ++ s.summary.getD ""
    metadata :=
      { id := s.id
        name := s.name
        kind := s.kind
        filePath := s.filePath
        startLine := s.startLine
        endLine := s.endLine
        parentClass := s.parentClass.getD ""
        hasSuperclasses := !s.superclasses.isEmpty
        hasInterfaces := !s.interfaces.isEmpty
        methodCount := s.methods.length
        callCount := s.calls.length
        sourceHash := Digest.ofText s.code } }

def Doc.Target.toJson (t : Doc.Target) : Json :=
  .obj
    [("code", .str t.code), ("type", .str t.kind.name), ("name", .str t.name),
      ("file_path", .str t.filePath), ("start_line", .nat t.startLine.toNat),
      ("indent", .nat t.indent.toNat)]

def ClassOverview.toJson (c : ClassOverview) : Json :=
  .obj
    [("name", .str c.name), ("file_path", .str c.filePath),
      ("summary", Json.ofOption .str c.summary)]

def IndexMetadata.toJson (m : IndexMetadata) : Json :=
  .obj
    [("chunk_id", .str m.id), ("name", .str m.name), ("type", .str m.kind.name),
      ("file_path", .str m.filePath), ("start_line", .nat m.startLine.toNat),
      ("end_line", .nat m.endLine.toNat), ("parent_class", .str m.parentClass),
      ("has_extends", .bool m.hasSuperclasses), ("has_implements", .bool m.hasInterfaces),
      ("num_methods", .nat m.methodCount), ("num_calls", .nat m.callCount),
      ("source_hash", .str m.sourceHash)]

def IndexRecord.toJson (r : IndexRecord) : Json :=
  .obj [("id", .str r.id), ("content", .str r.content), ("metadata", r.metadata.toJson)]

namespace Store

def docTargets (s : Store) : List Doc.Target := s.symbols.map Doc.Target.ofSymbol

def classOverviews (s : Store) : List ClassOverview := s.classes.map ClassOverview.ofSymbol

def indexRecords (s : Store) : List IndexRecord := s.symbols.map IndexRecord.ofSymbol

/-- A view of the store with the keys in order. -/
def toValue (s : Store) : View → Json
  | .symbols => s.toJson.sortKeys
  | .docs => (Json.arr (s.docTargets.map Doc.Target.toJson)).sortKeys
  | .classes => (Json.arr (s.classOverviews.map ClassOverview.toJson)).sortKeys
  | .index => (Json.arr (s.indexRecords.map IndexRecord.toJson)).sortKeys

def toText (s : Store) (view : View) : String := (s.toValue view).toPretty

end Store

end JavaOutline
