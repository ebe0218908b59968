import JavaOutline.Json.Printer
import JavaOutline.Json.Reader
import JavaOutline.Symbol.Store

/-!
Symbols as JSON.
-/

namespace JavaOutline

namespace Symbol

def keys : List String :=
  ["chunk_id", "name", "type", "file_path", "code", "start_line", "end_line", "indent",
    "parent_class", "extends", "implements", "methods", "calls", "summary"]

/-- How many fields a symbol that is given as an array must have at least. -/
def leastFields : Nat := 9

def toJson (s : Symbol) : Json :=
  .obj
    [("chunk_id", .str s.id), ("name", .str s.name), ("type", .str s.kind.name),
      ("file_path", .str s.filePath), ("code", .str s.code),
      ("start_line", .nat s.startLine.toNat), ("end_line", .nat s.endLine.toNat),
      ("indent", .nat s.indent.toNat), ("parent_class", Json.ofOption .str s.parentClass),
      ("extends", Json.ofTexts s.superclasses), ("implements", Json.ofTexts s.interfaces),
      ("methods", Json.ofTexts s.methods), ("calls", Json.ofTexts s.calls),
      ("summary", Json.ofOption .str s.summary)]

end Symbol

namespace Decode

def text? : Json → Option String
  | .str s => some s
  | _ => none

def optionalText? : Json → Option (Option String)
  | .null => some none
  | .str s => some (some s)
  | _ => none

def texts? : Json → Option (List String)
  | .arr items => items.mapM text?
  | _ => none

/-- A number of 32 bits. -/
def word? : Json → Option UInt32
  | .nat n => if n < 4294967296 then some n.toUInt32 else none
  | _ => none

/-- The kind of a symbol: its name, or an object with that name as the only key and null. -/
def kind? : Json → Option SymbolKind
  | .str s => SymbolKind.ofName? s
  | .obj [(s, .null)] => SymbolKind.ofName? s
  | _ => none

/-- The value of a key that must not occur twice. -/
def unique? (fields : List (String × Json)) (key : String) : Option (Option Json) :=
  match fields.filter fun f => f.1 == key with
  | [] => some none
  | [(_, v)] => some (some v)
  | _ => none

/-- The value of a key that must occur. -/
def required? {α : Type} (fields : List (String × Json)) (key : String)
    (read : Json → Option α) : Option α :=
  match unique? fields key with
  | some (some v) => read v
  | _ => none

/-- The value of a key that may be absent. -/
def optional? {α : Type} (fields : List (String × Json)) (key : String) (absent : α)
    (read : Json → Option α) : Option α :=
  match unique? fields key with
  | some (some v) => read v
  | some none => some absent
  | none => none

/-- A symbol with the given fields. Keys that mean nothing are passed over. -/
def symbolOfFields? (fields : List (String × Json)) : Option Symbol := do
  let id ← required? fields "chunk_id" text?
  let name ← required? fields "name" text?
  let kind ← required? fields "type" kind?
  let filePath ← required? fields "file_path" text?
  let code ← required? fields "code" text?
  let startLine ← required? fields "start_line" word?
  let endLine ← required? fields "end_line" word?
  let indent ← required? fields "indent" word?
  let parentClass ← optional? fields "parent_class" none optionalText?
  let superclasses ← optional? fields "extends" [] texts?
  let interfaces ← optional? fields "implements" [] texts?
  let methods ← optional? fields "methods" [] texts?
  let calls ← optional? fields "calls" [] texts?
  let summary ← optional? fields "summary" none optionalText?
  some
    { id, name, kind, filePath, code, startLine, endLine, indent, parentClass, superclasses,
      interfaces, methods, calls, summary }

/-- A symbol: an object, or an array of its fields in order, of which the last ones may be
absent. -/
def symbol? : Json → Option Symbol
  | .obj fields => symbolOfFields? fields
  | .arr items =>
      if Symbol.leastFields ≤ items.length ∧ items.length ≤ Symbol.keys.length then
        symbolOfFields? (Symbol.keys.zip items)
      else none
  | _ => none

end Decode

namespace Store

def toJson (s : Store) : Json := .arr (s.symbols.map Symbol.toJson)

def ofJson? : Json → Option Store
  | .arr items => (items.mapM Decode.symbol?).map Store.mk
  | _ => none

/-- The compact text of a store. -/
def dump (s : Store) : String := s.toJson.toCompact

def load? (text : String) : Option Store := (Json.parse? text).bind ofJson?

end Store

end JavaOutline
