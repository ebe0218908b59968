import JavaOutline.Symbol.Codec
import JavaOutline.Proofs.Json.RoundTrip
import Mathlib.Data.List.Forall2
import Mathlib.Data.List.Nodup

/-! Symbols in JSON. The fields of a symbol are found by their keys, so neither their order nor what
stands under other keys matters, as long as no key comes twice. -/
namespace JavaOutline

theorem mapM_eq_some_iff {α β : Type} {f : α → Option β} {as : List α} {bs : List β} :
    as.mapM f = some bs ↔ List.Forall₂ (fun a b => f a = some b) as bs := by
  induction as generalizing bs with
  | nil => cases bs <;> simp
  | cons a as ih => cases bs <;> simp [Option.bind_eq_some_iff, ih]

theorem mapM_eq_none_of_mem {α β : Type} {f : α → Option β} {as : List α} {a : α} (hMem : a ∈ as)
    (h : f a = none) : as.mapM f = none := by
  induction as with
  | nil => cases hMem
  | cons b as ih =>
      rcases List.mem_cons.mp hMem with rfl | hRest
      · simp [h]
      · cases hFirst : f b <;> simp [hFirst, ih hRest]

theorem mapM_map_eq_some {α β : Type} {write : α → β} {read : β → Option α}
    (h : ∀ a, read (write a) = some a) (as : List α) : (as.map write).mapM read = some as := by
  rw [mapM_eq_some_iff, List.forall₂_map_left_iff, List.forall₂_same]
  exact fun a _ => h a

def Symbol.fields (s : Symbol) : List (String × Json) :=
  [("chunk_id", .str s.id), ("name", .str s.name), ("type", .str s.kind.name),
    ("file_path", .str s.filePath), ("code", .str s.code),
    ("start_line", .nat s.startLine.toNat), ("end_line", .nat s.endLine.toNat),
    ("indent", .nat s.indent.toNat), ("parent_class", Json.ofOption .str s.parentClass),
    ("extends", Json.ofTexts s.superclasses), ("implements", Json.ofTexts s.interfaces),
    ("methods", Json.ofTexts s.methods), ("calls", Json.ofTexts s.calls),
    ("summary", Json.ofOption .str s.summary)]

theorem Symbol.toJson_eq (s : Symbol) : s.toJson = .obj s.fields := rfl

/-- No key is written twice. -/
theorem Symbol.nodup_keys (s : Symbol) : (s.fields.map Prod.fst).Nodup :=
  show Symbol.keys.Nodup by decide

/-- The fields that may be left out, each with the value that this stands for. -/
def Symbol.absent : List (String × Json) :=
  [("parent_class", .null), ("extends", .arr []), ("implements", .arr []), ("methods", .arr []),
    ("calls", .arr []), ("summary", .null)]

namespace Decode

theorem optionalText?_ofOption (text : Option String) :
    optionalText? (Json.ofOption .str text) = some text := by
  cases text <;> rfl

theorem texts?_ofTexts (texts : List String) : texts? (Json.ofTexts texts) = some texts :=
  mapM_map_eq_some (show ∀ t, text? (.str t) = some t from fun _ => rfl) texts

theorem word?_toNat (n : UInt32) : word? (.nat n.toNat) = some n := by
  have hWord : n.toNat < 4294967296 := n.toNat_lt
  rw [word?, if_pos hWord]
  simp

theorem kind?_name (kind : SymbolKind) : kind? (.str kind.name) = some kind :=
  SymbolKind.ofName?_name kind

section Fields

variable {fields : List (String × Json)} {key : String} {v : Json}

theorem filter_key (hNodup : (fields.map Prod.fst).Nodup) (h : (key, v) ∈ fields) :
    (fields.filter fun f => f.1 == key) = [(key, v)] := by
  induction fields with
  | nil => cases h
  | cons f fields ih =>
      obtain ⟨hFresh, hNodup⟩ := List.nodup_cons.mp hNodup
      rcases List.mem_cons.mp h with rfl | hRest
      · have hNone : (fields.filter fun f => f.1 == key) = [] := by
          rw [List.filter_eq_nil_iff]
          intro g hg hSame
          exact hFresh (List.mem_map.mpr ⟨g, hg, beq_iff_eq.mp hSame⟩)
        simp [hNone]
      · have hOther : f.1 ≠ key := by
          intro hSame
          exact hFresh (List.mem_map.mpr ⟨_, hRest, hSame.symm⟩)
        rw [List.filter_cons_of_neg (by simpa using hOther), ih hNodup hRest]

theorem unique?_of_mem (hNodup : (fields.map Prod.fst).Nodup) (h : (key, v) ∈ fields) :
    unique? fields key = some (some v) := by
  rw [unique?, filter_key hNodup h]

/-- Whether a field is given: it is the only one with its key, or there is none with its key and
its value is what that stands for. -/
def Gives (fields : List (String × Json)) (f : String × Json) : Prop :=
  unique? fields f.1 = some (some f.2) ∨ unique? fields f.1 = some none ∧ f ∈ Symbol.absent

/-- A field that must be there is read if it is given. -/
theorem required?_of_gives {α : Type} {read : Json → Option α} {a : α} (h : Gives fields (key, v))
    (hRequired : (key, v) ∉ Symbol.absent) (hRead : read v = some a) :
    required? fields key read = some a := by
  rcases h with hUnique | ⟨-, hAbsent⟩
  · rw [required?, hUnique]
    exact hRead
  · exact (hRequired hAbsent).elim

/-- A field that may be absent is read as its value, or as what its absence stands for. -/
theorem optional?_of_gives {α : Type} {read : Json → Option α} {a absent : α}
    (h : Gives fields (key, v)) (hAbsent : (key, v) ∈ Symbol.absent → read v = some absent)
    (hRead : read v = some a) : optional? fields key absent read = some a := by
  rcases h with hUnique | ⟨hUnique, hMem⟩
  · rw [optional?, hUnique]
    exact hRead
  · rw [optional?, hUnique, ← hRead]
    exact (hAbsent hMem).symm

end Fields

/-- What is read under each key of a symbol. -/
structure Reads (fields : List (String × Json)) (s : Symbol) : Prop where
  id : required? fields "chunk_id" text? = some s.id
  name : required? fields "name" text? = some s.name
  kind : required? fields "type" kind? = some s.kind
  filePath : required? fields "file_path" text? = some s.filePath
  code : required? fields "code" text? = some s.code
  startLine : required? fields "start_line" word? = some s.startLine
  endLine : required? fields "end_line" word? = some s.endLine
  indent : required? fields "indent" word? = some s.indent
  parentClass : optional? fields "parent_class" none optionalText? = some s.parentClass
  superclasses : optional? fields "extends" [] texts? = some s.superclasses
  interfaces : optional? fields "implements" [] texts? = some s.interfaces
  methods : optional? fields "methods" [] texts? = some s.methods
  calls : optional? fields "calls" [] texts? = some s.calls
  summary : optional? fields "summary" none optionalText? = some s.summary

/-- Fields make up a symbol if each of its own is read from its key. -/
theorem symbolOfFields?_eq_some_iff {fields : List (String × Json)} {s : Symbol} :
    symbolOfFields? fields = some s ↔ Reads fields s := by
  constructor
  · intro h
    rw [symbolOfFields?] at h
    obtain ⟨id, hId, h⟩ := Option.bind_eq_some_iff.mp h
    obtain ⟨name, hName, h⟩ := Option.bind_eq_some_iff.mp h
    obtain ⟨kind, hKind, h⟩ := Option.bind_eq_some_iff.mp h
    obtain ⟨filePath, hFilePath, h⟩ := Option.bind_eq_some_iff.mp h
    obtain ⟨code, hCode, h⟩ := Option.bind_eq_some_iff.mp h
    obtain ⟨startLine, hStartLine, h⟩ := Option.bind_eq_some_iff.mp h
    obtain ⟨endLine, hEndLine, h⟩ := Option.bind_eq_some_iff.mp h
    obtain ⟨indent, hIndent, h⟩ := Option.bind_eq_some_iff.mp h
    obtain ⟨parentClass, hParentClass, h⟩ := Option.bind_eq_some_iff.mp h
    obtain ⟨superclasses, hSuperclasses, h⟩ := Option.bind_eq_some_iff.mp h
    obtain ⟨interfaces, hInterfaces, h⟩ := Option.bind_eq_some_iff.mp h
    obtain ⟨methods, hMethods, h⟩ := Option.bind_eq_some_iff.mp h
    obtain ⟨calls, hCalls, h⟩ := Option.bind_eq_some_iff.mp h
    obtain ⟨summary, hSummary, h⟩ := Option.bind_eq_some_iff.mp h
    cases h
    exact ⟨hId, hName, hKind, hFilePath, hCode, hStartLine, hEndLine, hIndent, hParentClass,
      hSuperclasses, hInterfaces, hMethods, hCalls, hSummary⟩
  · intro h
    rw [symbolOfFields?, h.id, h.name, h.kind, h.filePath, h.code, h.startLine, h.endLine,
      h.indent, h.parentClass, h.superclasses, h.interfaces, h.methods, h.calls, h.summary]
    rfl

/-- A symbol is read off any fields that give all of its own. -/
theorem symbolOfFields?_of_gives {s : Symbol} {fields : List (String × Json)}
    (h : ∀ f ∈ s.fields, Gives fields f) : symbolOfFields? fields = some s := by
  have hText (key text : String) (hMem : (key, Json.str text) ∈ s.fields) :
      required? fields key text? = some text :=
    required?_of_gives (h _ hMem) (by simp [Symbol.absent]) rfl
  have hWord (key : String) (n : UInt32) (hMem : (key, Json.nat n.toNat) ∈ s.fields) :
      required? fields key word? = some n :=
    required?_of_gives (h _ hMem) (by simp [Symbol.absent]) (word?_toNat n)
  have hOption (key : String) (text : Option String)
      (hMem : (key, Json.ofOption .str text) ∈ s.fields) :
      optional? fields key none optionalText? = some text := by
    refine optional?_of_gives (h _ hMem) (fun hAbsent => ?_) (optionalText?_ofOption text)
    cases text with
    | none => rfl
    | some text => simp [Symbol.absent, Json.ofOption] at hAbsent
  have hTexts (key : String) (texts : List String)
      (hMem : (key, Json.ofTexts texts) ∈ s.fields) :
      optional? fields key [] texts? = some texts := by
    refine optional?_of_gives (h _ hMem) (fun hAbsent => ?_) (texts?_ofTexts texts)
    cases texts with
    | nil => rfl
    | cons text texts => simp [Symbol.absent, Json.ofTexts] at hAbsent
  have hKind : required? fields "type" kind? = some s.kind :=
    required?_of_gives (h ("type", .str s.kind.name) (by simp [Symbol.fields]))
      (by simp [Symbol.absent]) (kind?_name s.kind)
  rw [symbolOfFields?_eq_some_iff]
  exact
    { id := hText "chunk_id" s.id (by simp [Symbol.fields])
      name := hText "name" s.name (by simp [Symbol.fields])
      kind := hKind
      filePath := hText "file_path" s.filePath (by simp [Symbol.fields])
      code := hText "code" s.code (by simp [Symbol.fields])
      startLine := hWord "start_line" s.startLine (by simp [Symbol.fields])
      endLine := hWord "end_line" s.endLine (by simp [Symbol.fields])
      indent := hWord "indent" s.indent (by simp [Symbol.fields])
      parentClass := hOption "parent_class" s.parentClass (by simp [Symbol.fields])
      superclasses := hTexts "extends" s.superclasses (by simp [Symbol.fields])
      interfaces := hTexts "implements" s.interfaces (by simp [Symbol.fields])
      methods := hTexts "methods" s.methods (by simp [Symbol.fields])
      calls := hTexts "calls" s.calls (by simp [Symbol.fields])
      summary := hOption "summary" s.summary (by simp [Symbol.fields]) }

/-- A symbol is read off any fields without a repeated key that its own are among. -/
theorem symbolOfFields?_of_subset {s : Symbol} {fields : List (String × Json)}
    (hNodup : (fields.map Prod.fst).Nodup) (h : s.fields ⊆ fields) :
    symbolOfFields? fields = some s := by
  apply symbolOfFields?_of_gives
  intro f hf
  exact .inl (unique?_of_mem hNodup (h hf))

/-- A symbol is read back from its object. -/
theorem symbol?_toJson (s : Symbol) : symbol? s.toJson = some s := by
  rw [Symbol.toJson_eq, symbol?]
  exact symbolOfFields?_of_subset s.nodup_keys (List.Subset.refl _)

end Decode

theorem Symbol.isPlain_toJson (s : Symbol) : s.toJson.IsPlain := by simp [Symbol.toJson]

namespace Store

theorem isPlain_toJson (s : Store) : s.toJson.IsPlain := by
  simp [toJson, Symbol.isPlain_toJson]

/-- A store is read back from its array. -/
theorem ofJson?_toJson (s : Store) : ofJson? s.toJson = some s := by
  rw [toJson, ofJson?, mapM_map_eq_some Decode.symbol?_toJson]
  rfl

/-- The compact text of a store spells the array of its symbols, and reading it gives the store
back. -/
theorem load?_dump (s : Store) :
    Json.parse? s.dump = some s.toJson ∧ load? s.dump = some s := by
  have hParse : Json.parse? s.dump = some s.toJson := Json.parse?_toCompact s.isPlain_toJson
  refine ⟨hParse, ?_⟩
  rw [load?, hParse]
  exact s.ofJson?_toJson

end Store

end JavaOutline
