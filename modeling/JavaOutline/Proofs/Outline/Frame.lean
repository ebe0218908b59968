import JavaOutline.Proofs.Outline.Emission

/-! Symbols without their texts. What is left of the outline then depends on the tree alone: the
content is asked for names, never for what to do next. -/
namespace JavaOutline

open Syntax

/-- What a symbol says apart from the texts that are read from the content: of a list of names only
the length is left, and of the class around a method only that there is one. -/
structure Frame where
  kind : SymbolKind
  filePath : String
  startLine : UInt32
  endLine : UInt32
  indent : UInt32
  summary : Option String
  hasParent : Bool
  superclasses : Nat
  interfaces : Nat
  methods : Nat
  calls : Nat
  deriving DecidableEq, Repr

def Symbol.frame (s : Symbol) : Frame :=
  { kind := s.kind
    filePath := s.filePath
    startLine := s.startLine
    endLine := s.endLine
    indent := s.indent
    summary := s.summary
    hasParent := s.parentClass.isSome
    superclasses := s.superclasses.length
    interfaces := s.interfaces.length
    methods := s.methods.length
    calls := s.calls.length }

namespace Frame

def clauseTypes (kind : String) (n : Node) : List Node :=
  ((n.children.filter fun c => c.kind = kind).flatMap Draft.clauseEntries).filter
    fun e => e.kind = plainTypeKind

/-- What the frames of all declarations have. -/
def located (path : String) (kind : SymbolKind) (n : Node) : Frame :=
  { kind
    filePath := path
    startLine := lineNumber n.info.start.row
    endLine := lineNumber n.info.stop.row
    indent := n.info.start.column.toUInt32
    summary := none
    hasParent := false
    superclasses := 0
    interfaces := 0
    methods := 0
    calls := 0 }

/-- The frame of the declaration at an address. -/
def ofAddress? (path : String) (root : Node) (a : Address) : Option Frame :=
  (root.at? a).map fun n =>
    if n.kind = classKind then
      { located path .classDecl n with
        superclasses := (clauseTypes superclassKind n).length
        interfaces := (clauseTypes interfacesKind n).length
        methods := (root.declarations.filter (root.isMethodOf (some a))).length }
    else
      { located path .methodDecl n with
        hasParent := (root.nearestClass a).isSome
        calls := ((Draft.invocations n).filterMap Node.name?).length }

end Frame

namespace Draft

def frame (path : String) (d : Draft) : Frame := (d.toSymbol path "").frame

/-- Tying drafts to a file does not change their frames. -/
theorem map_frame_tie (path : String) (drafts : List Draft) :
    (tie path drafts).map Symbol.frame = drafts.map (frame path) := by
  have hLength : drafts.length ≤ (Id.assign path (drafts.map qualifiedName)).length := by
    simp [Id.length_assign]
  have hSecond := congrArg (List.map (frame path)) (List.map_snd_zip hLength)
  rw [tie, List.map_zipWith]
  rwa [List.zip, List.map_zipWith, List.map_zipWith] at hSecond

variable (content : List UInt8)

/-- How many names a clause gives does not depend on the content. -/
theorem length_clauseNames (kind : String) (n : Node) :
    (clauseNames content kind n).length = (Frame.clauseTypes kind n).length :=
  List.length_map _

/-- How many calls there are does not depend on the content. -/
theorem length_callsIn (n : Node) :
    (callsIn content n).length = ((invocations n).filterMap Node.name?).length := by
  have hCalls : callsIn content n = ((invocations n).filterMap Node.name?).map (textOf content) :=
    List.map_filterMap.symm
  rw [hCalls, List.length_map]

/-- A class lists as many names as it has methods. -/
theorem length_memberNames (root : Node) (owner : Option Address) :
    (memberNames content root owner).length =
      (root.declarations.filter (root.isMethodOf owner)).length :=
  List.length_map _

/-- A method has an owner if there is a class around it. -/
theorem isSome_ownerName (root : Node) (a : Address) :
    (ownerName content none root a).isSome = (root.nearestClass a).isSome := by
  simp [ownerName]

/-- The draft of a declaration has the frame of the declaration. -/
theorem map_frame_ofAddress? (path : String) (root : Node) (a : Address) :
    (ofAddress? content none root a).map (frame path) = Frame.ofAddress? path root a := by
  rw [ofAddress?, Frame.ofAddress?, Option.map_map]
  congr 1
  funext n
  rw [Function.comp_apply]
  split_ifs with hClass
  · rw [← length_clauseNames content, ← length_clauseNames content, ← length_memberNames content]
    rfl
  · rw [← length_callsIn content, ← isSome_ownerName content]
    rfl

end Draft

/-- The frames of the symbols of a tree are those of its declarations. -/
theorem map_frame_symbolsOf (path content : String) (root : Node) :
    ((symbolsOf path content root).map Symbol.frame).map some =
      root.declarations.map (Frame.ofAddress? path root) := by
  calc ((symbolsOf path content root).map Symbol.frame).map some
      = ((Findings.ofNode (Text.encode content) none root).drafts.map some).map
          (Option.map (Draft.frame path)) := by
        rw [symbolsOf, Draft.map_frame_tie, List.map_map, List.map_map]
        rfl
    _ = (root.declarations.map (Draft.ofAddress? (Text.encode content) none root)).map
          (Option.map (Draft.frame path)) := by rw [Findings.ofNode_drafts]
    _ = root.declarations.map (Frame.ofAddress? path root) := by
        rw [List.map_map]
        exact List.map_congr_left fun a _ => Draft.map_frame_ofAddress? _ path root a

/-- The structure of an outline does not depend on the text. With any two contents, the symbols of a
tree are equally many and agree one after another in everything but the texts themselves: that is
what the declarations of the tree say. -/
theorem symbolsOf_frames (path content other : String) (root : Node) :
    (symbolsOf path content root).map Symbol.frame =
        (symbolsOf path other root).map Symbol.frame ∧
      ((symbolsOf path content root).map Symbol.frame).map some =
        root.declarations.map (Frame.ofAddress? path root) := by
  refine ⟨?_, map_frame_symbolsOf path content root⟩
  apply List.map_injective_iff.mpr fun _ _ => Option.some.inj
  rw [map_frame_symbolsOf, map_frame_symbolsOf]

end JavaOutline
