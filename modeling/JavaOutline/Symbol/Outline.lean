import JavaOutline.Symbol.Draft
import JavaOutline.Symbol.Id

/-!
The outline of a file: the symbols of its syntax tree.

A class comes after everything declared in it. Nothing inside a method becomes a symbol, and every
other construct is looked through. The methods found below a class, not below a class inside it,
are listed with the class.
-/

namespace JavaOutline

open Syntax

/-- What a part of a tree contributes: drafts, and the names of methods that no class in that part
has claimed. -/
structure Findings where
  drafts : List Draft
  unclaimed : List String
  deriving DecidableEq, Repr

namespace Findings

def empty : Findings := ⟨[], []⟩

def append (a b : Findings) : Findings := ⟨a.drafts ++ b.drafts, a.unclaimed ++ b.unclaimed⟩

mutual

/-- What a tree contributes below the given class. -/
def ofNode (content : List UInt8) (parent : Option String) : Node → Findings
  | .mk i cs =>
      match Role.ofKind i.kind with
      | .classDeclaration =>
          let inner := ofNodes content (some (Draft.nameOf content (.mk i cs))) cs
          ⟨inner.drafts ++ [Draft.ofClass content inner.unclaimed (.mk i cs)], []⟩
      | .methodDeclaration =>
          let d := Draft.ofMethod content parent (.mk i cs)
          ⟨[d], [d.name]⟩
      | .other => ofNodes content parent cs

/-- What a list of trees contributes below the given class. -/
def ofNodes (content : List UInt8) (parent : Option String) : List Node → Findings
  | [] => empty
  | n :: rest => (ofNode content parent n).append (ofNodes content parent rest)

end

end Findings

def Draft.tie (path : String) (drafts : List Draft) : List Symbol :=
  List.zipWith (Draft.toSymbol path) (Id.assign path (drafts.map Draft.qualifiedName)) drafts

/-- The symbols of a tree, with texts read from the content. -/
def symbolsOf (path content : String) (root : Node) : List Symbol :=
  Draft.tie path (Findings.ofNode (Text.encode content) none root).drafts

end JavaOutline
