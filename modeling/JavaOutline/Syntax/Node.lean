/-!
Syntax trees.

A `Node` has a kind, a place in the text and children. Some nodes stand for mistakes: an error node
covers text that could not be understood, and a missing node stands where a token was expected. A
node is flagged if it is a mistake or contains one.
-/

namespace JavaOutline.Syntax

/-- A place in a text: bytes from the beginning, line breaks before it, and bytes since the last of
them. -/
structure Place where
  byte : Nat
  row : Nat
  column : Nat
  deriving DecidableEq, Repr, Inhabited

/-- What is known about a node apart from its children. -/
structure NodeInfo where
  kind : String
  /-- Whether the node names the construct that its parent is. -/
  isName : Bool
  start : Place
  stop : Place
  isError : Bool
  isMissing : Bool
  /-- Whether the node is a mistake or contains one. -/
  flagged : Bool
  deriving DecidableEq, Repr, Inhabited

inductive Node where
  | mk (info : NodeInfo) (children : List Node)

instance : Inhabited Node := ⟨.mk default []⟩

namespace Node

def info : Node → NodeInfo
  | .mk i _ => i

def children : Node → List Node
  | .mk _ cs => cs

def kind (n : Node) : String := n.info.kind

/-- The first child that names the construct. -/
def name? (n : Node) : Option Node := n.children.find? fun c => c.info.isName

end Node

end JavaOutline.Syntax
