import JavaOutline.Doc.Render
import JavaOutline.Main
import JavaOutline.Proofs.Outline.Declaration
import JavaOutline.Proofs.Outline.Walk
import JavaOutline.Proofs.Outline.Emission
import JavaOutline.Proofs.Outline.Membership
import JavaOutline.Proofs.Outline.Call
import JavaOutline.Proofs.FileSystem.Trail
import JavaOutline.Proofs.Text.Utf8
import JavaOutline.Proofs.FileSystem.Walk
import JavaOutline.Proofs.Outline.Naming
import JavaOutline.Proofs.Symbol.Store
import JavaOutline.Proofs.Project.Extract
import JavaOutline.Proofs.Project.Discover
import JavaOutline.Proofs.Project.UniqueIds
import JavaOutline.Proofs.FileSystem.Shape
import JavaOutline.Proofs.Project.Isolation
import JavaOutline.Proofs.Doc.Layout
import JavaOutline.Proofs.Doc.Placement
import JavaOutline.Proofs.FileSystem.Location
import JavaOutline.Proofs.FileSystem.Reach
import JavaOutline.Proofs.Path.Components
import JavaOutline.Proofs.FileSystem.Resolve
import JavaOutline.Proofs.Exclusion.Set
import JavaOutline.Proofs.Project.Files
import JavaOutline.Proofs.Exclusion.Glob
import JavaOutline.Proofs.FileSystem.Write
import JavaOutline.Proofs.Path.Copy
import JavaOutline.Proofs.FileSystem.Addition
import JavaOutline.Proofs.Project.CommentedCopies
import JavaOutline.Proofs.Json.Scalar
import JavaOutline.Proofs.Json.RoundTrip
import JavaOutline.Proofs.Symbol.Codec
import JavaOutline.Proofs.Symbol.View
import JavaOutline.Proofs.Outline.Frame
import JavaOutline.Proofs.Project.Refusal
import JavaOutline.Proofs.Command.Output
import JavaOutline.Proofs.Symbol.Growth
import JavaOutline.Proofs.Symbol.Collision
import JavaOutline.Proofs.Doc.Tail
import JavaOutline.Proofs.Doc.Arrangement
import JavaOutline.Proofs.Doc.Wholeness
import JavaOutline.Proofs.Text.LineStart
import JavaOutline.Proofs.Syntax.Nesting
import JavaOutline.Proofs.Doc.Token
import JavaOutline.Proofs.Syntax.Mistake
import JavaOutline.Proofs.Doc.Refusal
import JavaOutline.Proofs.Text.Stretch
import JavaOutline.Proofs.Outline.Location
import JavaOutline.Proofs.Outline.Laminar
import JavaOutline.Proofs.Outline.Comparison
import JavaOutline.Proofs.Exclusion.Directory
import JavaOutline.Proofs.FileSystem.Reread
import JavaOutline.Proofs.Exclusion.Listing
import JavaOutline.Proofs.Project.IgnoreFile
import JavaOutline.Proofs.Symbol.Attachment
import JavaOutline.Proofs.Symbol.Variation
import JavaOutline.Proofs.Symbol.Grouping
import JavaOutline.Proofs.Project.Grouping
import JavaOutline.Proofs.Doc.Block
import JavaOutline.Proofs.Doc.Cleaning
import JavaOutline.Proofs.Outline.Inheritance
import JavaOutline.Proofs.Project.RelativePath
import JavaOutline.Proofs.Automaton.Table
import JavaOutline.Proofs.Parsing.Subtree
import JavaOutline.Proofs.Parsing.Stack
import JavaOutline.Proofs.Parsing.Slice
import JavaOutline.Proofs.Parsing.Reduce
import JavaOutline.Proofs.Parsing.Recover
import JavaOutline.Proofs.Parsing.Parse
import JavaOutline.Proofs.Syntax.Flagged
import JavaOutline.Proofs.Command.Check
