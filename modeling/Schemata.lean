import Schemata.Backend
import Schemata.Backend.Columnar
import Schemata.Bytes
import Schemata.Command
import Schemata.Command.Options
import Schemata.Console
import Schemata.Console.Memory
import Schemata.Dereference
import Schemata.Diagnostics
import Schemata.Diff
import Schemata.Diff.Compare
import Schemata.Diff.Script
import Schemata.Document
import Schemata.Document.OfSchema
import Schemata.Document.ToSchema
import Schemata.Encoding
import Schemata.Format
import Schemata.Json
import Schemata.Json.Patch
import Schemata.Kind
import Schemata.Log
import Schemata.Log.Argument
import Schemata.Log.Directive
import Schemata.Log.Indented
import Schemata.Log.Style
import Schemata.Main
import Schemata.Membership
import Schemata.Number.Decimal
import Schemata.Number.Floating
import Schemata.Number.Styled
import Schemata.Outline
import Schemata.Outline.Color
import Schemata.Outline.Render
import Schemata.Outline.SideBySide
import Schemata.Patch
import Schemata.Path
import Schemata.Path.Parts
import Schemata.Path.Text
import Schemata.Random
import Schemata.Random.Choice
import Schemata.Random.Generator
import Schemata.Random.Perturb
import Schemata.Rebuild
import Schemata.Rule
import Schemata.Rule.Datum
import Schemata.Rule.Eval
import Schemata.Rule.Expr
import Schemata.Rule.Function
import Schemata.Rule.Grammar
import Schemata.Rule.Pattern
import Schemata.Rule.Token
import Schemata.Rule.Typing
import Schemata.Schema
import Schemata.Schema.Build
import Schemata.Schema.Fingerprint
import Schemata.Schema.Order
import Schemata.Schema.Text
import Schemata.Sorted
import Schemata.Subtyping
import Schemata.Subtyping.Missing
import Schemata.Text.Base64
import Schemata.Text.Cluster
import Schemata.Text.Edit
import Schemata.Text.Printable
import Schemata.Text.Quoted
import Schemata.Text.Symbol
import Schemata.Text.Width
import Schemata.Union
import Schemata.Value
import Schemata.Value.Convert
import Schemata.Yaml.Block
import Schemata.Yaml.Meaning
import Schemata.Yaml.Node
import Schemata.Yaml.Numeral
import Schemata.Yaml.Phrase
import Schemata.Yaml.Quoted
import Schemata.Yaml.Read
import Schemata.Yaml.Scalar
import Schemata.Yaml.Scanner
import Schemata.Yaml.Timestamp
import Schemata.Yaml.Token
import Schemata.Yaml.Tokens
import Schemata.Yaml.Write
import Schemata.Proofs.Sorted
import Schemata.Proofs.Dereference.Step
import Schemata.Proofs.Schema.Order
import Schemata.Proofs.Schema.TotalOrder
import Schemata.Proofs.Schema.Construction
import Schemata.Proofs.Schema.Built
import Schemata.Proofs.Subtyping.Plain
import Schemata.Proofs.Subtyping.Termination
import Schemata.Proofs.Subtyping.Exactness
import Schemata.Proofs.Subtyping.ReferenceFree
import Schemata.Proofs.Subtyping.Soundness
import Schemata.Proofs.Subtyping.Transitivity
import Schemata.Proofs.Subtyping.Antisymmetry
import Schemata.Proofs.Union.Insertion
import Schemata.Proofs.Union.NormalForm
import Schemata.Proofs.Union.Coverage
import Schemata.Proofs.Union.Maximal
import Schemata.Proofs.Number.Digits
import Schemata.Proofs.Schema.Identity
import Schemata.Proofs.Text.Quoted
import Schemata.Proofs.Path.Grammar
import Schemata.Proofs.Path.RoundTrip
import Schemata.Proofs.Document.Readable
import Schemata.Proofs.Document.RoundTrip
import Schemata.Proofs.Subtyping.Paths
import Schemata.Proofs.Backend.Adapt
import Schemata.Proofs.Backend.Columnar
import Schemata.Proofs.Random
import Schemata.Proofs.Random.Perturb
import Schemata.Proofs.Schema.Closure
import Schemata.Proofs.Dereference.Split
import Schemata.Proofs.Subtyping.Failure
import Schemata.Proofs.Keys
import Schemata.Proofs.Tensor
import Schemata.Proofs.Subtyping.Simulation
import Schemata.Proofs.Subtyping.Opened
import Schemata.Proofs.Backend.Subtyping
import Schemata.Proofs.Document.Representation
import Schemata.Proofs.Document.Content
import Schemata.Proofs.Backend.Adapted
import Schemata.Proofs.Rebuild.PostOrder
import Schemata.Proofs.Outline
import Schemata.Proofs.Backend.Flags
import Schemata.Proofs.Outline.Levels
import Schemata.Proofs.Outline.OneLine
import Schemata.Proofs.Outline.Columns
import Schemata.Proofs.Diff.Compare
import Schemata.Proofs.Diff.Lines
import Schemata.Proofs.Document.Ordered
import Schemata.Proofs.Random.Script
import Schemata.Proofs.Random.Limits
import Schemata.Proofs.Random.Depth
import Schemata.Proofs.Random.Progress
