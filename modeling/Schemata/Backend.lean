import Schemata.Membership
import Schemata.Outline.Render
import Schemata.Rule

/-!
# Backends

A backend represents some schemas and not others.  It judges every node on its
own; the absence of a value as a possibility of a union only makes the union
nullable and is not judged.  A backend has a membership of its own, and it
adapts schemas by giving strings another encoding.
-/

namespace Schemata

structure Backend where
  name : Bytes
  supportsNode : Schema → Bool := fun _ => true
  isInstance : Schema → Value → Bool := Schema.isInstance
  /-- The encoding that strings of an encoding are given. -/
  adaptCharset : Bytes → Bytes := id

namespace Backend

mutual

/-- The nodes that a backend cannot represent, each before those inside it. -/
def unsupportedNodes (b : Backend) : Schema → List Schema
  | .tensor items dimensions =>
    b.judged (.tensor items dimensions) ++ b.unsupportedNodes items
  | .collection items ordered maxLength =>
    b.judged (.collection items ordered maxLength) ++ b.unsupportedNodes items
  | .mapping keys values =>
    b.judged (.mapping keys values) ++
      (b.unsupportedNodes keys ++ b.unsupportedNodes values)
  | .record fields => b.judged (.record fields) ++ b.unsupportedInFields fields
  | .union possibilities =>
    b.judged (.union possibilities) ++ b.unsupportedInUnion possibilities
  | s => b.judged s

/-- The unsupported nodes of possibilities other than the absence of a value. -/
def unsupportedInUnion (b : Backend) : List Schema → List Schema
  | [] => []
  | p :: ps =>
    (if p.kind = .null then [] else b.unsupportedNodes p) ++
      b.unsupportedInUnion ps

def unsupportedInFields (b : Backend) : List (Bytes × Schema) → List Schema
  | [] => []
  | (_, f) :: rest => b.unsupportedNodes f ++ b.unsupportedInFields rest

def judged (b : Backend) (s : Schema) : List Schema :=
  if b.supportsNode s then [] else [s]

end

def supports (b : Backend) (s : Schema) : Bool := (b.unsupportedNodes s).isEmpty

def unsupportedNodesM
    {m : Type → Type} [Monad m] [MonadReport m] (b : Backend) (s : Schema) :
    m (List Schema) := do
  let nodes := b.unsupportedNodes s
  nodes.forM fun node => report (.unsupported b.name node)
  return nodes

def flagged (nodes : List Schema) (s : Schema) : Bytes :=
  s.render
    { highlight := fun node => if nodes.any node.same then "--> " else "    " }

def unsupportedOutline (b : Backend) (s : Schema) : Bytes :=
  flagged (b.unsupportedNodes s) s

/-- Whether a value is a list of members of a schema as the backend represents
it. -/
def isDataset (b : Backend) (s : Schema) (data : Value) : Bool :=
  Schema.isDatasetOf (b.isInstance s) data

def adaptLayer (b : Backend) : Layer → Layer
  | .string charset maxLength => .string (b.adaptCharset charset) maxLength
  | l => l

def adaptM
    {m : Type → Type} [Monad m] [MonadReport m] (b : Backend) (s : Schema) :
    ExceptT ConstructionError m Schema := do
  match ← s.rebuild fun l => some <$> (b.adaptLayer l).buildM with
  | some s => return s
  | none => throw .missingSchema

def adapt (b : Backend) (s : Schema) : Except ConstructionError Schema :=
  Id.run (b.adaptM s).run

def ofRules (name : Bytes) (table : RuleTable) : Backend :=
  { name, supportsNode := table.allows }

end Backend

end Schemata
