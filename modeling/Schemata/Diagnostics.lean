import Schemata.Dereference

/-!
# Diagnostics

Subtyping, union normalisation, dereferencing and backends report what they do
as events.  Who runs them chooses what becomes of the events: in `Id` and
`Except` they are dropped, the command line writes those of the topics asked
for.  No result depends on them.
-/

namespace Schemata

inductive Topic
  | subtype | union | dereference | backend
  deriving DecidableEq

inductive Event
  | subtype (super sub : Schema) (answer : Except DereferenceError Bool)
  /-- A candidate for a union was dropped because of a possibility it already
  has. -/
  | covered (candidate possibility : Schema)
  /-- A possibility of a union was removed because of a new candidate. -/
  | removed (possibility candidate : Schema)
  /-- A union was built. -/
  | normalized (given kept : Nat)
  | dereferenced (path : Path) (root : Schema)
    (answer : Except DereferenceError Schema)
  /-- A backend met a node it cannot represent. -/
  | unsupported (backend : Bytes) (node : Schema)

namespace Event

def topic : Event → Topic
  | .subtype .. => .subtype
  | .covered .. | .removed .. | .normalized .. => .union
  | .dereferenced .. => .dereference
  | .unsupported .. => .backend

def line : Event → Bytes
  | .subtype super sub answer =>
    let outcome : Bytes := match answer with
      | .ok b => truth b ++ " <nil>"
      | .error e => "false " ++ e.message
    "subtype " ++ super.text ++ " >= " ++ sub.text ++ ": " ++ outcome ++ "\n"
  | .covered candidate possibility =>
    "union: " ++ candidate.text ++ " already covered by " ++ possibility.text ++
      "\n"
  | .removed possibility candidate =>
    "union: " ++ possibility.text ++ " removed, covered by " ++
      candidate.text ++ "\n"
  | .normalized given kept =>
    "union of " ++ decimal given ++ " possibilities normalized to " ++
      decimal kept ++ "\n"
  | .dereferenced path root answer =>
    let outcome : Bytes := match answer with
      | .ok s => s.text ++ " <nil>"
      | .error e => "<nil> " ++ e.message
    "dereference " ++ path.text ++ " in " ++ root.text ++ ": " ++ outcome ++
      "\n"
  | .unsupported backend node =>
    backend ++ ": unsupported " ++ node.text ++ "\n"

end Event

class MonadReport (m : Type → Type) where
  report : Event → m Unit

export MonadReport (report)

instance : MonadReport Id := ⟨fun _ => ()⟩

instance {ε : Type} : MonadReport (Except ε) := ⟨fun _ => .ok ()⟩

instance {m : Type → Type} {σ : Type} [Monad m] [MonadReport m] :
    MonadReport (StateT σ m) :=
  ⟨fun e => StateT.lift (report e)⟩

instance {m : Type → Type} {ε : Type} [Monad m] [MonadReport m] :
    MonadReport (ExceptT ε m) :=
  ⟨fun e => ExceptT.lift (report e)⟩

namespace Schema

variable {m : Type → Type} [Monad m] [MonadReport m]

def dereferenceM (s : Schema) (path : Path) :
    m (Except DereferenceError Schema) := do
  let answer := s.dereference path
  report (.dereferenced path s answer)
  return answer

def dereferenceTextM (s : Schema) (text : Bytes) :
    m (Except DereferenceError Schema) :=
  match Path.parse text with
  | .error cause => return .error ⟨[], none, s.kind, .invalidPath cause⟩
  | .ok path => s.dereferenceM path

def resolveM (root : Option Schema) (path : Path) :
    m (Except DereferenceError Schema) := do
  match root with
  | none => return .error ⟨path, none, .reference, .missingRoot⟩
  | some root =>
    match ← root.dereferenceM (elementPath path) with
    | .error e => return .error e
    | .ok target => return concrete (elementPath path) target

def dereferenceText (s : Schema) (text : Bytes) :
    Except DereferenceError Schema :=
  Id.run (s.dereferenceTextM text)

end Schema

end Schemata
