import Schemata.Encoding
import Schemata.Json.Patch

/-!
# Patched schemas

A JSON patch applies to the JSON text of a schema, and the result is read as a
schema again.
-/

namespace Schemata

inductive PatchFailure
  | malformed
  | notApplied (cause : PatchError)
  | notDecoded (cause : DecodeError)

namespace PatchFailure

/-- What is said when there is no patched schema; nothing where a JSON text
itself is to blame. -/
def message? : PatchFailure → Option Bytes
  | .malformed => none
  | .notApplied cause =>
    cause.message.map fun message => "apply patch: " ++ message
  | .notDecoded cause => some cause.message

end PatchFailure

namespace Schema

def patchM
    {m : Type → Type} [Monad m] [MonadReport m] (s : Schema) (patch : Bytes) :
    ExceptT PatchFailure m Schema :=
  match Patch.parse? patch with
  | none => throw .malformed
  | some ops =>
    match Json.parse? (s.encode .json) with
    | none => throw (.notApplied .notObject)
    | some document =>
      match Patch.apply ops document with
      | .error cause => throw (.notApplied cause)
      | .ok patched =>
        (Schema.decodeM patched.compact).adapt PatchFailure.notDecoded

def patch (s : Schema) (patch : Bytes) : Except PatchFailure Schema :=
  Id.run (s.patchM patch).run

end Schema

end Schemata
