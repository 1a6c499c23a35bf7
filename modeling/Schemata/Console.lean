import Schemata.Diagnostics

/-!
# The console

What a command line tool needs from its surroundings: files to read, standard
input, an output that may be sent to a file, and a place for errors.  Events are
written among the errors if their topic is asked for.
-/

namespace Schemata

class MonadConsole (m : Type → Type) where
  /-- The content of a file, if it can be opened. -/
  fileContent? : Bytes → m (Option Bytes)
  /-- What is left of standard input. -/
  standardInput : m Bytes
  /-- Sends the output to a file, which is emptied; says whether that is
  possible. -/
  outputTo : Bytes → m Bool
  write : Bytes → m Unit
  writeError : Bytes → m Unit

export MonadConsole (fileContent? standardInput outputTo write writeError)

instance {m : Type → Type} {ε : Type} [Monad m] [MonadConsole m] :
    MonadConsole (ExceptT ε m) where
  fileContent? name := ExceptT.lift (fileContent? name)
  standardInput := ExceptT.lift standardInput
  outputTo name := ExceptT.lift (outputTo name)
  write text := ExceptT.lift (write text)
  writeError text := ExceptT.lift (writeError text)

instance {m : Type → Type} {ρ : Type} [MonadConsole m] :
    MonadConsole (ReaderT ρ m) where
  fileContent? name := fun _ => fileContent? name
  standardInput := fun _ => standardInput
  outputTo name := fun _ => outputTo name
  write text := fun _ => write text
  writeError text := fun _ => writeError text

structure Topics where
  asked : Topic → Bool

namespace Topics

/-- The variable of the environment that asks for a topic. -/
def variableName : Topic → Bytes
  | .subtype => "TYPESYS_DEBUG_SUBTYPE"
  | .union => "TYPESYS_DEBUG_UNION"
  | .dereference => "TYPESYS_DEBUG_DEREF"
  | .backend => "TYPESYS_DEBUG_BACKEND"

def yes : List Bytes := ["1", "t", "T", "TRUE", "true", "True"]

def no : List Bytes := ["0", "f", "F", "FALSE", "false", "False"]

def ofEnvironment (lookup : Bytes → Option Bytes) : Topics :=
  ⟨fun topic => ((lookup (variableName topic)).map yes.contains).getD false⟩

end Topics

instance {m : Type → Type} [Monad m] [MonadConsole m] :
    MonadReport (ReaderT Topics m) :=
  ⟨fun event topics =>
    if topics.asked event.topic then writeError event.line else pure ()⟩

end Schemata
