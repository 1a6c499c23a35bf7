import Schemata.Console
import Schemata.Sorted

/-!
# A console in memory

Files, input and output kept as values, so that a command can be run as a
function of them.
-/

namespace Schemata

/-- A console whose files and streams are values. -/
structure Memory where
  files : List (Bytes × Bytes)
  input : Bytes
  output : Bytes := []
  errors : Bytes := []
  /-- The file that the output is sent to. -/
  target : Option Bytes := none

namespace Memory

def directory? (path : Bytes) : Option Bytes :=
  match (Bytes.split 0x2F path).reverse with
  | _ :: first :: rest => some (Bytes.join "/" (first :: rest).reverse)
  | _ => none

/-- Whether a path names a file or could name a new one: its directory holds
some file. -/
def isWritable (c : Memory) (path : Bytes) : Bool :=
  !path.isEmpty &&
    match directory? path with
    | none => true
    | some directory =>
      c.files.any fun f => (Bytes.dropStart? (directory ++ "/") f.1).isSome

def put (text : Bytes) (c : Memory) : Memory :=
  match c.target with
  | none => { c with output := c.output ++ text }
  | some name =>
    { c with
        files :=
          setEntry name (((c.files.lookup name).getD []) ++ text) c.files }

def changedSince (before after : Memory) : List (Bytes × Bytes) :=
  after.files.filter fun f => before.files.lookup f.1 != some f.2

end Memory

instance : MonadConsole (StateM Memory) where
  fileContent? name := do return (← get).files.lookup name
  standardInput := modifyGet fun c => (c.input, { c with input := [] })
  outputTo name := modifyGet fun c =>
    if c.isWritable name then
      (true, { c with files := setEntry name [] c.files, target := some name })
    else (false, c)
  write text := modify (Memory.put text)
  writeError text := modify fun c => { c with errors := c.errors ++ text }

end Schemata
