import Schemata.Command

/-!
# The command line tool

The console of a process: its files, its standard streams and its environment.
-/

namespace Schemata

def systemText (text : Bytes) : String :=
  (String.fromUTF8? ⟨text.toArray⟩).getD
    (String.ofList (text.map fun b => Char.ofNat b.toNat))

partial def readRest (stream : IO.FS.Stream) (before : ByteArray := .empty) :
    IO ByteArray := do
  let chunk ← stream.read 65536
  if chunk.isEmpty then return before else readRest stream (before ++ chunk)

/-- The console of a process, which keeps the file that the output is sent
to. -/
abbrev Terminal := StateT (Option IO.FS.Handle) IO

instance : MonadConsole Terminal where
  fileContent? name := do
    try
      let content ← IO.FS.readBinFile (systemText name)
      return some content.toList
    catch _ => return none
  standardInput := do
    let content ← readRest (← IO.getStdin)
    return content.toList
  outputTo name := do
    try
      let handle ← IO.FS.Handle.mk (systemText name) .write
      set (some handle)
      return true
    catch _ => return false
  write text := do
    let bytes : ByteArray := ⟨text.toArray⟩
    match ← get with
    | some handle => handle.write bytes
    | none => (← IO.getStdout).write bytes
  writeError text := do (← IO.getStderr).write ⟨text.toArray⟩

end Schemata

open Schemata

def main (arguments : List String) : IO UInt32 := do
  let settings ←
    [Topic.subtype, .union, .dereference, .backend].mapM fun topic => do
      let name := Topics.variableName topic
      return (name, ((← IO.getEnv (systemText name)).getD "" : String))
  let topics := Topics.ofEnvironment fun name => (settings.lookup name).map utf8
  let (code, _) ←
    (Command.runWith topics (arguments.map utf8) : Terminal UInt32).run none
  return code
