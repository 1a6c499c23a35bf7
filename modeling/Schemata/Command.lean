import Schemata.Backend.Columnar
import Schemata.Command.Options
import Schemata.Diff
import Schemata.Encoding
import Schemata.Outline.SideBySide
import Schemata.Patch
import Schemata.Random.Generator
import Schemata.Random.Perturb

/-!
# Commands

The command line tool: viewing, comparing, dereferencing, generating, changing
and patching schema files.  Options for all commands may stand in front of the
command's name; behind it they mix with its own.  Without file arguments a
command reads standard input, which is also named by a dash.
-/

namespace Schemata

namespace Command

inductive Failure
  | complaint (c : Complaint)
  /-- Ends with an exit code and says nothing. -/
  | exit (code : UInt32)
  /-- Something that should not be possible. -/
  | broken (text : Bytes)

namespace Failure

def usage (text : Bytes) : Failure := .complaint (.aboutUsage text)

def error (text : Bytes) : Failure := .complaint ⟨false, text⟩

def inContext (context : Bytes) : Failure → Failure
  | .complaint c => .complaint { c with text := context ++ c.text }
  | f => f

end Failure

variable {m : Type → Type} [Monad m] [MonadConsole m] [MonadReport m]

def content (name : Bytes) : ExceptT Failure m Bytes := do
  if name == "-" then return (← standardInput)
  match ← fileContent? name with
  | some text => return text
  | none =>
    throw (.error
      ("error opening " ++ name ++ ": open " ++ name ++
        ": no such file or directory"))

def load (name : Bytes) : ExceptT Failure m Schema := do
  let text ← content name
  (Schema.decodeM text).adapt fun e =>
    .error ("error decoding " ++ name ++ ": " ++ e.message)

/-- Does something with the schema of each file in turn, handing on a state. -/
def forSchemas {σ : Type} (names : List Bytes) (start : σ)
    (action : σ → Bytes → Schema → ExceptT Failure m σ) : ExceptT Failure m σ :=
  (if names.isEmpty then [("-" : Bytes)] else names).foldlM
    (fun state name => do
      let s ← load name
      (action state name s).adapt
        (Failure.inContext ("error processing " ++ name ++ ": "))) start

/-- Writes the line between two documents, unless the first is still to come. -/
def separate (first : Bool) : m Unit := if first then pure () else write "---\n"

def Settings.outputFormat (settings : Settings) : Format :=
  settings.format.getD
    (if settings.yaml then .yaml else if settings.json then .json else .yaml)

def writeSchema (settings : Settings) (s : Schema) : m Unit :=
  write (s.encode settings.outputFormat)

/-- Writes the outline of a schema.  The output is no terminal, so colors show
in their treatment of percent signs only. -/
def writeOutline (settings : Settings) (s : Schema) : m Unit :=
  write
    (s.render { colors := if settings.color then some false else none } ++ "\n")

def view (settings : Settings) (names : List Bytes) :
    ExceptT Failure m Unit := do
  let _ ← forSchemas names true fun first _ s => do
    separate first
    if settings.encode then writeSchema settings s else writeOutline settings s
    return false

def loadTwo (command : Bytes) : List Bytes → ExceptT Failure m (Schema × Schema)
  | [a, b] => do
    let a ← load a
    let b ← load b
    return (a, b)
  | names =>
    throw (.usage
      (command ++ " requires 2 arguments, got " ++ decimal names.length))

def subtype (settings : Settings) (names : List Bytes) :
    ExceptT Failure m Unit := do
  let (super, sub) ← loadTwo "subtype" names
  let root ← if settings.root.isEmpty then pure sub else load settings.root
  match ← ExceptT.lift
      (Schema.isSubtypeInM Schema.hash super sub (some root)) with
  | .error e => throw (.error e.message)
  | .ok answer =>
    write (truth answer ++ "\n")
    if !answer then throw (.exit 1)

def dereference (settings : Settings) : List Bytes → ExceptT Failure m Unit
  | [] => throw (.usage "deref requires one argument, a path")
  | path :: names => forSchemas names () fun _ _ s => do
    match ← ExceptT.lift (s.dereferenceTextM path) with
    | .error e => throw (.error e.message)
    | .ok target => writeOutline settings target

def diff (settings : Settings) (names : List Bytes) :
    ExceptT Failure m Unit := do
  let (a, b) ← loadTwo "diff" names
  if settings.side then
    write
      (a.sideBySide b
        { between := SideBySide.differs, width := settings.width } ++ "\n")
  else
    let changes := a.diff b
    if !changes.isEmpty then
      write changes
      throw (.exit 1)

def columnar (settings : Settings) (names : List Bytes) :
    ExceptT Failure m Unit := do
  let b := Columnar.backend
  let failed ← forSchemas names false fun failed name s => do
    let nodes ← ExceptT.lift (b.unsupportedNodesM s)
    if !nodes.isEmpty then
      let nodes ← ExceptT.lift (b.unsupportedNodesM s)
      write
        (name ++ ": not supported by " ++ b.name ++ "\n" ++
          Backend.flagged nodes s ++ "\n")
      return true
    else if settings.adapt then
      let adapted ← (b.adaptM s).adapt fun e => Failure.error e.message
      writeSchema settings adapted
      return failed
    else
      write (name ++ ": supported by " ++ b.name ++ "\n")
      return failed
  if failed then throw (.exit 1)

def generator (seed : Int) : Generator := .ofSeeds (seed % wordCount).toNat 0

def choosing
    {α : Type} (g : Generator)
    (action : ExceptT ConstructionError (StateT Generator m) α) :
    ExceptT Failure m (α × Generator) := do
  let (result, g) ← ExceptT.lift (action.run.run g)
  match result with
  | .ok a => return (a, g)
  | .error e => throw (.broken e.message)

def random (settings : Settings) (names : List Bytes) :
    ExceptT Failure m Unit := do
  if !names.isEmpty then throw (.usage "random takes no arguments")
  if settings.count < 1 then throw (.usage "-n must be positive")
  let (schemas, _) ← choosing (generator settings.seed)
    (Random.several (Random.schema settings.depth) settings.count.toNat)
  if settings.union then
    let u ←
      (Build.unionM (schemas.map some)).adapt fun e => Failure.error e.message
    writeSchema settings u
  else
    let _ ← schemas.foldlM (fun first s => do
      separate first
      writeSchema settings s
      return false) true

def perturb (settings : Settings) (names : List Bytes) :
    ExceptT Failure m Unit := do
  let _ ←
    forSchemas names (true, generator settings.seed) fun (first, g) _ s => do
      separate first
      match ← choosing g (Schema.perturb (some s)) with
      | (some changed, g) =>
        writeSchema settings changed
        return (false, g)
      | (none, _) => throw (.broken "no change found")

def patch (settings : Settings) : List Bytes → ExceptT Failure m Unit
  | [] => throw (.usage "patch requires one argument, a patch file")
  | file :: names => do
    let text ← content file
    let _ ← forSchemas names true fun first _ s => do
      separate first
      let patched ← (s.patchM text).adapt fun
        | .notApplied .negativeIndex => .broken "index out of range"
        | e => .error (e.message?.getD "patch error")
      writeSchema settings patched
      return false

structure Entry (m : Type → Type) where
  name : Bytes
  aliases : List Bytes
  synopsis : Bytes
  flags : List Flag
  run : Settings → List Bytes → ExceptT Failure m Unit

def seedFlag : Flag :=
  { name := "seed", effect := .integer fun n s => { s with seed := n } }

def viewFlags : List Flag :=
  [{ name := "e", aliases := ["encode"],
     effect := .switch fun b s => { s with encode := b } }]

def subtypeFlags : List Flag :=
  [{ name := "root", effect := .text fun t s => { s with root := t } }]

def diffFlags : List Flag :=
  [{ name := "s", aliases := ["side"],
     effect := .switch fun b s => { s with side := b } },
    { name := "w", aliases := ["width"],
      effect := .integer fun n s => { s with width := n } }]

def columnarFlags : List Flag :=
  [{ name := "a", aliases := ["adapt"],
     effect := .switch fun b s => { s with adapt := b } }]

def randomFlags : List Flag :=
  [seedFlag,
    { name := "depth", effect := .integer fun n s => { s with depth := n } },
    { name := "n", effect := .integer fun n s => { s with count := n } },
    { name := "u", aliases := ["union"],
      effect := .switch fun b s => { s with union := b } }]

def entries : List (Entry m) :=
  [⟨"view", ["v"], "view [-e] [files]", viewFlags, view⟩,
    ⟨"subtype", ["sub", "s"], "subtype [-root file] <super> <sub>",
     subtypeFlags, subtype⟩,
    ⟨"deref", ["get", "g"], "deref <path> [files]", [], dereference⟩,
    ⟨"diff", ["d", "di"], "diff [-s [-w width]] a b", diffFlags, diff⟩,
    ⟨"columnar", ["col"], "columnar [-a] [files]", columnarFlags, columnar⟩,
    ⟨"random", ["r", "rand"], "random [-seed n] [-depth n] [-n count] [-u]",
     randomFlags, random⟩,
    ⟨"perturb", [], "perturb [-seed n] [files]", [seedFlag], perturb⟩,
    ⟨"patch", ["p", "pa"], "patch <json-patch-file> [files]", [], patch⟩]

def synopsis : Bytes := "typesys [opts] command [opts]"

def explain (synopsis : Bytes) : Failure → m UInt32
  | .exit code => return code
  | .broken text => do
    writeError ("panic: " ++ text ++ "\n")
    return 2
  | .complaint c => do
    if c.usage then
      writeError ("synopsis: " ++ synopsis ++ "\n\n" ++ c.text ++ "\n")
    else writeError (c.text ++ "\n")
    return 1

def Entry.execute (e : Entry m) (settings : Settings) (arguments : List Bytes) :
    m UInt32 := do
  let line ← readLine (e.flags ++ commonFlags) false settings arguments
  match joined? line.complaints with
  | some c => explain e.synopsis (.complaint c)
  | none =>
    match ← (e.run line.settings line.arguments).run with
    | .ok () => return 0
    | .error f => explain e.synopsis f

def run (arguments : List Bytes) : m UInt32 := do
  let line ← readLine commonFlags true {} arguments
  match joined? line.complaints with
  | some c => explain synopsis (.complaint c)
  | none =>
    if line.settings.json && line.settings.yaml then
      explain synopsis (.usage "must specify at most one of -j[son] -y[aml]")
    else
      match line.arguments with
      | [] => explain synopsis (.usage "no command provided")
      | name :: rest =>
        match entries.find?
            fun e => e.name == name || e.aliases.contains name with
        | none =>
          explain synopsis
            (.usage ("no such command: " ++ Text.quote name ++ " not found"))
        | some e => e.execute line.settings rest

/-- Runs a command line, with the events of some topics among the errors. -/
def runWith
    {m : Type → Type} [Monad m] [MonadConsole m] (topics : Topics)
    (arguments : List Bytes) : m UInt32 :=
  (run arguments : ReaderT Topics m UInt32).run topics

end Command

end Schemata
