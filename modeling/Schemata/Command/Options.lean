import Schemata.Console
import Schemata.Format

/-!
# Options

An option starts with one or two dashes.  Switches stand alone, and `no-` in
front of the name turns them off; other options take the next argument as their
value.  A single dash and the empty text are arguments like any other, and after
two dashes, which are kept as an argument, there are no options.

A value after an equals sign is stored, and yet such an option is not known.
All complaints about one line are collected.
-/

namespace Schemata

namespace Command

/-- What is said of a command line or of running it; a complaint about usage is
shown with a synopsis. -/
structure Complaint where
  usage : Bool
  text : Bytes

def Complaint.aboutUsage (text : Bytes) : Complaint :=
  ⟨true, "usage error: " ++ text⟩

structure Settings where
  color : Bool := false
  json : Bool := false
  yaml : Bool := false
  format : Option Format := none
  encode : Bool := false
  root : Bytes := []
  side : Bool := false
  width : Int := 40
  adapt : Bool := false
  seed : Int := 1
  depth : Int := 3
  count : Int := 1
  union : Bool := false

inductive Effect
  | switch (set : Bool → Settings → Settings)
  | text (set : Bytes → Settings → Settings)
  | integer (set : Int → Settings → Settings)
  | format
  /-- Sends the output to a file, unless it is named by a dash. -/
  | output

structure Flag where
  name : Bytes
  aliases : List Bytes := []
  effect : Effect

def commonFlags : List Flag :=
  [{ name := "color", effect := .switch fun b s => { s with color := b } },
    { name := "j", aliases := ["json"],
      effect := .switch fun b s => { s with json := b } },
    { name := "y", aliases := ["yaml"],
      effect := .switch fun b s => { s with yaml := b } },
    { name := "o", effect := .output },
    { name := "O", aliases := ["ofmt"], effect := .format }]

def flag? (flags : List Flag) (name : Bytes) : Option Flag :=
  flags.find? fun f => f.name == name || f.aliases.contains name

/-- The switch that a name with `no-` in front turns off. -/
def negated? (flags : List Flag) (name : Bytes) :
    Option (Bool → Settings → Settings) :=
  match (Bytes.dropStart? "no-" name).bind (flag? flags) with
  | some { effect := .switch set, .. } => some set
  | _ => none

variable {m : Type → Type} [Monad m] [MonadConsole m]

def Flag.store (f : Flag) (value : Bytes) (settings : Settings) :
    m (Except Complaint Settings) :=
  match f.effect with
  | .switch set =>
    if Topics.yes.contains value then return .ok (set true settings)
    else if Topics.no.contains value then return .ok (set false settings)
    else
      return .error
        ⟨false, "strconv.ParseBool: parsing " ++ Text.quote value ++
          ": invalid syntax"⟩
  | .text set => return .ok (set value settings)
  | .integer set =>
    match readInt value with
    | .ok n => return .ok (set n settings)
    | .error e =>
      return .error
        ⟨false, "strconv.ParseInt: parsing " ++ Text.quote value ++ ": " ++
          e.message⟩
  | .format =>
    match Format.parse value with
    | .ok format => return .ok { settings with format := some format }
    | .error e => return .error (.aboutUsage e.message)
  | .output => do
    if value == "-" then return .ok settings
    if ← outputTo value then return .ok settings
    return .error ⟨false, "open " ++ value ++ ": no such file or directory"⟩

inductive Argument
  | plain
  | terminator
  | option (name : Bytes)
  | assignment (name value : Bytes)

def Argument.of (text : Bytes) : Argument :=
  match text with
  | [] => .plain
  | [_] => .plain
  | a :: b :: rest =>
    if a ≠ 0x2D then .plain
    else
      let name := if b = 0x2D then rest else b :: rest
      if name.isEmpty then .terminator
      else
        match Bytes.split 0x3D name with
        | first :: second :: more =>
          .assignment first (Bytes.join "=" (second :: more))
        | _ => .option name

structure Line where
  settings : Settings
  arguments : List Bytes := []
  complaints : List Complaint := []

def Line.withArgument (text : Bytes) (l : Line) : Line :=
  { l with arguments := text :: l.arguments }

def Line.withComplaint (c : Complaint) (l : Line) : Line :=
  { l with complaints := c :: l.complaints }

def unknownOption (name : Bytes) : Complaint :=
  .aboutUsage ("unknown option: " ++ Text.quote name)

/-- Reads a command line.  If `leading`, options end at the first other
argument. -/
def readLine (flags : List Flag) (leading : Bool) :
    Settings → List Bytes → m Line
  | settings, [] => return { settings }
  | settings, text :: rest =>
    match Argument.of text with
    | .plain =>
      if leading then return { settings, arguments := text :: rest }
      else do return (← readLine flags leading settings rest).withArgument text
    | .terminator => return { settings, arguments := text :: rest }
    | .assignment name value =>
      match flag? flags name with
      | none => do
        return (← readLine flags leading settings rest).withComplaint
          (unknownOption name)
      | some f => do
        match ← f.store value settings with
        | .error c =>
          return (← readLine flags leading settings rest).withComplaint c
        | .ok settings =>
          return (← readLine flags leading settings rest).withComplaint
            (unknownOption (name ++ "=" ++ value))
    | .option name =>
      match flag? flags name, negated? flags name with
      | none, none => do
        return (← readLine flags leading settings rest).withComplaint
          (unknownOption name)
      | none, some set => readLine flags leading (set false settings) rest
      | some { effect := .switch set, .. }, _ =>
        readLine flags leading (set true settings) rest
      | some f, _ =>
        match rest with
        | [] =>
          let missing := .aboutUsage ("option requires a value: " ++ f.name)
          return { settings, complaints := [missing] }
        | value :: rest => do
          match ← f.store value settings with
          | .error c =>
            return (← readLine flags leading settings rest).withComplaint c
          | .ok settings => readLine flags leading settings rest

/-- All complaints as one, which is about usage if any of them is. -/
def joined? : List Complaint → Option Complaint
  | [] => none
  | c :: cs =>
    some ⟨(c :: cs).any fun c => c.usage,
          Bytes.join "\n" ((c :: cs).map fun c => c.text)⟩

end Command

end Schemata
