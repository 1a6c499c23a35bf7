import Schemata.Text.Quoted

/-!
# Formats

Documents are written as YAML or as JSON.  A format has several names, in any
case, and is also named by the extension of a file.
-/

namespace Schemata

inductive Format
  | yaml | json
  deriving DecidableEq

inductive FormatError
  | unknown (name : Bytes)
  | noExtension (path : Bytes)

def FormatError.message : FormatError → Bytes
  | .unknown name => "bad format: " ++ Text.quote name
  | .noExtension path => "bad format: no extension in " ++ Text.quote path

namespace Format

/-- All formats, the preferred one first. -/
def all : List Format := [.yaml, .json]

def name : Format → Bytes
  | .yaml => "yaml"
  | .json => "json"

def suffix (f : Format) : Bytes := "." ++ f.name

def rank : Format → Nat
  | .yaml => 0
  | .json => 1

def ofRank? (rank : Int) : Option Format :=
  if 0 ≤ rank then all[rank.toNat]? else none

def rankMessage (rank : Int) : Bytes :=
  "<err: " ++ decimalInt rank ++ " is not a format>"

def names : List (Bytes × Format) :=
  [("y", .yaml), ("yaml", .yaml), ("yml", .yaml), ("j", .json), ("json", .json)]

/-- The format of a name in any case.  No code point outside ASCII is a letter
of a name in upper case. -/
def parse (text : Bytes) : Except FormatError Format :=
  match names.lookup (Bytes.asciiLower text) with
  | some f => .ok f
  | none => .error (.unknown text)

/-- What follows the last dot of a path, if no slash follows it. -/
def extension? (path : Bytes) : Option Bytes :=
  let last := (path.reverse.takeWhile fun b => b ≠ byte '/')
  let tail := last.takeWhile fun b => b ≠ byte '.'
  if tail.length = last.length then none else some tail.reverse

def ofPath (path : Bytes) : Except FormatError Format :=
  match extension? path with
  | none => .error (.noExtension path)
  | some name => parse name

end Format

end Schemata
