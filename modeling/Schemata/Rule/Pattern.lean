import Schemata.Text.Quoted

/-!
# Patterns of texts

A pattern describes texts: letters and classes of them, one after another, one
or another, repeated.  It is found in a text if some part of the text is as
described.  Where a pattern can end, if it starts at a place of a text, is a set
of places; there is no choice to undo, so matching ends.
-/

namespace Schemata.Rule

open Text

abbrev Ranges := List (Nat × Nat)

inductive Pattern
  | empty
  /-- One code point that is in one of the ranges, or in none of them. -/
  | one (negated : Bool) (ranges : Ranges)
  | textStart
  | textEnd
  | lineStart
  | lineEnd
  | wordEdge (negated : Bool)
  | both (first second : Pattern)
  | either (first second : Pattern)
  /-- At least and at most so many times. -/
  | repeated (body : Pattern) (least : Nat) (most : Option Nat)

namespace Pattern

def inRanges (ranges : Ranges) (c : Nat) : Bool :=
  ranges.any fun (low, high) => low ≤ c && c ≤ high

def wordRanges : Ranges :=
  [(0x30, 0x39), (0x41, 0x5A), (0x5F, 0x5F), (0x61, 0x7A)]

def digitRanges : Ranges := [(0x30, 0x39)]

def spaceRanges : Ranges := [(0x09, 0x0A), (0x0C, 0x0D), (0x20, 0x20)]

def complement (ranges : Ranges) : Ranges :=
  let sorted := ranges.mergeSort fun a b => a.1 ≤ b.1
  let (gaps, next) := sorted.foldl
    (fun (gaps, next) (low, high) =>
      (if next < low then gaps ++ [(next, low - 1)] else gaps,
       max next (high + 1)))
    (([], 0) : Ranges × Nat)
  if next ≤ 0x10FFFF then gaps ++ [(next, 0x10FFFF)] else gaps

/-- Ranges together with the same letters of the other case. -/
def bothCases (ranges : Ranges) : Ranges :=
  let shifted (low high : Nat) (shift : Nat → Nat) : Ranges :=
    ranges.filterMap fun (a, b) =>
      let a := max a low
      let b := min b high
      if a ≤ b then some (shift a, shift b) else none
  ranges ++ shifted 0x41 0x5A (· + 0x20) ++ shifted 0x61 0x7A (· - 0x20)

def union (a b : List Nat) : List Nat :=
  b.foldl (fun acc i => if acc.contains i then acc else acc ++ [i]) a

def advance (step : Nat → List Nat) (places : List Nat) : List Nat :=
  places.foldl (fun acc i => union acc (step i)) []

def exactly (step : Nat → List Nat) : Nat → List Nat → List Nat
  | 0, places => places
  | n + 1, places => exactly step n (advance step places)

def atMost (step : Nat → List Nat) : Nat → List Nat → List Nat
  | 0, places => places
  | n + 1, places =>
    let further := advance step places
    if further.all places.contains then places
    else atMost step n (union places further)

/-- Whether there is a word on exactly one side of a place. -/
def isWordEdge (text : Array Nat) (i : Nat) : Bool :=
  let isWord (c : Option Nat) : Bool := c.any (inRanges wordRanges)
  let before := if i = 0 then none else text[i - 1]?
  isWord before != isWord text[i]?

/-- The places at which a pattern that starts at a place can end. -/
def ends (text : Array Nat) : Pattern → Nat → List Nat
  | .empty, i => [i]
  | .one negated ranges, i =>
    match text[i]? with
    | some c => if inRanges ranges c != negated then [i + 1] else []
    | none => []
  | .textStart, i => if i = 0 then [i] else []
  | .textEnd, i => if i = text.size then [i] else []
  | .lineStart, i => if i = 0 || text[i - 1]? == some 0x0A then [i] else []
  | .lineEnd, i => if i = text.size || text[i]? == some 0x0A then [i] else []
  | .wordEdge negated, i => if isWordEdge text i != negated then [i] else []
  | .both first second, i => advance (ends text second) (ends text first i)
  | .either first second, i => union (ends text first i) (ends text second i)
  | .repeated body least most, i =>
    let step := ends text body
    -- After as many steps as the text has places, further ones reach nothing
    -- new.
    let extra := match most with
      | some n => min (n - least) (text.size + 1)
      | none => text.size + 1
    atMost step extra (exactly step least [i])

def isFound (p : Pattern) (text : Bytes) : Bool :=
  let points := ((symbols text).map Symbol.point).toArray
  (List.range (points.size + 1)).any fun i => !(ends points p i).isEmpty

/-! ### Reading patterns -/

structure Flags where
  anyCase : Bool := false
  /-- A point also stands for a line break. -/
  breaks : Bool := false
  /-- The ends of lines count as ends of the text. -/
  lines : Bool := false

def ofRanges (flags : Flags) (negated : Bool) (ranges : Ranges) : Pattern :=
  .one negated (if flags.anyCase then bothCases ranges else ranges)

def classEscape? (c : Nat) : Option Ranges :=
  if c = 0x64 then some digitRanges
  else if c = 0x44 then some (complement digitRanges)
  else if c = 0x73 then some spaceRanges
  else if c = 0x53 then some (complement spaceRanges)
  else if c = 0x77 then some wordRanges
  else if c = 0x57 then some (complement wordRanges)
  else none

def hexValue? (c : Nat) : Option Nat :=
  if c < 0x80 then hexDigit? c.toUInt8 else none

def isOctal (c : Nat) : Bool := 0x30 ≤ c && c ≤ 0x37

def octalValue (digits : List Nat) : Nat :=
  digits.foldl (fun n c => n * 8 + (c - 0x30)) 0

def pointEscape? (text : List Nat) : Option (Nat × List Nat) :=
  match text with
  | [] => none
  | c :: rest =>
    if 0x31 ≤ c && c ≤ 0x37 then
      if rest.head?.any isOctal then
        let digits := (c :: rest).takeWhile isOctal |>.take 3
        some (octalValue digits, (c :: rest).drop digits.length)
      else none
    else if c = 0x30 then
      let digits := (rest.takeWhile isOctal).take 2
      some (octalValue digits, rest.drop digits.length)
    else if c = 0x78 then
      match rest with
      | 0x7B :: more =>
        let digits := more.takeWhile (· ≠ 0x7D)
        let value := digits.foldlM (fun n d => (hexValue? d).map (n * 16 + ·)) 0
        match value with
        | some n =>
          if digits.isEmpty || digits.length = more.length || 0x10FFFF < n then
            none
          else some (n, more.drop (digits.length + 1))
        | none => none
      | a :: b :: more =>
        match hexValue? a, hexValue? b with
        | some x, some y => some (x * 16 + y, more)
        | _, _ => none
      | _ => none
    else if c = 0x61 then some (0x07, rest)
    else if c = 0x66 then some (0x0C, rest)
    else if c = 0x6E then some (0x0A, rest)
    else if c = 0x72 then some (0x0D, rest)
    else if c = 0x74 then some (0x09, rest)
    else if c = 0x76 then some (0x0B, rest)
    else if c < 0x80 &&
        !inRanges [(0x30, 0x39), (0x41, 0x5A), (0x61, 0x7A)] c then
      some (c, rest)
    else none

def namedClasses : List (Bytes × Ranges) :=
  [("alnum", [(0x30, 0x39), (0x41, 0x5A), (0x61, 0x7A)]),
    ("alpha", [(0x41, 0x5A), (0x61, 0x7A)]), ("ascii", [(0, 0x7F)]),
    ("blank", [(0x09, 0x09), (0x20, 0x20)]),
    ("cntrl", [(0, 0x1F), (0x7F, 0x7F)]), ("digit", digitRanges),
    ("graph", [(0x21, 0x7E)]), ("lower", [(0x61, 0x7A)]),
    ("print", [(0x20, 0x7E)]),
    ("punct", [(0x21, 0x2F), (0x3A, 0x40), (0x5B, 0x60), (0x7B, 0x7E)]),
    ("space", [(0x09, 0x0D), (0x20, 0x20)]), ("upper", [(0x41, 0x5A)]),
    ("word", wordRanges),
    ("xdigit", [(0x30, 0x39), (0x41, 0x46), (0x61, 0x66)])]

def namedClass? (text : List Nat) : Option (Ranges × List Nat) :=
  let (negated, text) := match text with
    | 0x5E :: rest => (true, rest)
    | _ => (false, text)
  let name := text.takeWhile fun c => 0x61 ≤ c && c ≤ 0x7A
  match text.drop name.length with
  | 0x3A :: 0x5D :: rest =>
    (namedClasses.lookup (name.map Nat.toUInt8)).map fun ranges =>
      (if negated then complement ranges else ranges, rest)
  | _ => none

def classPoint? (text : List Nat) : Option (Nat × List Nat) :=
  match text with
  | [] => none
  | 0x5C :: rest => pointEscape? rest
  | c :: rest => some (c, rest)

/-- The ranges of a class up to its closing bracket, which may be the first code
point of the class too. -/
def readClass : Nat → Bool → List Nat → Option (Ranges × List Nat)
  | 0, _, _ => none
  | fuel + 1, first, text =>
    let point (text : List Nat) : Option (Ranges × List Nat) :=
      match classPoint? text with
      | none => none
      | some (low, 0x2D :: 0x5D :: rest) =>
        (readClass fuel false (0x2D :: 0x5D :: rest)).map fun (more, rest) =>
          ((low, low) :: more, rest)
      | some (low, 0x2D :: rest) =>
        match classPoint? rest with
        | none => none
        | some (high, rest) =>
          if high < low then none
          else
            (readClass fuel false rest).map fun (more, rest) =>
              ((low, high) :: more, rest)
      | some (low, rest) =>
        (readClass fuel false rest).map fun (more, rest) =>
          ((low, low) :: more, rest)
    match text with
    | [] => none
    | 0x5D :: rest => if first then point text else some ([], rest)
    | 0x5B :: 0x3A :: rest =>
      match namedClass? rest with
      | some (ranges, rest) =>
        (readClass fuel false rest).map fun (more, rest) =>
          (ranges ++ more, rest)
      | none => if rest.contains 0x3A then none else point text
    | 0x5C :: c :: rest =>
      match classEscape? c with
      | some ranges =>
        (readClass fuel false rest).map fun (more, rest) =>
          (ranges ++ more, rest)
      | none => point text
    | _ => point text

def countLimit : Nat := 1000

/-- A count at the front of a text; it has no zeros in front. -/
def readCount (text : List Nat) : Option (Nat × List Nat) :=
  let digits := text.takeWhile fun c => 0x30 ≤ c && c ≤ 0x39
  if digits.isEmpty || (1 < digits.length && digits.head? == some 0x30) then
    none
  else
    some (digits.foldl (fun n c => n * 10 + (c - 0x30)) 0,
          text.drop digits.length)

def readCounts (text : List Nat) : Option (Nat × Option Nat × List Nat) :=
  match readCount text with
  | none => none
  | some (least, 0x7D :: rest) => some (least, some least, rest)
  | some (least, 0x2C :: 0x7D :: rest) => some (least, none, rest)
  | some (least, 0x2C :: rest) =>
    match readCount rest with
    | some (most, 0x7D :: rest) => some (least, some most, rest)
    | _ => none
  | _ => none

/-- The counts of a repetition at the front of a text: `none` if there is none,
and counts out of bounds are no repetition that can be read. -/
def repetition? (text : List Nat) :
    Option (Option (Nat × Option Nat × List Nat)) :=
  match text with
  | 0x2A :: rest => some (some (0, none, rest))
  | 0x2B :: rest => some (some (1, none, rest))
  | 0x3F :: rest => some (some (0, some 1, rest))
  | 0x7B :: rest =>
    (readCounts rest).map fun (least, most, rest) =>
      if countLimit < least ||
          most.any fun m => countLimit < m || m < least then
        none
      else some (least, most, rest)
  | _ => none

/-- A pattern with the repetition that follows it, if one does.  The sign for as
few times as possible makes no difference to what is found. -/
def readRepetition (body : Pattern) (text : List Nat) :
    Option (Pattern × List Nat) :=
  match repetition? text with
  | none => some (body, text)
  | some none => none
  | some (some (least, most, rest)) =>
    let rest := match rest with
      | 0x3F :: more => more
      | _ => rest
    match repetition? rest with
    | none => some (.repeated body least most, rest)
    | some _ => none

/-- The flags at the front of a text, up to a colon or a closing parenthesis. -/
def readFlags (flags : Flags) :
    Bool → Bool → List Nat → Option (Flags × Bool × List Nat)
  | _, _, [] => none
  | on, any, c :: rest =>
    if c = 0x69 then readFlags { flags with anyCase := on } on true rest
    else if c = 0x73 then readFlags { flags with breaks := on } on true rest
    else if c = 0x6D then readFlags { flags with lines := on } on true rest
    else if c = 0x55 then readFlags flags on true rest
    else if c = 0x2D && on then readFlags flags false false rest
    else if c = 0x3A && (on || any) then some (flags, true, rest)
    else if c = 0x29 && (on || any) then some (flags, false, rest)
    else none

def skipName (text : List Nat) : Option (List Nat) :=
  let name := text.takeWhile (inRanges wordRanges)
  match text.drop name.length with
  | 0x3E :: rest => if name.isEmpty then none else some rest
  | _ => none

def readOne (flags : Flags) (c : Nat) (rest : List Nat) :
    Option (Pattern × List Nat) :=
  if c = 0x2A || c = 0x2B || c = 0x3F then none
  else if c = 0x7B && (repetition? (c :: rest)).isSome then none
  else if c = 0x5E then
    some (if flags.lines then .lineStart else .textStart, rest)
  else if c = 0x24 then some (if flags.lines then .lineEnd else .textEnd, rest)
  else if c = 0x2E then
    some (if flags.breaks then .one true [] else .one true [(0x0A, 0x0A)], rest)
  else if c = 0x5B then
    let (negated, inner) := match rest with
      | 0x5E :: more => (true, more)
      | _ => (false, rest)
    (readClass (inner.length + 1) true inner).map fun (ranges, rest) =>
      (ofRanges flags negated ranges, rest)
  else if c = 0x5C then
    match rest with
    | [] => none
    | e :: more =>
      match classEscape? e with
      | some ranges => some (.one false ranges, more)
      | none =>
        if e = 0x62 then some (.wordEdge false, more)
        else if e = 0x42 then some (.wordEdge true, more)
        else if e = 0x41 then some (.textStart, more)
        else if e = 0x7A then some (.textEnd, more)
        else
          (pointEscape? rest).map fun (c, rest) =>
            (ofRanges flags false [(c, c)], rest)
  else some (ofRanges flags false [(c, c)], rest)

def literalPoints : List Nat → List Nat
  | [] => []
  | 0x5C :: 0x45 :: _ => []
  | c :: rest => c :: literalPoints rest

def afterLiteral : List Nat → List Nat
  | [] => []
  | 0x5C :: 0x45 :: rest => rest
  | _ :: rest => afterLiteral rest

mutual

def readEither : Nat → Flags → List Nat → Option (Pattern × List Nat)
  | 0, _, _ => none
  | fuel + 1, flags, text =>
    match readBoth fuel flags .empty text with
    | none => none
    | some (first, flags, 0x7C :: rest) =>
      (readEither fuel flags rest).map fun (second, rest) =>
        (.either first second, rest)
    | some (first, _, rest) => some (first, rest)

def readBoth :
    Nat → Flags → Pattern → List Nat → Option (Pattern × Flags × List Nat)
  | 0, _, _, _ => none
  | fuel + 1, flags, before, text =>
    match text with
    | [] => some (before, flags, [])
    | c :: rest =>
      if c = 0x7C || c = 0x29 then some (before, flags, text)
      else
        match text with
        | 0x28 :: 0x3F :: 0x50 :: 0x3C :: rest | 0x28 :: 0x3F :: 0x3C :: rest =>
          (skipName rest).bind fun rest =>
            readGroup fuel flags flags before rest
        | 0x28 :: 0x3F :: rest =>
          match readFlags flags true false rest with
          | none => none
          | some (inner, true, rest) => readGroup fuel flags inner before rest
          | some (inner, false, rest) => readBoth fuel inner before rest
        | 0x28 :: rest => readGroup fuel flags flags before rest
        | 0x5C :: 0x51 :: rest =>
          let quoted := literalPoints rest
          let body :=
            quoted.foldl (fun p c => .both p (ofRanges flags false [(c, c)]))
              before
          readBoth fuel flags body (afterLiteral rest)
        | _ =>
          match readOne flags c rest with
          | none => none
          | some (p, rest) =>
            match readRepetition p rest with
            | none => none
            | some (p, rest) => readBoth fuel flags (.both before p) rest

def readGroup :
    Nat → Flags → Flags → Pattern → List Nat →
    Option (Pattern × Flags × List Nat)
  | 0, _, _, _, _ => none
  | fuel + 1, flags, inner, before, text =>
    match readEither fuel inner text with
    | some (p, 0x29 :: rest) =>
      match readRepetition p rest with
      | none => none
      | some (p, rest) => readBoth fuel flags (.both before p) rest
    | _ => none

end

def parse? (text : Bytes) : Option Pattern :=
  if !isValid text then none
  else
    let points := (symbols text).map Symbol.point
    match readEither (3 * points.length + 4) {} points with
    | some (p, []) => some p
    | _ => none

end Pattern

end Schemata.Rule
