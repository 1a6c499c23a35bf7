import Schemata.Rule.Datum
import Schemata.Text.Base64
import Schemata.Yaml.Numeral

/-!
# Functions of rules

What the functions of values and of lists give.  A function that has no value
for its arguments makes the evaluation fail.
-/

namespace Schemata.Rule

open Text

namespace Datum

/-! ### Texts of values -/

mutual

def shown : Datum → Bytes
  | .nil => "<nil>"
  | .boolean b => truth b
  | .integer n => decimalInt n
  | .fraction x => (Floating.ofFloat x).text .message .double
  | .text s => s
  | .list items => "[" ++ Bytes.join " " (shownAll items) ++ "]"
  | .noList => "[]"
  | .map entries =>
    let sorted :=
      Schemata.sortBy (fun a b => compare a.1 b.1) (shownEntries entries)
    "map[" ++ Bytes.join " " (sorted.map fun (k, v) => k ++ ":" ++ v) ++ "]"

def shownAll : List Datum → List Bytes
  | [] => []
  | d :: ds => d.shown :: shownAll ds

def shownEntries : List (Datum × Datum) → List (Bytes × Bytes)
  | [] => []
  | (k, v) :: rest => (k.shown, v.shown) :: shownEntries rest

end

def bracketed (opening closing : Bytes) (depth : Nat) (items : List Bytes) :
    Bytes :=
  let line (depth : Nat) : Bytes := "\n" ++ Bytes.spaces (2 * depth)
  if items.isEmpty then opening ++ closing
  else
    opening ++
      Bytes.join "," (items.map fun item => line (depth + 1) ++ item) ++
      line depth ++ closing

mutual

def json? (depth : Nat) : Datum → Option Bytes
  | .nil | .noList => some "null"
  | .boolean b => some (truth b)
  | .integer n => some (decimalInt n)
  | .fraction x =>
    match Floating.ofFloat x with
    | .finite negative significand exponent =>
      some ((Floating.finite negative significand exponent).text .json .double)
    | _ => none
  | .text s => some (Json.safeString s)
  | .list items => (jsonAll? (depth + 1) items).map (bracketed "[" "]" depth)
  | .map entries =>
    (jsonEntries? (depth + 1) entries).map fun entries =>
      let sorted := Schemata.sortBy (fun a b => compare a.1 b.1) entries
      bracketed "\x7b" "\x7d" depth
        (sorted.map fun (k, v) => Json.safeString k ++ ": " ++ v)

def jsonAll? (depth : Nat) : List Datum → Option (List Bytes)
  | [] => some []
  | d :: ds =>
    match json? depth d, jsonAll? depth ds with
    | some s, some more => some (s :: more)
    | _, _ => none

def jsonEntries? (depth : Nat) :
    List (Datum × Datum) → Option (List (Bytes × Bytes))
  | [] => some []
  | (k, v) :: rest =>
    match k.text?, json? depth v, jsonEntries? depth rest with
    | some k, some s, some more => some ((k, s) :: more)
    | _, _, _ => none

end

mutual

/-- The value of a JSON tree; numbers are floating point numbers. -/
def ofJson : Json → Datum
  | .null => .nil
  | .boolean b => .boolean b
  | .number spelling => .fraction (Floating.ofNumeral .double spelling).toFloat
  | .string s _ => .text s
  | .array items => .list (ofJsonItems items)
  | .object members => .map (ofJsonMembers members)

def ofJsonItems : List Json → List Datum
  | [] => []
  | j :: js => ofJson j :: ofJsonItems js

def ofJsonMembers : List (Bytes × Json) → List (Datum × Datum)
  | [] => []
  | (name, j) :: rest => (.text name, ofJson j) :: ofJsonMembers rest

end

def typeName : Datum → Bytes
  | .nil => "nil"
  | .boolean _ => "bool"
  | .integer _ => "int"
  | .fraction _ => "float"
  | .text _ => "string"
  | .list _ | .noList => "array"
  | .map _ => "map"

/-! ### Numbers -/

mutual

/-- The value that wins against all others among numbers and the elements of
lists; none wins against nothing at all. -/
def extreme (wins : BinaryOp) : Option Datum → Datum → Option (Option Datum)
  | best, .list items => extremeAll wins best items
  | best, .noList => some best
  | best, d =>
    match d.float? with
    | none => none
    | some _ =>
      match best with
      | none => some (some d)
      | some b =>
        (ofBinary wins d b).bind truth? |>.map fun better =>
          some (if better then d else b)

def extremeAll (wins : BinaryOp) :
    Option Datum → List Datum → Option (Option Datum)
  | best, [] => some best
  | best, d :: ds =>
    match extreme wins best d with
    | none => none
    | some best => extremeAll wins best ds

end

mutual

def numbers? : Datum → Option (List Float)
  | .list items => allNumbers? items
  | .noList => some []
  | d => d.float?.map fun x => [x]

def allNumbers? : List Datum → Option (List Float)
  | [] => some []
  | d :: ds =>
    match numbers? d, allNumbers? ds with
    | some xs, some ys => some (xs ++ ys)
    | _, _ => none

end

def mean (xs : List Float) : Float :=
  if xs.isEmpty then 0 else xs.foldl (· + ·) 0 / Float.ofNat xs.length

/-- The number in the middle of numbers in order, or the mean of the two in the
middle. -/
def median (xs : List Float) : Float :=
  let sorted :=
    (Schemata.sortBy
      (fun a b => if a < b then .lt else if b < a then .gt else .eq) xs).toArray
  let middle := sorted.size / 2
  if sorted.isEmpty then 0
  else if sorted.size % 2 = 1 then sorted.getD middle 0
  else (sorted.getD (middle - 1) 0 + sorted.getD middle 0) / 2

def word (n : Int) : Nat := (n % wordCount).toNat

def ofIntegers (f : Builtin) (a b : Int) : Option Datum :=
  let shift (result : Nat → Int) : Option Datum :=
    if b < 0 then none else some (wrapped (result b.toNat))
  match f with
  | .bitAnd => some (wrapped (Nat.land (word a) (word b)))
  | .bitOr => some (wrapped (Nat.lor (word a) (word b)))
  | .bitXor => some (wrapped (Nat.xor (word a) (word b)))
  | .bitClear => some (wrapped (Nat.land (word a) (word (-b - 1))))
  | .shiftLeft => shift fun n => if 64 ≤ n then 0 else a * Nat.pow 2 n
  | .shiftRight => shift fun n => a / Nat.pow 2 (min n 64)
  | .shiftRightWord => shift fun n => (word a : Int) / Nat.pow 2 (min n 64)
  | _ => none

def rounded (f : Float → Float) (d : Datum) : Option Datum :=
  d.float?.map fun x => .fraction (f x)

def toInteger : Datum → Option Datum
  | .integer n => some (.integer n)
  | .fraction x => some (.integer (truncated x))
  | .text s =>
    match readInt s with
    | .ok n => some (.integer n)
    | .error _ => none
  | _ => none

def toFraction : Datum → Option Datum
  | .text s =>
    let (negative, digits) := match s with
      | 0x2D :: rest => (true, rest)
      | 0x2B :: rest => (false, rest)
      | _ => (false, s)
    match Yaml.readFraction digits with
    | .fraction x =>
      some (.fraction (if negative then -x.toFloat else x.toFloat))
    | _ => none
  | d => d.float?.map .fraction

/-! ### Lists -/

/-- The values without those that equal one before. -/
def distinct : List Datum → List Datum → List Datum
  | _, [] => []
  | seen, d :: ds =>
    if seen.any (equal d) then distinct seen ds
    else d :: distinct (d :: seen) ds

mutual

def flat : Datum → List Datum
  | .list items => flatAll items
  | .noList => []
  | d => [d]

def flatAll : List Datum → List Datum
  | [] => []
  | d :: ds => flat d ++ flatAll ds

end

def entriesOf? (pairs : List Datum) : Option (List (Datum × Datum)) :=
  pairs.foldlM (fun entries pair =>
    match pair with
    | .list [k, v] => some (update k (fun _ => v) entries)
    | _ => none) []

def ofTexts (f : Builtin) (arguments : List Datum) : Option Datum :=
  match f, arguments with
  | .trim, [.text s] => some (.text (trimBy isBlankPoint s))
  | .trim, [.text s, .text set] =>
    let points := (symbols set).map Symbol.point
    some (.text (trimBy points.contains s))
  | .trimStart, [.text s] => some (.text ((Bytes.dropStart? " " s).getD s))
  | .trimStart, [.text s, .text start] =>
    some (.text ((Bytes.dropStart? start s).getD s))
  | .trimEnd, [.text s] =>
    some (.text
      (if ([0x20] : Bytes).isSuffixOf s then s.take (s.length - 1) else s))
  | .trimEnd, [.text s, .text tail] =>
    some (.text
      (if tail.isSuffixOf s then s.take (s.length - tail.length) else s))
  | .upper, [.text s] => some (.text (mapPoints upperPoint s))
  | .lower, [.text s] => some (.text (mapPoints lowerPoint s))
  | .split, [.text s, .text sep] => some (.list ((pieces sep none s).map .text))
  | .split, [.text s, .text sep, .integer n] =>
    some (.list ((pieces sep (some n) s).map .text))
  | .splitAfter, [.text s, .text sep] =>
    some (.list ((withSeparator sep (pieces sep none s)).map .text))
  | .splitAfter, [.text s, .text sep, .integer n] =>
    some (.list ((withSeparator sep (pieces sep (some n) s)).map .text))
  | .replace, [.text s, .text a, .text b] => some (.text (replaced a b none s))
  | .replace, [.text s, .text a, .text b, .integer n] =>
    some (.text (replaced a b (some n) s))
  | .repeated, [.text s, .integer n] =>
    if n < 0 || sizeLimit ≤ s.length * n.toNat then none
    else some (.text (Bytes.repeated n.toNat s))
  | .join, [d] =>
    (d.items?.bind fun items => items.mapM text?).map fun parts =>
      .text parts.flatten
  | .join, [d, .text glue] =>
    (d.items?.bind fun items => items.mapM text?).map fun parts =>
      .text (Bytes.join glue parts)
  | .indexOf, [.text s, .text part] =>
    some (.integer ((indexOf? part s).elim (-1) Int.ofNat))
  | .lastIndexOf, [.text s, .text part] =>
    some (.integer ((lastIndexOf? part s).elim (-1) Int.ofNat))
  | .hasStart, [.text s, .text start] => some (.boolean (start.isPrefixOf s))
  | .hasEnd, [.text s, .text tail] => some (.boolean (tail.isSuffixOf s))
  | .ofJson, [.text s] => (Json.parse? s).map ofJson
  | .toBase64, [.text s] => some (.text (base64 s))
  | .ofBase64, [.text s] => (base64Bytes? s).map .text
  | _, _ => none

def ofList (f : Builtin) (items : List Datum) (more : List Datum) :
    Option Datum :=
  match f, more with
  | .length, [] => some (.integer items.length)
  | .count, [] => (items.mapM truth?).map fun bs => .integer (bs.countP id)
  | .sum, [] => total items
  | .first, [] => some (items.head?.getD .nil)
  | .last, [] => some (items.getLast?.getD .nil)
  | .get, [position] =>
    position.position?.map fun i => (itemAt? items i).getD .nil
  | .take, [.integer n] =>
    if n < 0 then none else some (.list (items.take n.toNat))
  | .ofPairs, [] => (entriesOf? items).map .map
  | .reverse, [] => some (.list items.reverse)
  | .unique, [] => some (.list (distinct [] items))
  | .flatten, [] => some (.list (flatAll items))
  | .concat, more =>
    (more.mapM items?).map fun lists => .list (items ++ lists.flatten)
  | .sort, [] => (sortedBy id false items).map .list
  | .sort, [order] =>
    (descending? order).bind fun descending =>
      (sortedBy id descending items).map .list
  | _, _ => none

def ofEntries
    (f : Builtin) (entries : List (Datum × Datum)) (more : List Datum) :
    Option Datum :=
  match f, more with
  | .length, [] => some (.integer entries.length)
  | .get, [key] => some ((lookup key entries).getD .nil)
  | .keys, [] => some (.list (entries.map Prod.fst))
  | .values, [] => some (.list (entries.map Prod.snd))
  | .toPairs, [] => some (.list (entries.map fun (k, v) => .list [k, v]))
  | _, _ => none

def ofCall (f : Builtin) (arguments : List Datum) : Option Datum :=
  match f, arguments with
  | .length, [.text s] => some (.integer (symbolCount s))
  | .maximum, ds => (extremeAll .greater none ds).map fun best => best.getD .nil
  | .minimum, ds => (extremeAll .less none ds).map fun best => best.getD .nil
  | .mean, ds => (allNumbers? ds).map fun xs => .fraction (mean xs)
  | .median, ds => (allNumbers? ds).map fun xs => .fraction (median xs)
  | .typeName, [d] => some (.text d.typeName)
  | .toText, [d] => some (.text d.shown)
  | .toJson, [d] => (json? 0 d).map .text
  | .absolute, [.integer n] => some (wrapped n.natAbs)
  | .absolute, [.fraction x] => some (.fraction x.abs)
  | .ceiling, [d] => rounded Float.ceil d
  | .floor, [d] => rounded Float.floor d
  | .round, [d] => rounded Float.round d
  | .toInteger, [d] => toInteger d
  | .toFraction, [d] => toFraction d
  | .bitNot, [.integer n] => some (wrapped (-n - 1))
  | f, [.integer a, .integer b] => ofIntegers f a b
  | f, .list items :: more =>
    (ofList f items more).orElse fun _ => ofTexts f (.list items :: more)
  | f, .noList :: more =>
    (ofList f [] more).orElse fun _ => ofTexts f (.list [] :: more)
  | f, .map entries :: more => ofEntries f entries more
  | .get, [_, _] => some .nil
  | f, ds => ofTexts f ds

/-! ### Functions of lists with a condition or term -/

/-- The first element that passes a test that may fail, with its position; the
rest is not tested. -/
def firstPassing (test : Nat → Datum → Option Bool) :
    Nat → List Datum → Option (Option (Nat × Datum))
  | _, [] => some none
  | i, d :: ds =>
    match test i d with
    | none => none
    | some true => some (some (i, d))
    | some false => firstPassing test (i + 1) ds

def passing (test : Nat → Datum → Option Bool) :
    Nat → List Datum → Option (List Datum)
  | _, [] => some []
  | i, d :: ds =>
    match test i d with
    | none => none
    | some b =>
      (passing test (i + 1) ds).map fun rest => if b then d :: rest else rest

def terms (term : Nat → Datum → Option Datum) :
    Nat → List Datum → Option (List Datum)
  | _, [] => some []
  | i, d :: ds =>
    match term i d with
    | none => none
    | some t => (terms term (i + 1) ds).map (t :: ·)

def reduced (step : Nat → Datum → Datum → Option Datum) :
    Nat → Datum → List Datum → Option Datum
  | _, acc, [] => some acc
  | i, acc, d :: ds =>
    match step i d acc with
    | none => none
    | some acc => reduced step (i + 1) acc ds

/-- The elements under their keys; lists and associations are no keys. -/
def grouped (keyed : List (Datum × Datum)) : Option (List (Datum × Datum)) :=
  keyed.foldlM (fun groups (key, d) =>
    match key with
    | .list _ | .noList | .map _ => none
    | key =>
      some (update key
        (fun group => .list (((group.bind items?).getD []) ++ [d])) groups)) []

/-- The value of a list function, where the body gives the condition or term for
a position, an element and what the elements before were reduced to. -/
def ofQuantified
    (q : Quantifier) (body : Nat → Datum → Datum → Option Datum)
    (items : List Datum) (extra : List Datum) : Option Datum :=
  let term (i : Nat) (d : Datum) : Option Datum := body i d .nil
  let test (i : Nat) (d : Datum) : Option Bool := (term i d).bind truth?
  let fails (i : Nat) (d : Datum) : Option Bool := (test i d).map not
  let fromEnd (i : Nat) (d : Datum) : Option Bool :=
    test (items.length - 1 - i) d
  match q with
  | .all => (firstPassing fails 0 items).map fun found => .boolean found.isNone
  | .any => (firstPassing test 0 items).map fun found => .boolean found.isSome
  | .none => (firstPassing test 0 items).map fun found => .boolean found.isNone
  | .one => (passing test 0 items).map fun ds => .boolean (ds.length == 1)
  | .count => (passing test 0 items).map fun ds => .integer ds.length
  | .filter => (passing test 0 items).map .list
  | .map => (terms term 0 items).map .list
  | .sum => (terms term 0 items).bind total
  | .find =>
    (firstPassing test 0 items).map fun found => found.elim .nil Prod.snd
  | .findIndex =>
    (firstPassing test 0 items).map fun found =>
      found.elim .nil fun (i, _) => .integer i
  | .findLast =>
    (firstPassing fromEnd 0 items.reverse).map fun found =>
      found.elim .nil Prod.snd
  | .findLastIndex =>
    (firstPassing fromEnd 0 items.reverse).map fun found =>
      found.elim .nil fun (i, _) =>
        .integer ((items.length - 1 - i : Nat) : Int)
  | .groupBy =>
    (terms term 0 items).bind fun keys => (grouped (keys.zip items)).map .map
  | .sortBy =>
    match (extra.head?.elim (some false) descending?), terms term 0 items with
    | some descending, some keys =>
      (sortedBy Prod.fst descending (keys.zip items)).map fun sorted =>
        .list (sorted.map Prod.snd)
    | _, _ => none
  | .reduce =>
    match extra, items with
    | initial :: _, items => reduced body 0 initial items
    | [], d :: ds => reduced body 1 d ds
    | [], [] => none

end Datum

end Schemata.Rule
