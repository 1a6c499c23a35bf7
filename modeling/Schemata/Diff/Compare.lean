import Schemata.Diff.Script

/-!
# Comparing sequences

The common front and end of two sequences are set aside and the middle is
compared.  If one middle occurs in the other, the rest of the other was inserted
or deleted.  Otherwise the middles are split in two, each half compared on its
own: at a long run that both have in common, found from a seed in the second or
third quarter of the longer one, or else where the shortest ways through the
grid of both, searched from either end, meet.
-/

namespace Schemata.Diff

variable {α : Type} [BEq α]

def positionFrom (part : List α) : Nat → List α → Option Nat
  | start, [] => if part.isEmpty then some start else none
  | start, x :: xs =>
    if part.isPrefixOf (x :: xs) then some start
    else positionFrom part (start + 1) xs

def positions (part : List α) : Nat → List α → List Nat
  | start, [] => if part.isEmpty then [start] else []
  | start, x :: xs =>
    if part.isPrefixOf (x :: xs) then start :: positions part (start + 1) xs
    else positions part (start + 1) xs

/-- A run that two sequences have in common: where it starts in each, and its
length. -/
structure CommonRun where
  inLong : Nat
  inShort : Nat
  length : Nat

/-- The longest common run around an occurrence of a seed, if it is at least
half as long as the longer sequence.  The seed is a quarter of the longer
sequence from position `i` on. -/
def commonRunAt? (long short : List α) (i : Nat) : Option CommonRun :=
  let seed := (long.drop i).take (long.length / 4)
  let best := (positions seed 0 short).foldl (fun best j =>
    let forward := agreement (long.drop i) (short.drop j)
    let backward := endAgreement (long.take i) (short.take j)
    if best.length < backward + forward then
      (⟨i - backward, j - backward, backward + forward⟩ : CommonRun)
    else best) ⟨0, 0, 0⟩
  if best.length * 2 < long.length then none else some best

def commonRun? (long short : List α) : Option CommonRun :=
  if long.length < 4 || short.length * 2 < long.length then none
  else
    match commonRunAt? long short ((long.length + 3) / 4),
        commonRunAt? long short ((long.length + 1) / 2) with
    | none, second => second
    | first, none => first
    | some first, some second =>
      some (if second.length < first.length then first else second)

/-- How far the search has come on each diagonal, from one end of the grid. -/
structure Front where
  /-- The furthest position on each diagonal, shifted to start at zero; -1 for
  none. -/
  reach : Array Int
  /-- Diagonals left out at the low and at the high end, since they have left
  the grid. -/
  low : Int := 0
  high : Int := 0

def Front.at (f : Front) (i : Int) : Int :=
  if i < 0 then -1 else f.reach.getD i.toNat (-1)

/-- How many elements agree from two positions on, in sequences given as
arrays. -/
def snake (fuel : Nat) (one two : Array α) (x y : Int) : Int :=
  match fuel with
  | 0 => x
  | fuel + 1 =>
    if x < 0 || y < 0 then x
    else
      match one[x.toNat]?, two[y.toNat]? with
      | some a, some b =>
        if a == b then snake fuel one two (x + 1) (y + 1) else x
      | _, _ => x

/-- The start of a step on diagonal `k` after `d` edits: down from the diagonal
above or right from the one below, whichever is further. -/
def Front.start (f : Front) (offset d k : Int) : Int :=
  let i := offset + k
  if k = -d || (k ≠ d && f.at (i - 1) < f.at (i + 1)) then f.at (i + 1)
  else f.at (i - 1) + 1

/-- Where two fronts meet: the diagonal of the one that walks, and how far both
have come. -/
structure Meeting where
  diagonal : Int
  reached : Int
  opposite : Int

/-- Walks one front over the diagonals from `k` on, after `d` edits.  If `meets`
holds, the walk ends where the front meets the other one. -/
def walk
    (one two : Array α) (offset d delta : Int) (meets : Bool) (other : Front) :
    Nat → Int → Front → Front × Option Meeting
  | 0, _, f => (f, none)
  | fuel + 1, k, f =>
    if d - f.high < k then (f, none)
    else
      let start := f.start offset d k
      let x := snake (one.size + 1) one two start (start - k)
      let f := { f with reach := f.reach.setIfInBounds (offset + k).toNat x }
      if (one.size : Int) < x then
        walk one two offset d delta meets other fuel (k + 2)
          { f with high := f.high + 2 }
      else if (two.size : Int) < x - k then
        walk one two offset d delta meets other fuel (k + 2)
          { f with low := f.low + 2 }
      else
        let opposite := other.at (offset + delta - k)
        if meets && opposite ≠ -1 && (one.size : Int) ≤ x + opposite then
          (f, some ⟨k, x, opposite⟩)
        else walk one two offset d delta meets other fuel (k + 2) f

structure Grid (α : Type) where
  one : Array α
  two : Array α
  oneReversed : Array α
  twoReversed : Array α
  /-- The most edits that either front needs. -/
  bound : Nat

def Grid.of (one two : List α) : Grid α :=
  ⟨one.toArray, two.toArray, one.reverse.toArray, two.reverse.toArray,
    (one.length + two.length + 1) / 2⟩

/-- The difference of the lengths, which is the last diagonal. -/
def Grid.delta (g : Grid α) : Int := (g.one.size : Int) - g.two.size

def Grid.search (g : Grid α) : Nat → Int → Front → Front → Option (Int × Int)
  | 0, _, _, _ => none
  | fuel + 1, d, forward, backward =>
    let odd := g.delta % 2 != 0
    match walk g.one g.two g.bound d g.delta odd backward (g.bound + 1)
        (-d + forward.low) forward with
    | (_, some m) => some (m.reached, m.reached - m.diagonal)
    | (forward, none) =>
      match walk g.oneReversed g.twoReversed g.bound d g.delta (!odd) forward
          (g.bound + 1) (-d + backward.low) backward with
      | (_, some m) => some (m.opposite, m.opposite - (g.delta - m.diagonal))
      | (backward, none) => g.search fuel (d + 1) forward backward

/-- Where the shortest ways from both ends meet, as positions in both
sequences. -/
def meeting? (one two : List α) : Option (Nat × Nat) :=
  let g := Grid.of one two
  let unreached : Array Int := Array.replicate (2 * g.bound) (-1)
  let fresh : Front := { reach := unreached.setIfInBounds (g.bound + 1) 0 }
  (g.search g.bound 0 fresh fresh).map fun (x, y) => (x.toNat, y.toNat)

/-- Two pairs of sequences that are compared on their own, and a run kept
between them. -/
structure Division (α : Type) where
  oneFirst : List α
  twoFirst : List α
  kept : Option (List α)
  oneSecond : List α
  twoSecond : List α

inductive Plan (α : Type)
  | script (edits : List (Edit α))
  | divided (parts : Division α)

def divisionAt (one two : List α) (inOne inTwo length : Nat) : Division α :=
  ⟨one.take inOne, two.take inTwo, some ((one.drop inOne).take length),
    one.drop (inOne + length), two.drop (inTwo + length)⟩

/-- The plan for two sequences with neither a common front nor a common end. -/
def plan (one two : List α) : Plan α :=
  if one.isEmpty then .script [⟨.insert, two⟩]
  else if two.isEmpty then .script [⟨.delete, one⟩]
  else
    let oneIsLonger : Bool := two.length < one.length
    let long := if oneIsLonger then one else two
    let short := if oneIsLonger then two else one
    let action : Action := if oneIsLonger then .delete else .insert
    match positionFrom short 0 long with
    | some i =>
      .script
        [⟨action, long.take i⟩, ⟨.keep, short⟩,
         ⟨action, long.drop (i + short.length)⟩]
    | none =>
      if short.length = 1 then .script [⟨.delete, one⟩, ⟨.insert, two⟩]
      else
        match commonRun? long short with
        | some r =>
          if oneIsLonger then
            .divided (divisionAt one two r.inLong r.inShort r.length)
          else .divided (divisionAt one two r.inShort r.inLong r.length)
        | none =>
          match meeting? one two with
          | some (x, y) =>
            .divided ⟨one.take x, two.take y, none, one.drop x, two.drop y⟩
          | none => .script [⟨.delete, one⟩, ⟨.insert, two⟩]

def kept (run : List α) : List (Edit α) :=
  if run.isEmpty then [] else [⟨.keep, run⟩]

/-- A script from one sequence to another, divided at most `depth` times on the
way to each element. -/
def compareWith : Nat → List α → List α → List (Edit α)
  | depth, one, two =>
    if one == two then kept one
    else
      let front := agreement one two
      let back := endAgreement (one.drop front) (two.drop front)
      let oneMiddle := (one.drop front).take ((one.drop front).length - back)
      let twoMiddle := (two.drop front).take ((two.drop front).length - back)
      let middle : List (Edit α) :=
        match depth, plan oneMiddle twoMiddle with
        | _, .script edits => edits
        | 0, .divided _ => [⟨.delete, oneMiddle⟩, ⟨.insert, twoMiddle⟩]
        | depth + 1, .divided parts =>
          compareWith depth parts.oneFirst parts.twoFirst
            ++ parts.kept.toList.map (fun run => ⟨.keep, run⟩)
            ++ compareWith depth parts.oneSecond parts.twoSecond
      tidy
        (kept (one.take front) ++ middle ++
          kept (one.drop (front + oneMiddle.length)))

def compare (one two : List α) : List (Edit α) :=
  compareWith (one.length + two.length + 1) one two

end Schemata.Diff
