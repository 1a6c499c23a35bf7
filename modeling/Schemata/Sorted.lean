/-!
# Insertion into sorted lists

Unions list their possibilities and records their fields in increasing order.
Sorting is by insertion from the right, so it is stable, and it recurses on the
list alone.
-/

namespace Schemata

/-- Inserts `x` in front of the first element that is not smaller. -/
def insertBy {α : Type} (cmp : α → α → Ordering) (x : α) : List α → List α
  | [] => [x]
  | y :: ys => if cmp x y == .gt then y :: insertBy cmp x ys else x :: y :: ys

/-- The list in increasing order; elements that compare equal keep their
order. -/
def sortBy {α : Type} (cmp : α → α → Ordering) : List α → List α
  | [] => []
  | x :: xs => insertBy cmp x (sortBy cmp xs)

def setEntry {κ α : Type} [Ord κ] (key : κ) (value : α) :
    List (κ × α) → List (κ × α)
  | [] => [(key, value)]
  | (k, v) :: rest =>
    match compare key k with
    | .lt => (key, value) :: (k, v) :: rest
    | .eq => (key, value) :: rest
    | .gt => (k, v) :: setEntry key value rest

/-- The entries sorted by key; of two entries with one key the later one
counts. -/
def sortEntries {κ α : Type} [Ord κ] (entries : List (κ × α)) : List (κ × α) :=
  entries.foldl (fun sorted (k, v) => setEntry k v sorted) []

end Schemata
