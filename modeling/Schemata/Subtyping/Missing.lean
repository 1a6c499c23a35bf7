import Schemata.Subtyping

/-!
# Subtyping with a missing side

A missing schema is a subtype of itself and, like any other, of the most general
schema; the empty schema is a subtype of it.  A reference cannot be compared
with it, since pairs are filed by both sides, and the schemas of absence and
truth ask it for its kind.
-/

namespace Schemata.Subtyping

inductive Fault
  | unresolved (cause : DereferenceError)
  /-- A missing schema has no key to be filed under. -/
  | keyOfMissing
  /-- A missing schema has no kind. -/
  | kindOfMissing

mutual

def belowMissing : Schema → Except Fault Bool
  | .nothing => .ok true
  | .reference _ => .error .keyOfMissing
  | .union possibilities => anyBelowMissing possibilities
  | _ => .ok false

def anyBelowMissing : List Schema → Except Fault Bool
  | [] => .ok false
  | p :: ps =>
    match belowMissing p with
    | .ok false => anyBelowMissing ps
    | answer => answer

end

mutual

def aboveMissing : Schema → Except Fault Bool
  | .anything => .ok true
  | .reference _ => .error .keyOfMissing
  | .union possibilities => anyAboveMissing possibilities
  | .null => .error .kindOfMissing
  | .boolean => .error .kindOfMissing
  | _ => .ok false

def anyAboveMissing : List Schema → Except Fault Bool
  | [] => .ok false
  | p :: ps =>
    match aboveMissing p with
    | .ok false => anyAboveMissing ps
    | answer => answer

end

def isSubtypeOptional (super sub root : Option Schema) : Except Fault Bool :=
  match super, sub with
  | none, none => .ok true
  | none, some sub => belowMissing sub
  | some super, none => aboveMissing super
  | some super, some sub =>
    match super.isSubtypeIn sub root with
    | .ok b => .ok b
    | .error cause => .error (.unresolved cause)

end Schemata.Subtyping
