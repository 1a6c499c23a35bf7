import Schemata.Schema

/-!
# Fingerprints

The fingerprint of a schema is a byte string made of its kind, its attributes
and the fingerprints of its parts.  Its hash keys the tables in which subtyping
and unions look up schemas they have met.  Equal schemas have equal hashes;
tables still compare the schemas they find under a key.
-/

namespace Schemata

/-- The eight bytes of a number, lowest first, modulo 2^64. -/
def littleEndian (n : Nat) : Bytes :=
  (List.range 8).map fun i => (n / Nat.pow 256 i).toUInt8

namespace Schema

def truthMark (b : Bool) : Bytes := [if b then 1 else 0]

/-- An integer in a fingerprint, in two's complement. -/
def integerMark (i : Int) : Bytes := littleEndian (i % wordCount).toNat

/-- A length bound in a fingerprint, with -1 for no bound. -/
def lengthMark : Option Nat → Bytes
  | none => integerMark (-1)
  | some n => integerMark n

def segmentMark : Segment → Bytes
  | .index i => 1 :: integerMark i
  | .field name => 2 :: (name ++ [0])

mutual

def fingerprint : Schema → Bytes
  | .anything => [0]
  | .nothing => [1]
  | .null => [2]
  | .boolean => [3]
  | .number whole signed nbytes =>
    4 :: (truthMark whole ++ truthMark signed ++ integerMark nbytes)
  | .string charset maxLength => 5 :: (charset ++ [0] ++ lengthMark maxLength)
  | .tensor items dimensions =>
    6 ::
      (items.fingerprint ++ integerMark dimensions.length ++
        dimensions.flatMap fun d : Nat => integerMark d)
  | .collection items ordered maxLength =>
    7 :: (items.fingerprint ++ truthMark ordered ++ lengthMark maxLength)
  | .mapping keys values => 8 :: (keys.fingerprint ++ values.fingerprint)
  | .record fields =>
    9 :: (integerMark fields.length ++ fieldsFingerprint fields)
  | .union possibilities =>
    10 :: (integerMark possibilities.length ++ allFingerprint possibilities)
  | .reference path =>
    11 :: (integerMark path.length ++ path.flatMap segmentMark)

def allFingerprint : List Schema → Bytes
  | [] => []
  | p :: ps => p.fingerprint ++ allFingerprint ps

def fieldsFingerprint : List (Bytes × Schema) → Bytes
  | [] => []
  | (name, f) :: rest => name ++ [0] ++ f.fingerprint ++ fieldsFingerprint rest

end

def hash (s : Schema) : UInt64 :=
  s.fingerprint.foldl (fun h b => (h ^^^ b.toUInt64) * 0x100000001B3)
    0xCBF29CE484222325

end Schema

end Schemata
