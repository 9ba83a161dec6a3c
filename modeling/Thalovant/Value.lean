import Thalovant.Basic
import Thalovant.Lib.Json.Value

/-!
# JSON values as the client holds them

The values are those of the `Json` library over the numbers of the JSON parser, which keeps integers
of 64 bits apart from floating-point numbers.
-/

namespace Thalovant

/-- A JSON number. A floating-point number is the bits of a finite `f64`. -/
inductive Number where
  | posInt (n : UInt64)
  | negInt (n : Int64)
  | float (bits : UInt64)
  deriving DecidableEq, Repr

/-- `as_u64`. -/
def Number.asU64 : Number → Option Nat
  | .posInt n => some n.toNat
  | _ => none

/-- `as_i64`. -/
def Number.asI64 : Number → Option Int
  | .posInt n => if n.toNat < 2 ^ 63 then some n.toNat else none
  | .negInt n => some n.toInt
  | .float _ => none

/-- `is_i64` or `is_u64`. -/
def Number.isInteger : Number → Bool
  | .float _ => false
  | _ => true

/-- The number is zero, of either sign. -/
def Number.isZero : Number → Bool
  | .posInt n => n = 0
  | .negInt n => n = 0
  | .float bits => bits = 0 || bits = 0x8000000000000000

abbrev Value := Json.Value Number

/-- A JSON object. -/
abbrev Map := Json.Entries Number

namespace Map

/-- The value under a key. -/
def get (key : String) (m : Map) : Option Value := SortedMap.get key m

def containsKey (key : String) (m : Map) : Bool := (m.get key).isSome

/-- Put a value under a key, in place of the one there. -/
def insert (key : String) (value : Value) (m : Map) : Map := SortedMap.insert key value m

theorem get_insert (j key : String) (value : Value) (m : Map) :
    (m.insert key value).get j = if j = key then some value else m.get j :=
  SortedMap.get_insert j key value m

/-- The map without a key. -/
def remove (key : String) (m : Map) : Map := SortedMap.erase key m

/-- The text under a key. -/
def getStr (key : String) (m : Map) : Option String := (m.get key).bind Json.Value.asStr

end Map

/-- A member of an object. -/
def member (key : String) (body : Value) : Option Value := body.asObject.bind (Map.get key)

/-- `as_u64`, of a value. -/
def asU64 : Value → Option UInt64
  | .number (.posInt n) => some n
  | _ => none

end Thalovant
