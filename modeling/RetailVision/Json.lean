/-
JSON values as both sides of the repository hold them: Python's `json`
module in the supervisor, nlohmann's in the native runtime. An object is
its members in order; a lookup finds the first of a key, and both parsers
keep one member a key.

A number with no fraction or exponent is an integer (`int` in Python,
`number_integer`/`number_unsigned` in nlohmann), any other a double. A
finite double is the rational it denotes.
-/
import Mathlib.Data.Rat.Defs
import Mathlib.Algebra.Order.Ring.Rat

set_option linter.all false

namespace RetailVision

/-- A double: not a number, an infinity, or the rational it denotes. -/
inductive F64
  | nan
  | inf (neg : Bool)
  | fin (q : Rat)
  deriving DecidableEq

namespace F64

/-- IEEE `<`: false with a NaN on either side. -/
def lt : F64 → F64 → Bool
  | .fin p, .fin q => decide (p < q)
  | .inf true, .fin _ | .inf true, .inf false | .fin _, .inf false => true
  | _, _ => false

/-- IEEE `<=`. -/
def le : F64 → F64 → Bool
  | .fin p, .fin q => decide (p ≤ q)
  | .inf true, .fin _ | .inf true, .inf _ | .fin _, .inf false | .inf false, .inf false => true
  | _, _ => false

def isFinite : F64 → Bool
  | .fin _ => true
  | _ => false

end F64

inductive Json
  | null
  | bool (b : Bool)
  | int (i : Int)
  | float (x : F64)
  | str (s : String)
  | arr (xs : List Json)
  | obj (kvs : List (String × Json))

namespace Json

/-- The member of an object under a key; `none` for anything but an object. -/
def find : Json → String → Option Json
  | .obj kvs, k => (kvs.find? (·.1 == k)).map (·.2)
  | _, _ => none

/-- `d[k] = v`, on the members of an object. -/
def setMember (k : String) (v : Json) : List (String × Json) → List (String × Json)
  | [] => [(k, v)]
  | kv :: kvs => if kv.1 = k then (k, v) :: kvs else kv :: setMember k v kvs

@[simp] theorem find_setMember_self {k : String} {v : Json} {kvs : List (String × Json)} :
    (Json.obj (setMember k v kvs)).find k = some v := by
  induction kvs with
  | nil => simp [setMember, find]
  | cons kv kvs ih =>
    by_cases hk : kv.1 = k
    · simp [setMember, find, hk]
    · simpa [setMember, find, hk] using ih

theorem find_setMember_ne {k k' : String} {v : Json} {kvs : List (String × Json)} (hk : k' ≠ k) :
    (Json.obj (setMember k v kvs)).find k' = (Json.obj kvs).find k' := by
  induction kvs with
  | nil => simp [setMember, find, hk.symm]
  | cons kv kvs ih =>
    simp only [find] at ih
    by_cases hkv : kv.1 = k
    · simp [setMember, find, hkv, hk.symm]
    · by_cases hk' : kv.1 = k'
      · simp [setMember, find, hk', hk]
      · simp [setMember, find, hkv, hk', ih]

def isNull : Json → Bool
  | .null => true
  | _ => false

def isObject : Json → Bool
  | .obj _ => true
  | _ => false

/-- `null`, `false`, `true`, numbers, strings and containers by name, as an
error message calls them. -/
def typeName : Json → String
  | .null => "null"
  | .bool _ => "boolean"
  | .int _ | .float _ => "number"
  | .str _ => "string"
  | .arr _ => "array"
  | .obj _ => "object"

end Json

end RetailVision
