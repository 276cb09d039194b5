/-
What the native runtime uses of nlohmann's `json`: the parser, the accessors
that throw and those that do not, and what its `dump` takes.

Bytes are bytes, as they come from outside and stand in an error text; a
string of a parsed value is valid UTF-8, which the parser sees to, so it is a
`String`. Arithmetic on floats is a parameter, `Arith`.
-/
import RetailVision.Json
import RetailVision.Lib.Checked

set_option linter.all false

namespace RetailVision

open Lib

abbrev Bytes := List UInt8

/-- The bytes of a text. -/
def utf8 (s : String) : Bytes := s.toByteArray.data.toList

/-- The bytes are those of a text. -/
def Utf8 (b : Bytes) : Prop := (ByteArray.mk b.toArray).IsValidUTF8

instance (b : Bytes) : Decidable (Utf8 b) := inferInstanceAs (Decidable (ByteArray.IsValidUTF8 _))

/-- nlohmann's `parse`, with the text of its error, and the text of the
`type_error` its `dump` throws. -/
structure Nlohmann where
  parse : Bytes → Except Bytes Json
  dumpError : Bytes → String

/-- `get<int64_t>` of an integer. -/
def toInt64 (v : Int) : Int := (v + 2 ^ 63) % 2 ^ 64 - 2 ^ 63

/-- `get<int>` of an integer. -/
def toInt32 (v : Int) : Int := (v + 2 ^ 31) % 2 ^ 32 - 2 ^ 31

/-- A reader of a value: an error is what `configure` says, an exception nlohmann's. -/
abbrev Reader := Checked Bytes

/-- What is done with floats, `F` being `float`. -/
structure Arith (F : Type) where
  /-- a literal -/
  lit : Rat → F
  /-- `static_cast<double>` -/
  toDouble : Int → F64
  /-- `static_cast<float>` -/
  toFloat : F64 → F
  intToFloat : Int → F
  /-- `std::hypot(bx - ax, by - ay) < 1e-9f` -/
  degenerate : F → F → F → F → Bool
  /-- `==` -/
  eq : F → F → Bool

namespace Json

variable {F : Type} (ar : Arith F)

/-- `is_number`, with `get<double>` and `get<float>` of it. -/
def number : Json → Option (F64 × F)
  | .int i => some (ar.toDouble i, ar.intToFloat i)
  | .float x => some (x, ar.toFloat x)
  | _ => none

/-- `get<std::string>()` -/
def getString : Json → Reader String
  | .str s => .ok s
  | j => .threw ("[json.exception.type_error.302] type must be string, but is " ++ j.typeName)

/-- `get<float>()`, which takes a boolean too. -/
def getFloat : Json → Reader F
  | .int i => .ok (ar.intToFloat i)
  | .float x => .ok (ar.toFloat x)
  | .bool b => .ok (ar.intToFloat (if b then 1 else 0))
  | j => .threw ("[json.exception.type_error.302] type must be number, but is " ++ j.typeName)

/-- `at` of an index. -/
def atIndex (i : Nat) : Json → Reader Json
  | .arr xs => match xs[i]? with
    | some x => .ok x
    | none => .threw ("[json.exception.out_of_range.401] array index " ++ toString i ++ " is out of range")
  | j => .threw ("[json.exception.type_error.304] cannot use at() with " ++ j.typeName)

end Json

end RetailVision
