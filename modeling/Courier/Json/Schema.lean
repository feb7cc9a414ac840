-- Reading typed fields out of JSON values, with messages that name what was found and what was
-- expected.
import Courier.Json.Basic
import Courier.Text.Quoted

namespace Courier

/-- A value of the wrong shape or range, as one sentence. -/
abbrev Mismatch := String

/-- Text in a message: double quotes, and only the double quote escaped. -/
def quoteText (s : String) : String := Text.quoteString s

/-- A float in a message: all digits positional, with `.0` on a whole number. -/
def floatWords (x : Float) : String := Decimal.FloatStyle.plain.render "inf" "NaN" x

namespace Json

/-- What a value is, in the words of a mismatch message. -/
def unexpected : Json → String
  | .null => "null"
  | .bool b => s!"boolean `{b}`"
  | .int n => s!"integer `{n}`"
  | .float x => "floating point `" ++ floatWords x ++ "`"
  | .str s => "string " ++ quoteText s
  | .arr _ => "sequence"
  | .obj _ => "map"

/-- The message for a value of the wrong type. -/
def invalidType (j : Json) (expected : String) : Mismatch :=
  s!"invalid type: {j.unexpected}, expected {expected}"

/-- A whole number from `0` to `max`, named `what` in messages. -/
def toUnsigned (what : String) (max : Nat) (j : Json) : Except Mismatch Nat :=
  match j with
  | .int n =>
    if 0 ≤ n && n ≤ max then .ok n.toNat
    else .error s!"invalid value: integer `{n}`, expected {what}"
  | j => .error (j.invalidType what)

/-- The fields of an object in order of their names. -/
def sortedFields (fields : List (String × Json)) : List (String × Json) :=
  fields.mergeSort (fun a b => a.1 ≤ b.1)

end Json

end Courier
