-- Reading typed fields out of a TOML table, with messages that name what was found and what was
-- expected and point at the value or its key.
import Courier.Toml.Reader
import Courier.Json.Schema

namespace Courier.Toml

namespace Value

/-- What a value is, in the words of a mismatch message. A date counts as a map. -/
def unexpected : Value → String
  | .str s _ => "string " ++ quoteText s
  | .int n _ => "integer `" ++ toString n ++ "`"
  | .float x _ => "floating point `" ++ floatWords x ++ "`"
  | .bool b _ => "boolean `" ++ toString b ++ "`"
  | .date .. | .inline .. | .table .. => "map"
  | .array .. | .tables .. => "sequence"

/-- The message for a value of the wrong type. -/
def invalidType (v : Value) (expected : String) : String :=
  "invalid type: " ++ v.unexpected ++ ", expected " ++ expected

/-- A string, named `what` in messages. -/
def asString (what : String) : Value → Except String String
  | .str s _ => .ok s
  | v => .error (v.invalidType what)

/-- A whole number that is not negative, named `what` in messages. -/
def asUnsigned (what : String) : Value → Except String Nat
  | .int n _ => if 0 ≤ n then .ok n.toNat else .error ("invalid value: integer `" ++ toString n ++ "`, expected " ++ what)
  | v => .error (v.invalidType what)

end Value

/-- A problem with no span of its own pointing at a fallback. -/
def Problem.orAt (p : Problem) (span : Option Span) : Problem :=
  match p.span with
  | some _ => p
  | none => { p with span }

/-- Decodes the entries of a table in order into a record, starting from `init`. `field` answers
`none` for a key it does not know. -/
def decodeFields (es : Entries) (init : σ) (field : σ → String → Value → Option (Except Problem σ)) :
    Except Problem σ :=
  es.foldlM (fun st (k, v) =>
    match field st k.name v with
    | none => .ok st
    | some r => r.mapError (·.orAt (v.span?.orElse fun _ => some k.span))) init

/-- A problem with only a message. -/
def misfit (m : String) : Problem := ⟨none, m⟩

/-- Decodes a structure named `what` from a table, or from a list of its fields' values in the
order `names`; fields not given keep their value in `init`, and items past the last field are let
be. -/
def Value.decodeStruct (what : String) (names : List String) (init : σ)
    (field : σ → String → Value → Option (Except Problem σ)) : Value → Except Problem σ
  | .table es _ _ | .inline es _ _ => decodeFields es init field
  | .array items _ | .tables items _ =>
    (names.zip items).foldlM (fun st (n, v) =>
      match field st n v with
      | none => .ok st
      | some r => r.mapError (·.orAt v.span?)) init
  | v => .error (misfit (v.invalidType what))

end Courier.Toml
