-- Log levels from error to trace, read in any case and written in lower case.
import Courier.Json.Schema

namespace Courier

/-- How much a node logs. -/
inductive LogLevel where
  | error
  | warn
  | info
  | debug
  | trace
deriving DecidableEq, Repr, Inhabited

namespace LogLevel

/-- Every level, most severe first. -/
def all : List LogLevel := [.error, .warn, .info, .debug, .trace]

/-- The level's name in capitals. -/
def name : LogLevel → String
  | .error => "ERROR"
  | .warn => "WARN"
  | .info => "INFO"
  | .debug => "DEBUG"
  | .trace => "TRACE"

/-- The level's name in data. -/
def lower : LogLevel → String
  | .error => "error"
  | .warn => "warn"
  | .info => "info"
  | .debug => "debug"
  | .trace => "trace"

/-- The place of the level, 0 for error up to 4 for trace. -/
def rank : LogLevel → Nat
  | .error => 0
  | .warn => 1
  | .info => 2
  | .debug => 3
  | .trace => 4

/-- The upper case of a character where it is written in ASCII letters: the ASCII letters, the
dotless i, the long s and the Latin ligatures. Other characters stay as they are, and a text that
holds one never names a level. -/
def upperLatin (c : Char) : List Char :=
  if 'a' ≤ c && c ≤ 'z' then [Char.ofNat (c.toNat - 32)]
  else match c.toNat with
    | 0x131 => ['I']
    | 0x17F => ['S']
    | 0xFB00 => ['F', 'F']
    | 0xFB01 => ['F', 'I']
    | 0xFB02 => ['F', 'L']
    | 0xFB03 => ['F', 'F', 'I']
    | 0xFB04 => ['F', 'F', 'L']
    | 0xFB05 => ['S', 'T']
    | 0xFB06 => ['S', 'T']
    | _ => [c]

/-- Reads a level in any case; `WARNING` is warn. -/
def parse (s : String) : Except String LogLevel :=
  match String.ofList (s.toList.flatMap upperLatin) with
  | "ERROR" => .ok .error
  | "WARN" | "WARNING" => .ok .warn
  | "INFO" => .ok .info
  | "DEBUG" => .ok .debug
  | "TRACE" => .ok .trace
  | _ => .error s!"unknown log level '{s}'"

/-- The level of a lower-case name. -/
def ofLower? (s : String) : Option LogLevel := all.find? (·.lower == s)

/-- The message for a name that is no level. -/
def unknownVariant (s : String) : Mismatch :=
  s!"unknown variant `{s}`, expected one of `error`, `warn`, `info`, `debug`, `trace`"

/-- Reads a level from data: a lower-case name, or an object with one such name whose value is
null. -/
def ofJson : Json → Except Mismatch LogLevel
  | .str s => match ofLower? s with
    | some l => .ok l
    | none => .error (unknownVariant s)
  | .obj [(k, v)] => match ofLower? k with
    | some l => match v with
      | .null => .ok l
      | v => .error (v.invalidType "unit variant")
    | none => .error (unknownVariant k)
  | .obj _ => .error "invalid value: map, expected map with a single key"
  | j => .error (j.invalidType "string or map")

end LogLevel

end Courier
