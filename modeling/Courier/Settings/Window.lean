-- Window settings as a user writes them, and the window limits made from them: no cap below one, and
-- a largest cap at least the initial one.
import Courier.Json.Schema
import Courier.Transport.Window

namespace Courier

/-- Flow window settings. -/
structure WindowSettings where
  initialCap : Nat := 16
  maxCap : Nat := 64
  idleTimeoutSecs : Nat := 60
deriving DecidableEq, Repr

namespace WindowSettings

/-- The window limits: caps of at least one, the largest cap at least the initial one, and the
timeout in milliseconds. -/
def toConfig (s : WindowSettings) : WindowConfig :=
  { initialCap := max s.initialCap 1
    maxCap := max (max s.maxCap s.initialCap) 1
    idleTimeout := s.idleTimeoutSecs * 1000 }

/-- Sets one field by name; other names are ignored. -/
def setField (s : WindowSettings) (name : String) (v : Json) : Except Mismatch WindowSettings :=
  match name with
  | "initial_cap" => (v.toUnsigned "usize" u64Max').map fun n => { s with initialCap := n }
  | "max_cap" => (v.toUnsigned "usize" u64Max').map fun n => { s with maxCap := n }
  | "idle_timeout_secs" => (v.toUnsigned "u64" u64Max').map fun n => { s with idleTimeoutSecs := n }
  | _ => .ok s
where
  u64Max' : Nat := Nat.pow 2 64 - 1

/-- The field names in the order of a list of values. -/
def fieldNames : List String := ["initial_cap", "max_cap", "idle_timeout_secs"]

/-- Reads window settings from data: an object of named fields (read in order of their names) or
a list of values in field order, missing ones taking their defaults. -/
def ofJson : Json → Except Mismatch WindowSettings
  | .obj fields => (Json.sortedFields fields).foldlM (fun s (k, v) => s.setField k v) {}
  | .arr items =>
    if items.length > 3 then .error s!"invalid length {items.length}, expected fewer elements in array"
    else (fieldNames.zip items).foldlM (fun s (k, v) => s.setField k v) {}
  | j => .error (j.invalidType "struct WindowSettings")

/-- The settings as data. -/
def toJson (s : WindowSettings) : Json :=
  .obj [("initial_cap", .nat s.initialCap), ("max_cap", .nat s.maxCap),
    ("idle_timeout_secs", .nat s.idleTimeoutSecs)]

end WindowSettings

/-- Window limits as data. -/
def WindowConfig.toJson (c : WindowConfig) : Json :=
  .obj [("initial_cap", .nat c.initialCap), ("max_cap", .nat c.maxCap),
    ("idle_timeout_ms", .nat c.idleTimeout)]

end Courier
