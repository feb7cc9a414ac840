-- A node's settings, each with a default, read from TOML with unknown keys let be and written back
-- without the fields that have no value; the limits a node runs with come from them.
import Courier.Settings.Window
import Courier.LogLevel
import Courier.Toml.Decode
import Courier.Toml.Writer
import Courier.Transport.Bridge

namespace Courier

open Toml

/-- What a node is set to do. -/
structure Settings where
  nodeName : String
  rootDir : String := "."
  receiveDir : Option String := none
  saveFile : Option String := none
  friendAddress : Option String := none
  logLevel : LogLevel := .info
  pumpIntervalMs : Nat := 50
  queueCapacity : Nat := 512
  workQueueCapacity : Nat := 256
  window : WindowSettings := {}

namespace LogLevel

/-- Reads a level from TOML: a lower-case name, or a table with one such name whose value is an
empty table or list. A problem with the name points at the name, one with its value at the value;
the others point at the whole. -/
def ofToml : Value → Except Problem LogLevel
  | .str s _ => match ofLower? s with
    | some l => .ok l
    | none => .error (misfit (unknownVariant s))
  | .inline es _ _ | .table es _ _ =>
    match es with
    | [] => .error (misfit "wanted exactly 1 element, found 0 elements")
    | [(k, v)] =>
      match ofLower? k.name with
      | none => .error ⟨some k.span, unknownVariant k.name⟩
      | some l =>
        match v with
        | .array [] _ | .inline [] _ _ | .table [] _ _ => .ok l
        | .array .. | .tables .. => .error ⟨v.span?, "expected empty array"⟩
        | .inline .. | .table .. => .error ⟨v.span?, "expected empty table"⟩
        | v => .error ⟨v.span?, "expected table, found " ++ v.typeName⟩
    | _ => .error (misfit "wanted exactly 1 element, more than 1 element")
  | _ => .error (misfit "wanted string or table")

end LogLevel

namespace WindowSettings

/-- Sets one field of window settings from TOML; other names are not fields. -/
def tomlField (s : WindowSettings) (name : String) (v : Value) : Option (Except Problem WindowSettings) :=
  let number (what : String) (set : Nat → WindowSettings) :=
    some ((v.asUnsigned what).map set |>.mapError misfit)
  match name with
  | "initial_cap" => number "usize" fun n => { s with initialCap := n }
  | "max_cap" => number "usize" fun n => { s with maxCap := n }
  | "idle_timeout_secs" => number "u64" fun n => { s with idleTimeoutSecs := n }
  | _ => none

end WindowSettings

namespace Settings

/-- The defaults, with a host's name as the node's name. -/
def defaults (host : String) : Settings := { nodeName := host }

/-- Sets one field of the settings from TOML; other names are not fields. -/
def tomlField (s : Settings) (name : String) (v : Value) : Option (Except Problem Settings) :=
  let lift {α : Type} (r : Except String α) (set : α → Settings) : Option (Except Problem Settings) :=
    some (r.map set |>.mapError misfit)
  match name with
  | "node_name" => lift (v.asString "a string") fun x => { s with nodeName := x }
  | "root_dir" => lift (v.asString "path string") fun x => { s with rootDir := x }
  | "receive_dir" => lift (v.asString "path string") fun x => { s with receiveDir := some x }
  | "save_file" => lift (v.asString "path string") fun x => { s with saveFile := some x }
  | "friend_address" => lift (v.asString "a string") fun x => { s with friendAddress := some x }
  | "log_level" => some ((LogLevel.ofToml v).map fun x => { s with logLevel := x })
  | "pump_interval_ms" => lift (v.asUnsigned "u64") fun x => { s with pumpIntervalMs := x }
  | "queue_capacity" => lift (v.asUnsigned "usize") fun x => { s with queueCapacity := x }
  | "work_queue_capacity" => lift (v.asUnsigned "usize") fun x => { s with workQueueCapacity := x }
  | "window" =>
    some ((v.decodeStruct "struct WindowSettings" WindowSettings.fieldNames s.window
      WindowSettings.tomlField).map fun w => { s with window := w })
  | _ => none

/-- Reads settings from TOML text; fields not named keep their defaults. A text that is no
document, or a value that does not fit its field, gives the message laid out under its line. -/
def ofToml (host : String) (text : String) : Except String Settings :=
  let result : Except Problem Settings := do
    let es ← read text
    decodeFields es (defaults host) tomlField
  result.mapError fun p => report text p.span p.message

/-- The window settings as TOML entries. -/
def windowEntries (w : WindowSettings) : List (String × Scalar) :=
  [("initial_cap", .whole w.initialCap), ("max_cap", .whole w.maxCap),
    ("idle_timeout_secs", .whole w.idleTimeoutSecs)]

/-- The plain entries of the settings, those without a value left out. -/
def rootEntries (s : Settings) : List (String × Scalar) :=
  [("node_name", .text s.nodeName), ("root_dir", .text s.rootDir)] ++
    (s.receiveDir.map fun d => ("receive_dir", Scalar.text d)).toList ++
    (s.saveFile.map fun f => ("save_file", Scalar.text f)).toList ++
    (s.friendAddress.map fun a => ("friend_address", Scalar.text a)).toList ++
    [("log_level", .text s.logLevel.lower), ("pump_interval_ms", .whole s.pumpIntervalMs),
      ("queue_capacity", .whole s.queueCapacity),
      ("work_queue_capacity", .whole s.workQueueCapacity)]

/-- The settings as TOML text. A number past the largest a document holds cannot be written. -/
def toToml (s : Settings) : Except String String :=
  let numbers := [s.pumpIntervalMs, s.queueCapacity, s.workQueueCapacity, s.window.initialCap,
    s.window.maxCap, s.window.idleTimeoutSecs]
  if numbers.any (· > intMax) then .error "out-of-range value for u64 type"
  else .ok (writeDocument s.rootEntries [("window", windowEntries s.window)])

/-- The pump interval in milliseconds: at least one. -/
def pumpInterval (s : Settings) : Nat := max s.pumpIntervalMs 1

/-- The limits of the node's bridge. -/
def bridgeConfig (s : Settings) : BridgeConfig :=
  { queueCapacity := s.queueCapacity, window := s.window.toConfig, saveFile := s.saveFile }

/-- The settings as data, with the limits that come from them under `derived`. -/
def toJson (s : Settings) : Json :=
  let bridge := s.bridgeConfig
  .obj [("node_name", .str s.nodeName), ("root_dir", .str s.rootDir),
    ("receive_dir", Json.optStr s.receiveDir), ("save_file", Json.optStr s.saveFile),
    ("friend_address", Json.optStr s.friendAddress), ("log_level", .str s.logLevel.lower),
    ("pump_interval_ms", .nat s.pumpIntervalMs), ("queue_capacity", .nat s.queueCapacity),
    ("work_queue_capacity", .nat s.workQueueCapacity), ("window", s.window.toJson),
    ("derived", .obj [("pump_interval_ms", .nat s.pumpInterval),
      ("bridge", .obj [("queue_capacity", .nat bridge.queueCapacity),
        ("window", bridge.window.toJson), ("save_file", Json.optStr bridge.saveFile)]),
      ("engine", .obj [("root_dir", .str s.rootDir), ("receive_dir", Json.optStr s.receiveDir),
        ("queue_capacity", .nat s.workQueueCapacity)])])]

end Settings

end Courier
