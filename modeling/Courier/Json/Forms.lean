-- The JSON forms of the library's values: events, errors, calls, transfers, addresses, levels, flow
-- windows and reports.
import Courier.Json.Basic
import Courier.Text.Digest
import Courier.Transport.Scripted
import Courier.Transfer.Engine
import Courier.Command
import Courier.Address
import Courier.LogLevel

namespace Courier

/-- The fields that name a transfer. -/
def TransferId.fields (id : TransferId) : List (String × Json) :=
  [("peer", .nat id.peer.toNat), ("file", .nat id.file.toNat)]

/-- An error of some kind with its sentence. -/
def errorJson (kind message : String) : Json := .obj [("error", .str kind), ("message", .str message)]

/-- An event tagged with its kind. -/
def Event.toJson (e : Event) : Json :=
  .obj (("type", .str e.typeName) :: match e with
    | .friendRequest k m => [("key", .str k.hex), ("message", .str m)]
    | .friendMessage p t => [("peer", .nat p.toNat), ("text", .str t)]
    | .friendName p n => [("peer", .nat p.toNat), ("name", .str n)]
    | .friendStatus p t => [("peer", .nat p.toNat), ("status", .str t)]
    | .fileOffered id n z => id.fields ++ [("name", .str n), ("size", .nat z)]
    | .fileControl id c => id.fields ++ [("control", .str c.name)]
    | .chunkRequested id r => id.fields ++ [("offset", .nat r.offset), ("length", .nat r.length)]
    | .chunkReceived id o d => id.fields ++ [("offset", .nat o), ("len", .nat d.size), ("data", .str (Text.bytesText d))])

/-- A native error with its sentence and the sentence with its code. -/
def NativeError.toJson (e : NativeError) : Json :=
  .obj [("error", .str "NativeError"), ("code", .int e.code), ("message", .str e.message),
    ("display", .str e.display)]

/-- A transport error with its code, `null` for those without one. -/
def TransportError.toJson (e : TransportError) : Json :=
  .obj [("error", .str e.kind), ("message", .str e.message),
    ("code", match e.code? with | some c => .int c | none => .null)]

/-- A transfer error. -/
def TransferError.toJson (e : TransferError) : Json := errorJson e.kind e.message

/-- An inbound item: an event, or a file error tagged `FileError`. -/
def Inbound.toJson : Inbound → Json
  | .event e => e.toJson
  | .fileError id e => .obj (("type", .str "FileError") :: id.fields ++ [("error", e.toJson)])

/-- A call on the scripted transport, tagged with its method. -/
def Invocation.toJson (i : Invocation) : Json :=
  .obj (("call", .str i.method) :: match i with
    | .friendKey p => [("peer", .nat p.toNat)]
    | .sendText p t => [("peer", .nat p.toNat), ("text", .str t)]
    | .offerFile p n z => [("peer", .nat p.toNat), ("name", .str n), ("size", .nat z)]
    | .addFriend k => [("key", .str k.hex)]
    | .setControl id c => id.fields ++ [("control", .str c.name)]
    | .sendChunk id o d => id.fields ++ [("offset", .nat o), ("len", .nat d.size), ("data", .str (Text.bytesText d))]
    | .saveState => [])

/-- A call of the engine, tagged `control` or `chunk`. -/
def Transfer.Call.toJson : Transfer.Call → Json
  | .control id c => .obj (("cmd", .str "control") :: id.fields ++ [("control", .str c.name)])
  | .chunk id o d => .obj (("cmd", .str "chunk") :: id.fields ++
      [("offset", .nat o), ("len", .nat d.size), ("data", .str (Text.bytesText d))])

/-- A transfer seen from outside, with its line. -/
def TransferSummary.toJson (s : TransferSummary) : Json :=
  .obj (s.id.fields ++ [("direction", .str s.direction.name), ("activity", .str s.activity.name),
    ("progress", .nat s.progress), ("total", .nat s.total), ("fraction", .float s.fraction),
    ("path", .str s.path), ("display", .str s.display)])

/-- What a send request did; the transfer of each offered file is shown when `ids` holds. -/
def Transfer.SendReport.toJson (r : Transfer.SendReport) (ids : Bool) : Json :=
  .obj [("offered", .arr (r.offered.map fun f =>
      .obj ((if ids then f.id.fields else []) ++ [("path", .str f.path), ("size", .nat f.size)]))),
    ("failed", .arr (r.failed.map fun (p, e) => .obj [("path", .str p), ("error", e.toJson)]))]

/-- A command tagged with its kind. -/
def Command.toJson : Command → Json
  | .send p => .obj [("kind", .str "send"), ("path", .str p)]
  | .save => .obj [("kind", .str "save")]
  | .status => .obj [("kind", .str "status")]
  | .help => .obj [("kind", .str "help")]
  | .unknown t => .obj [("kind", .str "unknown"), ("text", .str t)]

/-- An address as data. -/
def Address.toJson (a : Address) : Json :=
  .obj [("public_key", .str a.key.hex), ("nospam", .nat a.nospam.toNat),
    ("checksum", .nat a.checksum.toNat), ("text", .str a.hex)]

/-- A level as data: its names, its filter and its rank. -/
def LogLevel.toJson (l : LogLevel) : Json :=
  .obj [("name", .str l.name), ("display", .str l.name), ("filter", .str l.name),
    ("serde", .str l.lower), ("rank", .nat l.rank)]

/-- Progress as data. -/
def Progress.toJson (p : Progress) : Json :=
  .obj [("progress", .nat p.mark), ("total", .nat p.total), ("complete", .bool p.isComplete),
    ("fraction", .float p.fraction)]

/-- A chunk request as data. -/
def ChunkRequest.toJson (r : ChunkRequest) : Json :=
  .obj [("offset", .nat r.offset), ("length", .nat r.length)]

/-- A chunk request of a transfer as data, with more fields after it. -/
def ChunkRequest.toJsonFor (id : TransferId) (r : ChunkRequest) (more : List (String × Json) := []) :
    Json :=
  .obj (id.fields ++ [("offset", .nat r.offset), ("length", .nat r.length)] ++ more)

/-- The flow windows as data, in order of transfer. -/
def WindowTable.toJson (t : WindowTable) : Json :=
  .arr (t.windows.map fun (id, w) => .obj (id.fields ++ [("cap", .nat w.cap),
    ("in_flight", .nat w.inFlight), ("pending", .nat w.pending.length)]))

end Courier
