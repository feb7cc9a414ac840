-- Stations: nodes of the in-memory network running a bridge, a transfer engine for their file events
-- and a role for their friend events. A world holds the network, the shared volume and the stations,
-- and runs them until nothing moves.
import Courier.Network.Wire
import Courier.Daemon.Handler
import Courier.Daemon.Reply

namespace Courier.Daemon

open Transfer

/-- How a station answers friend events. -/
inductive Role where
  /-- Friend events are let go, and friend requests refused. -/
  | quiet
  /-- The daemon's commands: the handler and its queue. -/
  | commands (handler : CommandHandler) (queue : CommandQueue)
  /-- The console: the peer of the daemon once it is known. -/
  | console (daemon : Option UInt32)

/-- A node that runs a bridge: its key, the bridge, the engine in the file slot, and its role. -/
structure Station where
  key : PublicKey
  bridge : Bridge
  engine : Option Engine := none
  /-- The number the engine is registered under in the file slot. -/
  engineTag : Nat := 0
  role : Role := .quiet

/-- The network, the volume and the stations, with the lines the console printed. -/
structure World where
  net : Network
  volume : Files.Volume
  stations : Array Station := #[]
  printed : Array String := #[]
  clock : Nat := 0
  /-- The number the next handler registered is known by. -/
  nextTag : Nat := 0

/-- The file event an inbound item stands for. -/
def fileEvent? : Inbound → Option FileEvent
  | .event (.fileOffered id name size) => some (.offered id name size)
  | .event (.fileControl id c) => some (.control id c)
  | .event (.chunkRequested id r) => some (.pull id r)
  | .event (.chunkReceived id o d) => some (.chunk id o d)
  | .fileError id e => some (.failed id e)
  | _ => none

/-- The lines a console prints for a message from a peer. -/
def consoleLines (peer : UInt32) (text : String) : List String :=
  (Command.lines text).map fun line => "[" ++ peerText peer ++ "] " ++ line

/-- The most items one station hands on in a round, and the most rounds of a world. -/
def budget : Nat := 1000000

namespace World

/-- Applies a change to the station at an index. -/
def modify (w : World) (i : Nat) (f : Station → Station) : World :=
  { w with stations := w.stations.modify i f }

/-- Runs a bridge operation of the station at an index on the network. -/
def onBridge (w : World) (i : Nat) (f : Bridge → Wire Network → Network → Network × α) (absent : α) :
    World × α :=
  match w.stations[i]? with
  | some st => let (net, a) := f st.bridge (Network.wire st.key) w.net; ({ w with net }, a)
  | none => (w, absent)

/-- Makes one call of a station's engine through its bridge; answers what it produced. -/
def call (w : World) (i : Nat) (c : Call) : World × List Inbound :=
  match w.stations[i]? with
  | none => (w, [])
  | some st =>
    let wire := Network.wire st.key
    match c with
    | .control id ctl =>
      let (net, out) := st.bridge.control wire w.net id ctl
      ({ w with net }, out)
    | .chunk id offset data =>
      let (bridge, net, out) := st.bridge.chunk wire w.net w.clock id offset data
      ({ w.modify i ({ · with bridge }) with net }, out)

/-- Makes calls in order; answers all they produced. -/
def calls (w : World) (i : Nat) (cs : List Call) : World × List Inbound :=
  cs.foldl (fun (w, acc) c => let (w, out) := w.call i c; (w, acc ++ out)) (w, [])

/-- Runs a turn of a station's engine against the world's volume, then makes its calls. -/
def withEngine (w : World) (i : Nat) (f : Engine → Desk → Turn) : World × List Inbound :=
  match (w.stations[i]?).bind (·.engine) with
  | none => (w, [])
  | some e =>
    let t := f e { volume := w.volume, clock := w.clock }
    let w := { w.modify i ({ · with engine := some t.engine }) with volume := t.desk.volume }
    w.calls i t.desk.calls.toList

/-- Hands one item to a station: friend events to its role, file events to its engine. -/
def dispatch (w : World) (i : Nat) (item : Inbound) : World × List Inbound :=
  match w.stations[i]? with
  | none => (w, [])
  | some st =>
    match st.bridge.handlerOf item, item with
    | none, _ => (w, [])
    | some _, .event (.friendRequest k _) =>
      match st.role with
      | .commands h _ => if h.onRequest k then ((w.onBridge i (fun b wire net => b.acceptFriend wire net k) (.error .shutdown)).1, []) else (w, [])
      | _ => (w, [])
    | some _, .event (.friendMessage p text) =>
      match st.role with
      | .commands h q => (w.modify i ({ · with role := .commands h (CommandHandler.onMessage q p text) }), [])
      | .console _ => ({ w with printed := w.printed ++ (consoleLines p text).toArray }, [])
      | .quiet => (w, [])
    | some _, .event (.friendName p _) =>
      match st.role with
      | .console _ => (w.modify i ({ · with role := .console (some p) }), [])
      | _ => (w, [])
    | some _, item =>
      match fileEvent? item with
      | some ev => w.withEngine i fun e d => e.deliver d ev
      | none => (w, [])

/-- Hands on items in order; what each produces waits behind those already waiting. -/
def drain (w : World) (i : Nat) : Nat → List Inbound → World
  | 0, _ => w
  | _, [] => w
  | fuel + 1, item :: rest =>
    let (w, out) := w.dispatch i item
    w.drain i fuel (rest ++ out)

/-- Sends a file or directory to a peer from the station's engine: the files are offered through
the bridge one by one and the engine settles the request. -/
def send (w : World) (i : Nat) (peer : UInt32) (path : String) :
    World × Except TransferError SendReport :=
  match w.stations[i]? with
  | none => (w, .error .stopped)
  | some st =>
    match st.engine with
    | none => (w, .error .stopped)
    | some e =>
      match e.sources w.volume path with
      | .error err => (w, .error err)
      | .ok files =>
        let (w, replies) := files.foldl (fun (w, acc) f =>
          let (w, r) := w.onBridge i (fun b wire net => b.offerFile wire net peer (Files.offerName f.path) f.size)
            (.error .shutdown)
          let reply := match r with
            | .ok id => OfferReply.accepted id.file
            | .error err => .refused err
          (w, acc ++ [(f, reply)])) (w, [])
        match (w.stations[i]?).bind (·.engine) with
        | none => (w, .error .stopped)
        | some e =>
          let (e, d, r) := e.settle { volume := w.volume, clock := w.clock } peer replies
          let w := { w.modify i ({ · with engine := some e }) with volume := d.volume }
          let (w, out) := w.calls i d.calls.toList
          (w.drain i budget out, r)

/-- The engine's transfers, or `stopped` without an engine. -/
def snapshot (w : World) (i : Nat) : Except TransferError (List TransferSummary) :=
  match (w.stations[i]?).bind (·.engine) with
  | some e => e.snapshot
  | none => .error .stopped

/-- Executes a command for a peer at a station and answers the reply. -/
def execute (w : World) (i : Nat) (peer : UInt32) : Command → World × String
  | .send path => let (w, r) := w.send i peer path; (w, sendReply r)
  | .save =>
    match w.stations[i]? with
    | none => (w, saveReply (.error .shutdown))
    | some st =>
      let (net, volume, r) := st.bridge.save (Network.wire st.key) w.net w.volume
      ({ w with net, volume }, saveReply r)
  | .status => (w, statusReply (w.snapshot i))
  | .help => (w, helpText)
  | .unknown text => (w, unknownReply text)

/-- Serves one queued command: only the trusted key's commands are executed and answered. -/
def serveOne (w : World) (i : Nat) (h : CommandHandler) (r : CommandRequest) : World :=
  let (w, key) := w.onBridge i (fun b wire net => b.friendKey wire net r.peer) (.error .shutdown)
  match key with
  | .ok k =>
    if k == h.trusted then
      let (w, reply) := w.execute i r.peer r.command
      (w.onBridge i (fun b wire net => b.sendMessage wire net r.peer reply) (.error .shutdown)).1
    else w
  | .error _ => w

/-- Serves the station's command queue until it is empty; answers whether it served any. -/
def serve (w : World) (i : Nat) : Nat → World × Bool
  | 0 => (w, false)
  | fuel + 1 =>
    match (w.stations[i]?).map Station.role with
    | some (Role.commands h q) =>
      match q.take? with
      | some (r, q) =>
        let w := (w.modify i ({ · with role := .commands h q })).serveOne i h r
        ((w.serve i fuel).1, true)
      | none => (w, false)
    | _ => (w, false)

/-- One round of a station: a pump, every item handed on, then the command queue served.
Answers whether anything happened. -/
def round (w : World) (i : Nat) : World × Bool :=
  match w.stations[i]? with
  | none => (w, false)
  | some st =>
    let (bridge, net, items) := st.bridge.pumpOnce (Network.wire st.key) w.net w.clock
    let w := { w.modify i ({ · with bridge }) with net }
    let w := w.drain i budget items
    let (w, served) := w.serve i budget
    (w, !items.isEmpty || served)

/-- A round of every station, in order; answers whether anything happened. -/
def roundAll (w : World) : World × Bool :=
  (List.range w.stations.size).foldl (fun (w, busy) i =>
    let (w, b) := w.round i
    (w, busy || b)) (w, false)

/-- Starts an engine on a root and a receive directory and registers it as the station's file
handler. When the slot is taken the engine is stopped again and the refusal is the answer. -/
def attach (w : World) (i : Nat) (root : String) (receiveDir : Option String) :
    World × Except TransferError Unit :=
  match w.stations[i]? with
  | none => (w, .error .stopped)
  | some st =>
    match Engine.start w.volume root receiveDir with
    | .error e => (w, .error e)
    | .ok (e, volume) =>
      let tag := w.nextTag
      let w := { w with volume, nextTag := tag + 1 }
      match st.bridge.register .file tag with
      | .error err => (w, .error (.transport err))
      | .ok bridge => (w.modify i ({ · with bridge, engine := some e, engineTag := tag }), .ok ())

/-- Takes the station's engine out of the file slot and stops it. -/
def detach (w : World) (i : Nat) : World × Except TransferError Unit :=
  match w.stations[i]? with
  | none => (w, .error .stopped)
  | some st =>
    match st.bridge.unregister .file st.engineTag with
    | .error err => (w, .error (.transport err))
    | .ok bridge => (w.modify i ({ · with bridge, engine := st.engine.map (·.stop) }), .ok ())

/-- Gives the station a role and registers it as the friend handler. -/
def assume (w : World) (i : Nat) (role : Role) : World × Except TransportError Unit :=
  match w.stations[i]? with
  | none => (w, .error .shutdown)
  | some st =>
    let tag := w.nextTag
    let w := { w with nextTag := tag + 1 }
    match st.bridge.register .friend tag with
    | .error err => (w, .error err)
    | .ok bridge => (w.modify i ({ · with bridge, role }), .ok ())

/-- Runs rounds until one passes with nothing happening. -/
def settle (w : World) : Nat → World
  | 0 => w
  | fuel + 1 =>
    let (w, busy) := w.roundAll
    if busy then w.settle fuel else w

end World

end Courier.Daemon
