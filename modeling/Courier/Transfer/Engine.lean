-- The transfer engine: one worker that keeps every transfer of a node and takes its file events and
-- openings one at a time. Events for a transfer not open yet are held and replayed once it opens; a
-- call that breaks down stops the job where it was.
import Courier.Transfer.FileState
import Courier.Transfer.Source
import Courier.Transfer.Summary
import Courier.Transport.Window
import Courier.Text.Quoted

namespace Courier.Transfer

open Files

/-- A file event the network hands to the engine. -/
inductive FileEvent where
  | offered (id : TransferId) (name : String) (size : Nat)
  | control (id : TransferId) (c : FileControl)
  | pull (id : TransferId) (req : ChunkRequest)
  | chunk (id : TransferId) (offset : Nat) (data : ByteArray)
  | failed (id : TransferId) (e : TransportError)

/-- A call the engine makes on the network. -/
inductive Call where
  | control (id : TransferId) (c : FileControl)
  | chunk (id : TransferId) (offset : Nat) (data : ByteArray)

/-- The transfer a call is about. -/
def Call.id : Call → TransferId
  | .control id _ => id
  | .chunk id _ _ => id

/-- One transfer the engine keeps: its way, whether it moves, its open file (where the file
stands, the cursor, and the bytes confirmed) and the local path. -/
structure Ongoing where
  direction : Direction
  activity : Activity
  file : FileState
  path : String

/-- The inode of the transfer's file. -/
def Ongoing.inode (t : Ongoing) : Nat := t.file.handle.inode

/-- The bytes of the transfer confirmed. -/
def Ongoing.progress (t : Ongoing) : Progress := t.file.progress

/-- A sending transfer as it opens: paused, its file open for reading at the start. -/
def Ongoing.outbound (ino size : Nat) (path : String) : Ongoing :=
  ⟨.outbound, .paused, ⟨⟨ino, 0, .reading⟩, some 0, ⟨size, 0⟩⟩, path⟩

/-- A receiving transfer as it opens: active, its file open for writing at the start. -/
def Ongoing.inbound (ino size : Nat) (path : String) : Ongoing :=
  ⟨.inbound, .active, ⟨⟨ino, 0, .writing⟩, some 0, ⟨size, 0⟩⟩, path⟩

/-- The transfer seen from outside. -/
def Ongoing.summary (t : Ongoing) (id : TransferId) : TransferSummary :=
  ⟨id, t.direction, t.activity, t.progress.mark, t.progress.total, t.progress.fraction, t.path⟩

/-- The world the engine works in: the file volume, the calls made so far, which calls break
down, and the clock in milliseconds. -/
structure Desk where
  volume : Volume
  calls : Array Call := #[]
  breaks : Call → Bool := fun _ => false
  clock : Nat := 0

/-- Makes a call; a call that breaks down is not made, and the answer says so. -/
def Desk.call (d : Desk) (c : Call) : Desk × Bool :=
  if d.breaks c then (d, false) else ({ d with calls := d.calls.push c }, true)

/-- Events held for a transfer that is not open yet, with the time the first came. -/
structure Held where
  id : TransferId
  since : Nat
  events : List FileEvent

/-- The most events held at once. -/
def maxHeld : Nat := 4096

/-- How long held events wait, in milliseconds. -/
def heldFor : Nat := 30000

/-- The engine: the shared root, the receive directory, the open transfers in order of id, the
held events, and whether it has stopped. -/
structure Engine where
  root : String
  receiveDir : String
  transfers : List (TransferId × Ongoing) := []
  held : List Held := []
  stopped : Bool := false

/-- The engine and desk after a job, and whether the job ran to its end. -/
structure Turn where
  engine : Engine
  desk : Desk
  whole : Bool := true

/-- A job of the worker: open an accepted outgoing file, or do the work of a file event. -/
inductive Work where
  | create (id : TransferId) (path : String) (size : Nat)
  | event (ev : FileEvent)

namespace Engine

/-- Starts an engine on a root, which is resolved, and a receive directory, which is made if
missing and is the root when not given. -/
def start (v : Volume) (root : String) (receiveDir : Option String) :
    Except TransferError (Engine × Volume) := do
  let canon ← (v.canonical root).mapError ioError
  let recv := receiveDir.getD canon
  let v' ← (v.makeDirs recv).mapError ioError
  pure ({ root := canon, receiveDir := recv }, v')

/-- The open transfer with an id. -/
def find? (e : Engine) (id : TransferId) : Option Ongoing :=
  (e.transfers.find? (·.1 == id)).map (·.2)

/-- Sets a transfer, keeping the transfers in order of id. -/
def insert (e : Engine) (id : TransferId) (t : Ongoing) : Engine :=
  let rest := e.transfers.filter (·.1 != id)
  { e with transfers :=
      rest.filter (·.1.key < id.key) ++ [(id, t)] ++ rest.filter (·.1.key > id.key) }

/-- Drops a transfer. -/
def erase (e : Engine) (id : TransferId) : Engine :=
  { e with transfers := e.transfers.filter (·.1 != id) }

/-- Holds an event for a transfer not open yet. Groups older than the wait are dropped first;
when the engine already holds the most it may, the event is dropped. -/
def hold (e : Engine) (now : Nat) (id : TransferId) (ev : FileEvent) : Engine :=
  let live := e.held.filter fun h => now - h.since < heldFor
  if live.foldl (fun n h => n + h.events.length) 0 ≥ maxHeld then { e with held := live }
  else if live.any (·.id == id) then
    { e with held := live.map fun h => if h.id == id then { h with events := h.events ++ [ev] } else h }
  else { e with held := live ++ [⟨id, now, [ev]⟩] }

/-- Takes the held events of a transfer out. -/
def takeHeld (e : Engine) (id : TransferId) : Engine × List FileEvent :=
  ({ e with held := e.held.filter (·.id != id) },
   (e.held.find? (·.id == id)).map (·.events) |>.getD [])

/-- A turn that changed the engine only. -/
def keep (e : Engine) (d : Desk) : Turn := ⟨e, d, true⟩

/-- Makes a call and keeps the engine as given. -/
def calling (e : Engine) (d : Desk) (c : Call) : Turn :=
  let (d', ok) := d.call c
  ⟨e, d', ok⟩

/-- A file offered by a peer: saved under its last name in the receive directory. -/
def offered (e : Engine) (d : Desk) (id : TransferId) (name : String) (size : Nat) : Turn :=
  match sanitizeName name with
  | none => e.calling d (.control id .cancel)
  | some n =>
    if (e.find? id).isSome then e.keep d
    else
      let dest := join e.receiveDir n
      match d.volume.createFile dest with
      | .ok (vol, ino) =>
        (e.insert id (.inbound ino size dest)).calling
          { d with volume := vol } (.control id .resume)
      | .error _ => e.calling d (.control id .cancel)

/-- A control from the peer: cancel drops the transfer, pause and resume set its activity. -/
def control (e : Engine) (d : Desk) (id : TransferId) (c : FileControl) : Turn :=
  match e.find? id with
  | none => (e.hold d.clock id (.control id c)).keep d
  | some t =>
    match c with
    | .cancel => (e.erase id).keep d
    | .pause => (e.insert id { t with activity := .paused }).keep d
    | .resume => (e.insert id { t with activity := .active }).keep d

/-- A pull from the peer: the asked bytes of an active outgoing file are read and sent; a pull of
length zero ends the transfer; a read that fails sends nothing. The file moves as a read of its
handle moves it, and the bytes are those at the asked offset, where the file stands whenever its
cursor is known. -/
def pull (e : Engine) (d : Desk) (id : TransferId) (req : ChunkRequest) : Turn :=
  match e.find? id with
  | none => (e.hold d.clock id (.pull id req)).keep d
  | some t =>
    if t.direction != .outbound || t.activity != .active then e.keep d
    else if req.length == 0 then (e.erase id).keep d
    else
      let t' := { t with file := (t.file.readChunk d.volume req).1 }
      match d.volume.readAt t.inode req.offset req.length with
      | .ok data => (e.insert id t').calling d (.chunk id req.offset data)
      | .error _ => (e.insert id t').keep d

/-- A chunk from the peer: written into an active incoming file; an empty chunk ends the
transfer; a write that fails writes nothing. A chunk for no open transfer is dropped. The file
moves as a write of its handle moves it, and the bytes go to the chunk's offset. -/
def chunk (e : Engine) (d : Desk) (id : TransferId) (offset : Nat) (data : ByteArray) : Turn :=
  match e.find? id with
  | none => e.keep d
  | some t =>
    if t.direction != .inbound || t.activity != .active then e.keep d
    else if data.size == 0 then (e.erase id).keep d
    else
      let t' := { t with file := (t.file.writeChunk d.volume offset data).1.2 }
      match d.volume.writeAt t.inode offset data with
      | .ok vol => (e.insert id t').keep { d with volume := vol }
      | .error _ => (e.insert id t').keep d

/-- Does the work of one file event. -/
def handle (e : Engine) (d : Desk) : FileEvent → Turn
  | .offered id name size => e.offered d id name size
  | .control id c => e.control d id c
  | .pull id req => e.pull d id req
  | .chunk id offset data => e.chunk d id offset data
  | .failed id _ => (e.erase id).keep d

/-- Handles events in order, stopping at the first that breaks down. -/
def replay (d : Desk) : List FileEvent → Engine → Turn
  | [], e => e.keep d
  | ev :: rest, e =>
    let t := e.handle d ev
    if t.whole then replay t.desk rest t.engine else t

/-- Opens an accepted outgoing file as a paused transfer and replays the events held for it. A
file that cannot be opened is not kept, and its held events are dropped. -/
def register (e : Engine) (d : Desk) (id : TransferId) (path : String) (size : Nat) : Turn :=
  if (e.find? id).isSome then e.keep d
  else
    let (e', early) := e.takeHeld id
    match d.volume.openFile path with
    | .ok ino => replay d early (e'.insert id (.outbound ino size path))
    | .error _ => e'.keep d

/-- Does one job. -/
def work (e : Engine) (d : Desk) : Work → Turn
  | .create id path size => e.register d id path size
  | .event ev => e.handle d ev

/-- The worker's loop: each job is taken at its clock reading, in order. A job that breaks down
keeps what it had done, and the next job is taken all the same. -/
def run : Engine → Desk → List (Nat × Work) → Engine × Desk
  | e, d, [] => (e, d)
  | e, d, (now, w) :: rest =>
    let t := e.work { d with clock := now } w
    run t.engine t.desk rest

/-- Takes a file event, unless the engine has stopped. -/
def deliver (e : Engine) (d : Desk) (ev : FileEvent) : Turn :=
  if e.stopped then e.keep d else e.handle d ev

/-- Every open transfer seen from outside, in order of id. -/
def snapshot (e : Engine) : Except TransferError (List TransferSummary) :=
  if e.stopped then .error .stopped else .ok (e.transfers.map fun (id, t) => t.summary id)

/-- Stops the engine; its transfers are let go. -/
def stop (e : Engine) : Engine := { e with stopped := true, transfers := [], held := [] }

/-- The files a send request stands for. -/
def sources (e : Engine) (v : Volume) (path : String) : Except TransferError (List SourceFile) := do
  let p ← locateSource v e.root path
  sourceFiles v p

end Engine

/-- How the far side answered the offer of one file. -/
inductive OfferReply where
  | accepted (file : UInt32)
  | refused (e : TransportError)
  /-- The task making the offer broke down with a message. -/
  | broke (task : String) (message : String)

/-- A file offered to a peer. -/
structure OfferedFile where
  id : TransferId
  path : String
  size : Nat

/-- What a send request did: the files offered and those whose offer was refused, in order. -/
structure SendReport where
  offered : List OfferedFile := []
  failed : List (String × TransportError) := []

/-- The reply to a send command: the count offered, then a line per refused file. -/
def SendReport.describe (r : SendReport) : String :=
  s!"offered {r.offered.length} files" ++
    String.join (r.failed.map fun (p, e) => "\nfailed " ++ p ++ ": " ++ e.message)

namespace Engine

/-- Settles a send request once its offers are answered, file by file: an accepted file is
opened as a transfer; a refused one is reported. A broken offer fails the request, and so does an
accepted one when the engine has stopped; the first such failure is the answer. -/
def settle (e : Engine) (d : Desk) (peer : UInt32) :
    List (SourceFile × OfferReply) → Engine × Desk × Except TransferError SendReport
  | [] => (e, d, .ok {})
  | (src, reply) :: rest =>
    match reply with
    | .accepted file =>
      let id : TransferId := ⟨peer, file⟩
      if e.stopped then
        let (e', d', _) := e.settle d peer rest
        (e', d', .error .stopped)
      else
        let t := e.register d id src.path src.size
        let (e', d', r) := t.engine.settle t.desk peer rest
        (e', d', r.map fun rep => { rep with offered := ⟨id, src.path, src.size⟩ :: rep.offered })
    | .refused err =>
      let (e', d', r) := e.settle d peer rest
      (e', d', r.map fun rep => { rep with failed := (src.path, err) :: rep.failed })
    | .broke task msg =>
      let (e', d', _) := e.settle d peer rest
      (e', d', .error (.task (s!"task {task} panicked with message " ++ Text.quoteString msg)))

end Engine

end Courier.Transfer
