-- The pump thread of a bridge and its two queues. A round pumps the transport and delivers into a
-- bounded receive queue, running the waiting requests while it is full; then requests are taken until
-- the round's deadline.
import Courier.Transport.Bridge

namespace Courier

/-- A request to the pump thread: the answered ones, and the fire-and-forget control and chunk. -/
inductive Request where
  | connection
  | acceptFriend (key : PublicKey)
  | friendKey (peer : UInt32)
  | sendMessage (peer : UInt32) (text : String)
  | offerFile (peer : UInt32) (name : String) (size : Nat)
  | control (id : TransferId) (c : FileControl)
  | chunk (id : TransferId) (offset : Nat) (data : ByteArray)
  | saveState

namespace Bridge

/-- Runs a request at a clock reading: the transport and the volume as the request leaves them,
and the items it produces for the receive queue. Only a control and a chunk produce items. -/
def execute (b : Bridge) (w : Wire ω) (x : ω) (v : Files.Volume) (now : Nat) :
    Request → Bridge × ω × Files.Volume × List Inbound
  | .connection => (b, x, v, [])
  | .acceptFriend key => (b, (b.acceptFriend w x key).1, v, [])
  | .friendKey peer => (b, (b.friendKey w x peer).1, v, [])
  | .sendMessage peer text => (b, (b.sendMessage w x peer text).1, v, [])
  | .offerFile peer name size => (b, (b.offerFile w x peer name size).1, v, [])
  | .control id c => let (x, out) := b.control w x id c; (b, x, v, out)
  | .chunk id offset data => let (b, x, out) := b.chunk w x now id offset data; (b, x, v, out)
  | .saveState => let (x, v, _) := b.save w x v; (b, x, v, [])

/-- Runs requests in order, each on what the one before left; the items of all, in that order. -/
def executeAll (b : Bridge) (w : Wire ω) (x : ω) (v : Files.Volume) (now : Nat) :
    List Request → Bridge × ω × Files.Volume × List Inbound
  | [] => (b, x, v, [])
  | r :: rest =>
    let (b, x, v, out) := b.execute w x v now r
    let (b, x, v, more) := b.executeAll w x v now rest
    (b, x, v, out ++ more)

/-- The requests the dispatcher queues after handing an item on: accepting the friend of a friend
request that a friend handler was there to accept. -/
def followUp (b : Bridge) (accepted : Bool) : Inbound → List Request
  | .event (.friendRequest key _) => if accepted && b.friendSlot.isSome then [.acceptFriend key] else []
  | _ => []

end Bridge

/-- Where the pump thread is in its round. -/
inductive PumpPhase where
  /-- At the top of the round: the transport is pumped next. -/
  | pumping
  /-- Delivering a batch of items to the receive queue. -/
  | delivering
  /-- Taking requests until the round's deadline. -/
  | listening
deriving DecidableEq, Repr

/-- The pump thread with its bridge, transport and volume, the request queue and the receive
queue. -/
structure PumpThread (ω : Type) where
  bridge : Bridge
  world : ω
  volume : Files.Volume
  clock : Nat := 0
  phase : PumpPhase := .pumping
  /-- The requests waiting, oldest first. -/
  requests : List Request := []
  /-- The items of the batch being delivered that are not in the receive queue yet. -/
  backlog : List Inbound := []
  /-- The receive queue, oldest first. -/
  queue : List Inbound := []

/-- What can be seen of the threads from outside: a batch of items made by a round or by a
request, an item put in the receive queue, and an item the dispatcher took with the handler it
went to (none when the slot was empty and the item was dropped). -/
inductive PumpEvent where
  | made (items : List Inbound)
  | sent (item : Inbound)
  | taken (handler : Option Nat) (item : Inbound)

namespace PumpThread

/-- The pump thread of a bridge just spawned: nothing queued, a round about to start. -/
def start (b : Bridge) (x : ω) (v : Files.Volume) : PumpThread ω := { bridge := b, world := x, volume := v }

variable (w : Wire ω)

/-- Pumps the transport and starts delivering what came out; answers the items. -/
def pump (p : PumpThread ω) : PumpThread ω × List Inbound :=
  let (bridge, world, items) := p.bridge.pumpOnce w p.world p.clock
  ({ p with bridge, world, backlog := items, phase := .delivering }, items)

/-- With the receive queue full: runs every request waiting and puts what they produce behind the
backlog; answers those items. -/
def stall (p : PumpThread ω) : PumpThread ω × List Inbound :=
  let (bridge, world, volume, out) := p.bridge.executeAll w p.world p.volume p.clock p.requests
  ({ p with bridge, world, volume, requests := [], backlog := p.backlog ++ out }, out)

/-- Runs the request `r`, taken from the queue with `rest` behind it, and starts delivering what
it produced; answers those items. -/
def take (p : PumpThread ω) (r : Request) (rest : List Request) : PumpThread ω × List Inbound :=
  let (bridge, world, volume, out) := p.bridge.execute w p.world p.volume p.clock r
  ({ p with bridge, world, volume, requests := rest, backlog := out, phase := .delivering }, out)

end PumpThread

/-- One move of the pump thread or of a thread around it, with what it shows. -/
inductive PumpStep (w : Wire ω) (cap : Nat) : PumpThread ω → List PumpEvent → PumpThread ω → Prop where
  /-- A round of a running bridge starts. -/
  | pump (p : PumpThread ω) (hp : p.phase = .pumping) (hr : p.bridge.running = true) :
      PumpStep w cap p [.made (p.pump w).2] (p.pump w).1
  /-- The oldest item to deliver goes into the receive queue, which has room. -/
  | send (p : PumpThread ω) (item : Inbound) (rest : List Inbound) (hp : p.phase = .delivering)
      (hb : p.backlog = item :: rest) (room : p.queue.length < cap) :
      PumpStep w cap p [.sent item] { p with backlog := rest, queue := p.queue ++ [item] }
  /-- The receive queue is full, so the requests waiting are run. -/
  | stall (p : PumpThread ω) (hp : p.phase = .delivering) (hb : p.backlog ≠ [])
      (full : cap ≤ p.queue.length) (hr : p.bridge.running = true) :
      PumpStep w cap p [.made (p.stall w).2] (p.stall w).1
  /-- The receive queue is full and the bridge has stopped: the rest is dropped. -/
  | abandon (p : PumpThread ω) (hp : p.phase = .delivering) (hb : p.backlog ≠ [])
      (full : cap ≤ p.queue.length) (hr : p.bridge.running = false) :
      PumpStep w cap p [] { p with backlog := [], phase := .listening }
  /-- Everything is delivered. -/
  | delivered (p : PumpThread ω) (hp : p.phase = .delivering) (hb : p.backlog = []) :
      PumpStep w cap p [] { p with phase := .listening }
  /-- The oldest request is taken and run. -/
  | take (p : PumpThread ω) (r : Request) (rest : List Request) (hp : p.phase = .listening)
      (hq : p.requests = r :: rest) :
      PumpStep w cap p [.made (p.take w r rest).2] (p.take w r rest).1
  /-- The round's deadline passes. -/
  | deadline (p : PumpThread ω) (hp : p.phase = .listening) :
      PumpStep w cap p [] { p with phase := .pumping }
  /-- Another thread queues a request. -/
  | ask (p : PumpThread ω) (r : Request) :
      PumpStep w cap p [] { p with requests := p.requests ++ [r] }
  /-- The dispatcher of a running bridge takes the oldest item and hands it on. -/
  | dispatch (p : PumpThread ω) (item : Inbound) (rest : List Inbound) (accepted : Bool)
      (hq : p.queue = item :: rest) (hr : p.bridge.running = true) :
      PumpStep w cap p [.taken (p.bridge.handlerOf item) item]
        { p with queue := rest, requests := p.requests ++ p.bridge.followUp accepted item }
  /-- The clock moves on. -/
  | tick (p : PumpThread ω) (now : Nat) (later : p.clock ≤ now) :
      PumpStep w cap p [] { p with clock := now }
  /-- The bridge is shut down. -/
  | stop (p : PumpThread ω) :
      PumpStep w cap p [] { p with bridge := p.bridge.shutdown }
  /-- A handler is put in its slot. -/
  | register (p : PumpThread ω) (k : HandlerKind) (h : Nat) (b : Bridge)
      (ok : p.bridge.register k h = .ok b) :
      PumpStep w cap p [] { p with bridge := b }
  /-- A handler is taken out of its slot. -/
  | unregister (p : PumpThread ω) (k : HandlerKind) (h : Nat) (b : Bridge)
      (ok : p.bridge.unregister k h = .ok b) :
      PumpStep w cap p [] { p with bridge := b }

/-- Moves one after another, with all they show, in order. -/
inductive PumpRun (w : Wire ω) (cap : Nat) : PumpThread ω → List PumpEvent → PumpThread ω → Prop where
  | refl (p : PumpThread ω) : PumpRun w cap p [] p
  | step {p q r : PumpThread ω} {seen shown : List PumpEvent} :
      PumpRun w cap p seen q → PumpStep w cap q shown r → PumpRun w cap p (seen ++ shown) r

namespace PumpEvent

/-- The items a batch made. -/
def madeItems : PumpEvent → List Inbound
  | .made items => items
  | _ => []

/-- The item put in the receive queue. -/
def sentItem? : PumpEvent → Option Inbound
  | .sent item => some item
  | _ => none

/-- The item the dispatcher took. -/
def takenItem? : PumpEvent → Option Inbound
  | .taken _ item => some item
  | _ => none

end PumpEvent

/-- Every item made, batch after batch. -/
def madeItems (seen : List PumpEvent) : List Inbound := seen.flatMap PumpEvent.madeItems

/-- Every item put in the receive queue, in order. -/
def sentItems (seen : List PumpEvent) : List Inbound := seen.filterMap PumpEvent.sentItem?

/-- Every item the dispatcher took, in order. -/
def takenItems (seen : List PumpEvent) : List Inbound := seen.filterMap PumpEvent.takenItem?

end Courier
