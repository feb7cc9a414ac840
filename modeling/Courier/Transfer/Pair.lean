-- Two nodes of one in-memory network over one volume, a sender and a receiver, each with a pump
-- thread, a dispatcher and a worker that move one step at a time in any order. A round of the pump
-- is one move that puts all its items in the receive queue.
import Courier.Transport.Pump
import Courier.Daemon.Station

namespace Courier.Transfer

/-- The request that carries a call of the engine to the pump thread. -/
def Call.request : Call → Request
  | .control id c => .control id c
  | .chunk id offset data => .chunk id offset data

/-- One of the two nodes. -/
inductive Party where
  | sender
  | receiver
deriving DecidableEq, Repr

/-- A file a send request offers to a peer, with the answer once the offer has run. -/
structure Offer where
  peer : UInt32
  file : SourceFile
  answer : Option (Except TransportError TransferId) := none

/-- The threads of one node: its key, its bridge and engine, the requests waiting for the pump
thread, the receive queue, the worker's jobs, and the offers of send requests in progress. -/
structure Side where
  key : PublicKey
  bridge : Bridge
  engine : Engine
  requests : List Request := []
  queue : List Inbound := []
  jobs : List Work := []
  offers : List Offer := []

/-- Two nodes on a network, the volume they share, and the clock. -/
structure Pair where
  net : Network
  volume : Files.Volume
  clock : Nat := 0
  sender : Side
  receiver : Side

/-- What moved: a thread of a node, a send request, an offer run or answered, or the clock. -/
inductive Move where
  | round (x : Party)
  | serve (x : Party)
  | dispatch (x : Party)
  | work (x : Party) (job : Work)
  | send
  | offer
  | settle
  | tick
deriving Inhabited

namespace Pair

/-- The threads of a node. -/
def side (p : Pair) : Party → Side
  | .sender => p.sender
  | .receiver => p.receiver

/-- Replaces the threads of a node. -/
def setSide (p : Pair) : Party → Side → Pair
  | .sender, s => { p with sender := s }
  | .receiver, s => { p with receiver := s }

variable (p : Pair) (x : Party)

/-- A round of a node's pump thread: what the transport gave and the windows let through goes
into the receive queue. -/
def round : Pair :=
  let s := p.side x
  let (bridge, net, items) := s.bridge.pumpOnce (Network.wire s.key) p.net p.clock
  { p.setSide x { s with bridge, queue := s.queue ++ items } with net }

/-- A node's pump thread runs the request `r`, with `rest` behind it; what it produced goes into
the receive queue. -/
def serve (r : Request) (rest : List Request) : Pair :=
  let s := p.side x
  let (bridge, net, volume, out) := s.bridge.execute (Network.wire s.key) p.net p.volume p.clock r
  { p.setSide x { s with bridge, requests := rest, queue := s.queue ++ out } with net, volume }

/-- A node's dispatcher takes `item`, with `rest` behind it: a file event goes to the worker when
a file handler is in its slot, anything else is let go. -/
def dispatch (item : Inbound) (rest : List Inbound) : Pair :=
  let s := p.side x
  let jobs := match s.bridge.handlerOf item, Daemon.fileEvent? item with
    | some _, some ev => s.jobs ++ [.event ev]
    | _, _ => s.jobs
  p.setSide x { s with queue := rest, jobs }

/-- A node's worker does `job`, with `rest` behind it, on the shared volume at the clock; its
calls are queued for the pump thread. -/
def work (job : Work) (rest : List Work) : Pair :=
  let s := p.side x
  let t := s.engine.work { volume := p.volume, clock := p.clock } job
  let calls := t.desk.calls.toList.map Call.request
  { p.setSide x { s with engine := t.engine, jobs := rest, requests := s.requests ++ calls } with
    volume := t.desk.volume }

/-- A send request at the sender: each of `files` is to be offered to `peer`. -/
def send (peer : UInt32) (files : List SourceFile) : Pair :=
  { p with sender := { p.sender with offers := p.sender.offers ++ files.map (⟨peer, ·, none⟩) } }

/-- The sender's pump thread runs the offer `o`, which stands between `before` and `after`; the
answer is kept with it. -/
def offer (before after : List Offer) (o : Offer) : Pair :=
  let s := p.sender
  let (net, r) := s.bridge.offerFile (Network.wire s.key) p.net o.peer (Files.offerName o.file.path)
    o.file.size
  { p with net, sender := { s with offers := before ++ { o with answer := some r } :: after } }

/-- An answered offer `o`, between `before` and `after`, is done with: an accepted file is queued
for the worker to open. -/
def settle (before after : List Offer) (o : Offer) : Pair :=
  let s := p.sender
  let jobs := match o.answer with
    | some (.ok id) => s.jobs ++ [.create id o.file.path o.file.size]
    | _ => s.jobs
  { p with sender := { s with offers := before ++ after, jobs } }

end Pair

/-- One move of the two nodes. -/
inductive PairStep : Pair → Move → Pair → Prop where
  | round (p : Pair) (x : Party) : PairStep p (.round x) (p.round x)
  | serve (p : Pair) (x : Party) (r : Request) (rest : List Request)
      (hq : (p.side x).requests = r :: rest) : PairStep p (.serve x) (p.serve x r rest)
  | dispatch (p : Pair) (x : Party) (item : Inbound) (rest : List Inbound)
      (hq : (p.side x).queue = item :: rest) : PairStep p (.dispatch x) (p.dispatch x item rest)
  | work (p : Pair) (x : Party) (job : Work) (rest : List Work)
      (hj : (p.side x).jobs = job :: rest) : PairStep p (.work x job) (p.work x job rest)
  | send (p : Pair) (peer : UInt32) (path : String) (files : List SourceFile)
      (hf : p.sender.engine.sources p.volume path = .ok files) : PairStep p .send (p.send peer files)
  | offer (p : Pair) (before after : List Offer) (o : Offer)
      (ho : p.sender.offers = before ++ o :: after) (waiting : o.answer = none) :
      PairStep p .offer (p.offer before after o)
  | settle (p : Pair) (before after : List Offer) (o : Offer)
      (ho : p.sender.offers = before ++ o :: after) (answered : o.answer.isSome) :
      PairStep p .settle (p.settle before after o)
  | tick (p : Pair) (now : Nat) (later : p.clock ≤ now) : PairStep p .tick { p with clock := now }

/-- Moves one after another, each of them one that `ok` allows. -/
inductive PairRun (ok : Pair → Move → Pair → Prop) : Pair → Pair → Prop where
  | refl (p : Pair) : PairRun ok p p
  | step {p q r : Pair} {m : Move} : PairRun ok p q → PairStep q m r → ok q m r → PairRun ok p r

end Courier.Transfer
