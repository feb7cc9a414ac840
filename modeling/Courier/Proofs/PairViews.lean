-- One shipment seen in a pair of nodes: where the events due to each side wait, the chunks and
-- controls in flight, and the flow, read off the pair as a transit.
import Courier.Transfer.Pair
import Courier.Proofs.Transit
import Courier.Proofs.WindowOrder
import Courier.Proofs.EngineSteps

namespace Courier

/-- Whether a request carries a call of the engine. -/
def Request.isCall : Request → Bool
  | .control .. | .chunk .. => true
  | _ => false

/-- The place and bytes of a chunk request for a transfer. -/
def Request.chunkOf? (id : TransferId) : Request → Option (Nat × ByteArray)
  | .chunk i o data => if i = id then some (o, data) else none
  | _ => none

/-- The control of a control request for a transfer. -/
def Request.controlOf? (id : TransferId) : Request → Option FileControl
  | .control i c => if i = id then some c else none
  | _ => none

end Courier

namespace Courier.Transfer

open Files

/-- A shipment read from a file of the volume: the path it is sent from and its inode. -/
structure Course extends Shipment where
  path : String
  inode : Nat

/-- The file number of the shipment's flow. -/
def Course.file (c : Course) : UInt32 := c.outbound.file

/-! ## Calls, requests and jobs of one transfer -/

/-- The place and bytes of a chunk call for a transfer. -/
def Call.chunkOf? (id : TransferId) : Call → Option (Nat × ByteArray)
  | .chunk i o data => if i = id then some (o, data) else none
  | .control .. => none

/-- The control of a control call for a transfer. -/
def Call.controlOf? (id : TransferId) : Call → Option FileControl
  | .control i c => if i = id then some c else none
  | .chunk .. => none

/-- Whether a job opens a transfer. -/
def Work.opens (id : TransferId) : Work → Bool
  | .create i _ _ => i == id
  | .event _ => false

/-- The event of a job, if it is one of a transfer. -/
def Work.eventFor? (id : TransferId) : Work → Option FileEvent
  | .create .. => none
  | .event ev => if ev.id = id then some ev else none

/-- Whether an offer was answered with a transfer. -/
def Offer.answers (id : TransferId) (o : Offer) : Bool :=
  match o.answer with
  | some (.ok i) => i == id
  | _ => false

@[simp] theorem Call.chunkOf?_request (c : Call) (id : TransferId) : c.request.chunkOf? id = c.chunkOf? id := by
  cases c <;> rfl

@[simp] theorem Call.controlOf?_request (c : Call) (id : TransferId) :
    c.request.controlOf? id = c.controlOf? id := by
  cases c <;> rfl

@[simp] theorem Call.isCall_request (c : Call) : c.request.isCall = true := by
  cases c <;> rfl

theorem Call.chunkOf?_of_ne {c : Call} {id : TransferId} (h : c.id ≠ id) : c.chunkOf? id = none := by
  cases c with
  | chunk i o data => simp only [Call.id] at h; simp [chunkOf?, h]
  | control => rfl

theorem Call.controlOf?_of_ne {c : Call} {id : TransferId} (h : c.id ≠ id) : c.controlOf? id = none := by
  cases c with
  | control i k => simp only [Call.id] at h; simp [controlOf?, h]
  | chunk => rfl

theorem calls_of_others {calls : List Call} {id : TransferId} (h : calls.filter (·.id == id) = []) :
    calls.filterMap (Call.chunkOf? id) = [] ∧ calls.filterMap (Call.controlOf? id) = [] := by
  have hne : ∀ c ∈ calls, c.id ≠ id := by
    intro c hc he
    have : c ∈ calls.filter (·.id == id) := List.mem_filter.2 ⟨hc, by simp [he]⟩
    simp [h] at this
  exact ⟨List.filterMap_eq_nil_iff.2 fun c hc => Call.chunkOf?_of_ne (hne c hc),
    List.filterMap_eq_nil_iff.2 fun c hc => Call.controlOf?_of_ne (hne c hc)⟩

theorem Work.eventFor?_of_ne {w : Work} {id : TransferId} (h : w.id ≠ id) : w.eventFor? id = none := by
  cases w with
  | create => rfl
  | event ev => simp only [Work.id] at h; simp [eventFor?, h]

theorem Work.opens_of_ne {w : Work} {id : TransferId} (h : w.id ≠ id) : w.opens id = false := by
  cases w with
  | create i => simp only [Work.id] at h; simp [opens, h]
  | event => rfl

/-! ## What a node has still to do for a transfer -/

namespace Side

variable (s : Side) (net : Network) (id : TransferId)

/-- The events of a transfer a node has not handed to its worker yet: in its receive queue,
waiting in its window, and in its inbox at the network, oldest first. -/
def queued : List FileEvent :=
  eventsFor id s.queue ++ (s.bridge.windows.pendingOf id).map (.pull id) ++
    eventsFor id ((net.inbox s.key).map .event)

/-- The events a node will hand its engine for a transfer, oldest first: held by the engine, in
the worker's jobs, and those not handed to the worker yet. -/
def stream : List FileEvent :=
  (s.engine.takeHeld id).2 ++ s.jobs.filterMap (Work.eventFor? id) ++ s.queued net id

/-- The chunks a node's pump thread has still to send for a transfer. -/
def chunksFor : List (Nat × ByteArray) := s.requests.filterMap (Request.chunkOf? id)

/-- The controls a node's pump thread has still to send for a transfer. -/
def controlsFor : List FileControl := s.requests.filterMap (Request.controlOf? id)

/-- How many times a node has still to open a transfer: offers answered with it, and jobs that
open it. -/
def openings : Nat := (s.offers.filter (Offer.answers id)).length + (s.jobs.filter (Work.opens id)).length

/-- A node's bridge runs, has a file handler, and keeps its windows in order. -/
structure Serves : Prop where
  running : s.bridge.running = true
  slot : s.bridge.fileSlot.isSome = true
  ordered : s.bridge.windows.Ordered

end Side

/-- What the pair has under way of a shipment, as the transit machine keeps it. -/
def Course.transit (c : Course) (p : Pair) : Transit where
  sender := (p.sender.engine.find? c.outbound).map (·.activity == .active)
  opening := p.sender.openings c.outbound != 0
  toSender := p.sender.stream p.net c.outbound
  chunks := p.sender.chunksFor c.outbound
  flow := p.net.flow? c.file
  receiver := (p.receiver.engine.find? c.inbound).map fun u => p.volume.blob u.inode
  toReceiver := p.receiver.stream p.net c.inbound
  controls := p.receiver.controlsFor c.inbound

/-! ## The pair, side by side -/

namespace Pair

variable (p : Pair)

@[simp] theorem side_sender : p.side .sender = p.sender := rfl
@[simp] theorem side_receiver : p.side .receiver = p.receiver := rfl
@[simp] theorem setSide_sender (s : Side) : p.setSide .sender s = { p with sender := s } := rfl
@[simp] theorem setSide_receiver (s : Side) : p.setSide .receiver s = { p with receiver := s } := rfl

end Pair

/-! ## The dispatcher -/

/-- A node after its dispatcher hands on `item`, with `rest` behind it. -/
def Side.dispatched (s : Side) (item : Inbound) (rest : List Inbound) : Side :=
  { s with
    queue := rest
    jobs := match s.bridge.handlerOf item, Daemon.fileEvent? item with
      | some _, some ev => s.jobs ++ [.event ev]
      | _, _ => s.jobs }

theorem Pair.dispatch_eq (p : Pair) (x : Party) (item : Inbound) (rest : List Inbound) :
    p.dispatch x item rest = p.setSide x ((p.side x).dispatched item rest) := rfl

theorem forFriends_of_fileEvent? {item : Inbound} {ev : FileEvent} (h : Daemon.fileEvent? item = some ev) :
    item.forFriends = false := by
  cases item with
  | event e => cases e <;> simp_all [Daemon.fileEvent?, Inbound.forFriends]
  | fileError => rfl

namespace Side

variable {s : Side} {item : Inbound} {rest : List Inbound}

/-- The dispatcher moves the oldest item of the queue to the worker: every transfer's events stay
in order. -/
theorem stream_dispatched (hslot : s.bridge.fileSlot.isSome = true) (hq : s.queue = item :: rest)
    (net : Network) (id : TransferId) : (s.dispatched item rest).stream net id = s.stream net id := by
  unfold stream queued dispatched
  simp only [hq, eventsFor_cons, List.append_assoc]
  congr 1
  cases hf : Daemon.fileEvent? item with
  | none => simp [eventFor?, hf]
  | some ev =>
    have hh : s.bridge.handlerOf item = s.bridge.fileSlot := by
      simp [Bridge.handlerOf, forFriends_of_fileEvent? hf]
    obtain ⟨k, hk⟩ := Option.isSome_iff_exists.1 hslot
    rw [hh, hk]
    by_cases hid : ev.id = id <;> simp [eventFor?, hf, Work.eventFor?, hid, Option.filter]

theorem openings_dispatched (item : Inbound) (rest : List Inbound) (id : TransferId) :
    (s.dispatched item rest).openings id = s.openings id := by
  unfold openings dispatched
  split <;> simp [Work.opens]

end Side

/-! ## The network, away from the flow -/

theorem eventFor?_of_apart {file : UInt32} {e : Event} (h : e.Apart file) {id : TransferId}
    (hid : id.file = file) : eventFor? id (.event e) = none := by
  cases e with
  | fileOffered i n z => have := h i rfl; simp [eventFor?, Daemon.fileEvent?, FileEvent.id]; grind
  | fileControl i k => have := h i rfl; simp [eventFor?, Daemon.fileEvent?, FileEvent.id]; grind
  | chunkRequested i r => have := h i rfl; simp [eventFor?, Daemon.fileEvent?, FileEvent.id]; grind
  | chunkReceived i o d => have := h i rfl; simp [eventFor?, Daemon.fileEvent?, FileEvent.id]; grind
  | _ => rfl

/-- A network aside from a flow hands each node the same events of the flow's transfers. -/
theorem eventsFor_inbox_of_aside {file : UInt32} {net net' : Network} (h : Network.Aside file net net')
    {id : TransferId} (hid : id.file = file) (k : PublicKey) :
    eventsFor id ((net'.inbox k).map .event) = eventsFor id ((net.inbox k).map .event) := by
  obtain ⟨extra, hx, happ⟩ := h.inbox k
  rw [hx, List.map_append, eventsFor_append]
  have : eventsFor id (extra.map .event) = [] := by
    simp only [eventsFor, List.filterMap_map]
    exact List.filterMap_eq_nil_iff.2 fun e he => eventFor?_of_apart (happ e he) hid
  rw [this, List.append_nil]

/-! ## The worker -/

/-- The desk a job starts on: the pair's volume and clock, no calls yet, and none breaks down. -/
def Pair.desk (p : Pair) : Desk := { volume := p.volume, clock := p.clock }

/-- What a node's worker does with a job. -/
def Pair.turn (p : Pair) (x : Party) (job : Work) : Turn := (p.side x).engine.work p.desk job

@[simp] theorem Pair.turn_event (p : Pair) (x : Party) (ev : FileEvent) :
    p.turn x (.event ev) = (p.side x).engine.handle p.desk ev := rfl

@[simp] theorem Pair.turn_create (p : Pair) (x : Party) (id : TransferId) (path : String) (size : Nat) :
    p.turn x (.create id path size) = (p.side x).engine.register p.desk id path size := rfl

@[simp] theorem Pair.desk_volume (p : Pair) : p.desk.volume = p.volume := rfl
@[simp] theorem Pair.desk_clock (p : Pair) : p.desk.clock = p.clock := rfl
@[simp] theorem Pair.desk_calls (p : Pair) : p.desk.calls = #[] := rfl

theorem Pair.work_eq (p : Pair) (x : Party) (job : Work) (rest : List Work) :
    p.work x job rest =
      { p.setSide x { p.side x with
          engine := (p.turn x job).engine
          jobs := rest
          requests := (p.side x).requests ++ (p.turn x job).desk.calls.toList.map Call.request } with
        volume := (p.turn x job).desk.volume } := rfl

namespace Side

variable {s s' : Side} {id : TransferId}

theorem chunksFor_of_calls {calls : List Call} (h : s'.requests = s.requests ++ calls.map Call.request) :
    s'.chunksFor id = s.chunksFor id ++ calls.filterMap (Call.chunkOf? id) := by
  simp [chunksFor, h, List.filterMap_map]

theorem controlsFor_of_calls {calls : List Call} (h : s'.requests = s.requests ++ calls.map Call.request) :
    s'.controlsFor id = s.controlsFor id ++ calls.filterMap (Call.controlOf? id) := by
  simp [controlsFor, h, List.filterMap_map]

end Side

/-! ## The sender's engine in a job -/

theorem Desk.call_of_sure {d : Desk} {k : Call} (h : d.breaks k = false) :
    d.call k = ({ d with calls := d.calls.push k }, true) := by
  simp [Desk.call, h]

/-- How the sender's engine, and the calls made so far in a job, show the sender's side of a
transit: its transfer reads the source's inode and has nothing held; the chunks in flight are
those the pump thread had before the job (`base`) and those called since; no control is called for
it, and no call breaks down. -/
structure SenderSees (c : Course) (e : Engine) (d : Desk) (base : List (Nat × ByteArray))
    (t : Transit) : Prop where
  sender : t.sender = (e.find? c.outbound).map (·.activity == .active)
  chunks : t.chunks = base ++ d.calls.toList.filterMap (Call.chunkOf? c.outbound)
  file : ∀ u, e.find? c.outbound = some u → u.direction = .outbound ∧ u.inode = c.inode
  held : e.NoneHeld c.outbound
  bytes : d.volume.blob c.inode = c.bytes
  quiet : d.calls.toList.filterMap (Call.controlOf? c.outbound) = []
  sure : ∀ k, d.breaks k = false
  small : c.size ≤ maxOffset

namespace SenderSees

variable {c : Course} {e : Engine} {d : Desk} {base : List (Nat × ByteArray)} {t : Transit}

/-- The open sender handles the oldest event due to it as the transit machine does: the job goes
on, reads the volume only, and keeps the clock. -/
theorem handle (hs : SenderSees c e d base t) (hg : t.Good c.toShipment) (hopen : t.sender.isSome = true)
    {ev : FileEvent} {rest : List FileEvent} (hq : t.toSender = ev :: rest) :
    SenderSees c (e.handle d ev).engine (e.handle d ev).desk base (t.senderTakes c.toShipment) ∧
      (e.handle d ev).whole = true ∧ (e.handle d ev).desk.volume = d.volume ∧
      (e.handle d ev).desk.clock = d.clock := by
  obtain ⟨b, hb⟩ := Option.isSome_iff_exists.1 hopen
  obtain ⟨u, hu, hub⟩ : ∃ u, e.find? c.outbound = some u ∧ (u.activity == .active) = b := by
    rw [hs.sender] at hb
    simpa using hb
  obtain ⟨hdir, hino⟩ := hs.file u hu
  rcases hg.senderHead hb hq with ⟨rfl, rfl⟩ | ⟨rfl, r, rfl, hpos, hfit⟩ | ⟨rfl, rfl, -, -⟩
  · -- a resume while paused: the transfer becomes active
    rw [Engine.handle_resume hu]
    have ht' : t.senderTakes c.toShipment = { t with toSender := rest, sender := some true } := by
      unfold Transit.senderTakes; rw [hq]
    rw [ht']
    refine ⟨⟨by simp, hs.chunks, fun u' h' => ?_, hs.held, hs.bytes, hs.quiet, hs.sure, hs.small⟩,
      rfl, rfl, rfl⟩
    simp only [Engine.keep_engine, Engine.find?_insert_self, Option.some.injEq] at h'
    subst h'
    exact ⟨hdir, hino⟩
  · -- a request while active: the bytes asked for are sent
    have hact : u.activity = .active := by simpa using hub
    have hfit' : r.offset + r.length ≤ (d.volume.blob u.inode).size := by
      rw [hino, hs.bytes]; exact hfit
    have hmax : r.offset ≤ maxOffset := by have := hs.small; simp only [Shipment.size] at hfit this; omega
    rw [Engine.handle_pull_within hu hdir hact (by omega) hmax hfit']
    have ht' : t.senderTakes c.toShipment =
        { t with toSender := rest, chunks := t.chunks ++ [c.slice r] } := by
      unfold Transit.senderTakes; rw [hq]; simp [Nat.pos_iff_ne_zero.1 hpos]
    rw [ht']
    simp only [Engine.calling, Desk.call_of_sure (hs.sure _)]
    refine ⟨⟨by simp [hs.sender, hu, hact], ?_, fun u' h' => ?_, hs.held, hs.bytes, ?_, hs.sure, hs.small⟩,
      trivial, trivial, trivial⟩
    · simp [hs.chunks, Call.chunkOf?, hino, hs.bytes, Shipment.slice]
    · simp only [Engine.find?_insert_self, Option.some.injEq] at h'
      subst h'
      exact ⟨hdir, by simpa using hino⟩
    · simp [hs.quiet, Call.controlOf?]
  · -- the end marker: the transfer is dropped
    have hact : u.activity = .active := by simpa using hub
    rw [show c.senderEnd = FileEvent.pull c.outbound ⟨c.size, 0⟩ from rfl] at hq ⊢
    rw [Engine.handle_pull_end hu hdir hact rfl]
    have ht' : t.senderTakes c.toShipment = { t with toSender := rest, sender := none } := by
      unfold Transit.senderTakes; rw [hq]; rfl
    rw [ht']
    exact ⟨⟨by simp, hs.chunks, fun u' h' => by simp at h', hs.held, hs.bytes, hs.quiet, hs.sure,
      hs.small⟩, rfl, rfl, rfl⟩

/-- The open sender replays events due to it as the transit machine handles them one by one; the
job reads the volume only and keeps the clock. -/
theorem replay (evs : List FileEvent) (hs : SenderSees c e d base t) (hg : t.Good c.toShipment)
    (hopen : t.sender.isSome = true) {rest : List FileEvent} (hq : t.toSender = evs ++ rest) :
    SenderSees c (Engine.replay d evs e).engine (Engine.replay d evs e).desk base
        (Nat.iterate (Transit.senderTakes c.toShipment) evs.length t) ∧
      (Engine.replay d evs e).desk.volume = d.volume ∧ (Engine.replay d evs e).desk.clock = d.clock := by
  induction evs generalizing e d t with
  | nil => exact ⟨hs, rfl, rfl⟩
  | cons ev evs ih =>
    obtain ⟨hs', hw, hv, hc⟩ := hs.handle hg hopen hq
    rw [Engine.replay_cons_of_whole d e evs hw, List.length_cons, Function.iterate_succ_apply]
    cases evs with
    | nil => exact ⟨hs', hv, hc⟩
    | cons ev' evs =>
      -- the sender is still open: only the last event due can drop it
      have hopen' : (t.senderTakes c.toShipment).sender.isSome = true := by
        rw [Option.isSome_iff_ne_none]
        intro hd
        have := (hg.senderTakes_drops hopen hd).1
        rw [hq] at this
        simp at this
      obtain ⟨h₁, h₂, h₃⟩ := ih hs' (hg.senderTakes hopen) hopen' (by simp [hq])
      exact ⟨h₁, h₂.trans hv, h₃.trans hc⟩

end SenderSees

/-! ## A job of the sender's transfer -/

variable (c : Course) {p : Pair}

theorem senderSees_start (hfile : ∀ u, p.sender.engine.find? c.outbound = some u →
      u.direction = .outbound ∧ u.inode = c.inode)
    (hheld : p.sender.engine.NoneHeld c.outbound) (hbytes : p.volume.blob c.inode = c.bytes)
    (hsmall : c.size ≤ maxOffset) :
    SenderSees c p.sender.engine p.desk (p.sender.chunksFor c.outbound) (c.transit p) :=
  ⟨rfl, by simp [Course.transit, Pair.desk], hfile, hheld, hbytes, by simp [Pair.desk], fun _ => rfl, hsmall⟩

/-- The open sender's worker takes an event of its transfer: the transit machine's sender handles
the oldest event due to it. -/
theorem transit_work_sender_open {ev : FileEvent} {rest : List Work}
    (hj : p.sender.jobs = .event ev :: rest) (hid : ev.id = c.outbound)
    (hg : (c.transit p).Good c.toShipment) (hopen : (c.transit p).sender.isSome = true)
    (hs₀ : SenderSees c p.sender.engine p.desk (p.sender.chunksFor c.outbound) (c.transit p)) :
    c.transit (p.work .sender (.event ev) rest) = (c.transit p).senderTakes c.toShipment ∧
      SenderSees c (p.turn .sender (.event ev)).engine (p.turn .sender (.event ev)).desk
        (p.sender.chunksFor c.outbound) ((c.transit p).senderTakes c.toShipment) ∧
      (p.turn .sender (.event ev)).desk.volume = p.volume := by
  have hq : (c.transit p).toSender =
      ev :: (rest.filterMap (Work.eventFor? c.outbound) ++ p.sender.queued p.net c.outbound) := by
    simp [Course.transit, Side.stream, Engine.takeHeld_of_noneHeld hs₀.held, hj, Work.eventFor?, hid]
  obtain ⟨hs, -, hv, -⟩ := hs₀.handle hg hopen hq
  obtain ⟨a₁, a₂, a₃, a₄⟩ := Transit.senderTakes_apart (s := c.toShipment) (t := c.transit p)
  refine ⟨?_, hs, hv⟩
  rw [Pair.work_eq]
  ext1
  · exact hs.sender.symm
  · rw [a₁]
    simp [Course.transit, Side.openings, hj, Work.opens]
  · rw [Transit.senderTakes_toSender, hq]
    simp [Course.transit, Side.stream, Engine.takeHeld_of_noneHeld hs.held, Side.queued]
  · rw [hs.chunks]
    exact Side.chunksFor_of_calls rfl
  · rw [Transit.senderTakes_flow]; rfl
  · rw [a₂]; simp [Course.transit, hv]
  · rw [a₃]; rfl
  · rw [a₄]; rfl


/-- Opening the sender's transfer: the transit machine's sender opens it, paused, and handles the
events held for it one by one. -/
theorem transit_work_sender_create {rest : List Work}
    (hj : p.sender.jobs = .create c.outbound c.path c.size :: rest)
    (hg : (c.transit p).Good c.toShipment) (hone : p.sender.openings c.outbound ≤ 1)
    (hopen : p.volume.openFile c.path = .ok c.inode) (hbytes : p.volume.blob c.inode = c.bytes)
    (hsmall : c.size ≤ maxOffset) :
    c.transit (p.work .sender (.create c.outbound c.path c.size) rest) =
        Nat.iterate (Transit.senderTakes c.toShipment) (p.sender.engine.takeHeld c.outbound).2.length
          (c.transit p).opened ∧
      SenderSees c (p.turn .sender (.create c.outbound c.path c.size)).engine
        (p.turn .sender (.create c.outbound c.path c.size)).desk (p.sender.chunksFor c.outbound)
        (Nat.iterate (Transit.senderTakes c.toShipment) (p.sender.engine.takeHeld c.outbound).2.length
          (c.transit p).opened) ∧
      (p.turn .sender (.create c.outbound c.path c.size)).desk.volume = p.volume := by
  have hopening : (c.transit p).opening = true := by
    simp [Course.transit, Side.openings, hj, Work.opens]
  have hnone : p.sender.engine.find? c.outbound = none := by
    have := hg.sender.opening hopening
    simpa [Course.transit] using this
  -- the transfer opens paused, with nothing held for it, and replays what was held
  have hs₀ : SenderSees c ((p.sender.engine.takeHeld c.outbound).1.insert c.outbound
      (.outbound c.inode c.size c.path)) p.desk (p.sender.chunksFor c.outbound)
      (c.transit p).opened :=
    ⟨by simp [Transit.opened], by simp [Transit.opened, Course.transit, Pair.desk],
      fun u h => by simp at h; rw [← h]; exact ⟨rfl, rfl⟩,
      fun h hh => Engine.noneHeld_takeHeld p.sender.engine c.outbound h hh, hbytes,
      by simp [Pair.desk], fun _ => rfl, hsmall⟩
  have hq : (c.transit p).opened.toSender = (p.sender.engine.takeHeld c.outbound).2 ++
      (rest.filterMap (Work.eventFor? c.outbound) ++ p.sender.queued p.net c.outbound) := by
    simp [Transit.opened, Course.transit, Side.stream, hj, List.filterMap_cons, Work.eventFor?]
  obtain ⟨hs, hv, -⟩ := hs₀.replay _ (hg.opened hopening) (by simp [Transit.opened]) hq
  obtain ⟨i₁, i₂, i₃, i₄, i₅, i₆⟩ := Transit.iterate_senderTakes (s := c.toShipment)
    (t := (c.transit p).opened) (p.sender.engine.takeHeld c.outbound).2.length
  have hturn : p.turn .sender (.create c.outbound c.path c.size) =
      Engine.replay p.desk (p.sender.engine.takeHeld c.outbound).2
        ((p.sender.engine.takeHeld c.outbound).1.insert c.outbound
          (.outbound c.inode c.size c.path)) :=
    Engine.register_eq_replay p.desk c.size hnone hopen
  rw [hturn]
  refine ⟨?_, hs, hv⟩
  rw [Pair.work_eq, hturn]
  ext1
  · exact hs.sender.symm
  · -- the job was the one opening: none is left
    rw [i₃]
    simp [Side.openings, hj, Work.opens] at hone
    have h₁ : p.sender.offers.filter (Offer.answers c.outbound) = [] := List.length_eq_zero_iff.1 (by omega)
    have h₂ : rest.filter (Work.opens c.outbound) = [] := List.length_eq_zero_iff.1 (by omega)
    simp [Course.transit, Side.openings, Transit.opened, h₁, h₂]
  · rw [i₁, hq, List.drop_left]
    simp [Course.transit, Side.stream, Engine.takeHeld_of_noneHeld hs.held, Side.queued]
  · rw [hs.chunks]
    exact Side.chunksFor_of_calls rfl
  · rw [i₂]; rfl
  · rw [i₄]; simp [Course.transit, Transit.opened, hv]
  · rw [i₅]; rfl
  · rw [i₆]; rfl

theorem senderDue_holdable (t : Transit) (s : Shipment) (P : List ChunkRequest) :
    ∀ ev ∈ t.senderDue s P, ev.holdable = true := by
  intro ev hev
  simp only [Transit.senderDue, List.mem_append, List.mem_map] at hev
  rcases hev with (hev | ⟨r, -, rfl⟩) | hev
  · split at hev
    · rw [List.mem_singleton.1 hev]; rfl
    · cases hev
  · rfl
  · split at hev
    · rw [List.mem_singleton.1 hev]; rfl
    · cases hev

/-- Before the sender's transfer is open, its worker holds the transfer's events, in order after
what it held. -/
theorem transit_work_sender_hold {ev : FileEvent} {rest : List Work}
    (hj : p.sender.jobs = .event ev :: rest) (hid : ev.id = c.outbound)
    (hg : (c.transit p).Good c.toShipment) (hnone : p.sender.engine.find? c.outbound = none)
    (hyoung : p.sender.engine.Young c.outbound p.clock) (hroom : p.sender.engine.heldCount < maxHeld) :
    c.transit (p.work .sender (.event ev) rest) = c.transit p ∧
      p.turn .sender (.event ev) = (p.sender.engine.hold p.clock c.outbound ev).keep p.desk := by
  obtain ⟨mid, P, cs, -, -, hdue, -⟩ := hg.sender.due
  have hh : ev.holdable = true := by
    apply senderDue_holdable (c.transit p) c.toShipment P
    rw [← hdue]
    simp [Course.transit, Side.stream, hj, Work.eventFor?, hid]
  have hturn : p.turn .sender (.event ev) = (p.sender.engine.hold p.clock c.outbound ev).keep p.desk := by
    rw [Pair.turn_event, Engine.handle_of_closed hh (hid ▸ hnone), hid]
    rfl
  refine ⟨?_, hturn⟩
  rw [Pair.work_eq, hturn]
  ext1
  · simp [Course.transit]
  · simp [Course.transit, Side.openings, hj, Work.opens]
  · simp [Course.transit, Side.stream, hj, Work.eventFor?, hid, Side.queued,
      Engine.takeHeld_hold_self hyoung hroom ev]
  · simp [Course.transit, Side.chunksFor, Pair.desk]
  · rfl
  · simp [Course.transit, Pair.desk]
  · rfl
  · rfl

/-- A job of the sender's worker about another transfer leaves the transit, as long as what is
held for the shipment is young and the job leaves the receiver's file alone. -/
theorem transit_work_sender_other {job : Work} {rest : List Work} (hj : p.sender.jobs = job :: rest)
    (hid : job.id ≠ c.outbound) (htag : p.sender.engine.HeldTagged)
    (hyoung : p.sender.engine.Young c.outbound p.clock)
    (hown : ∀ u, p.receiver.engine.find? c.inbound = some u →
      (p.turn .sender job).desk.volume.blob u.inode = p.volume.blob u.inode) :
    c.transit (p.work .sender job rest) = c.transit p := by
  have hview : (p.turn .sender job).engine.view (p.turn .sender job).desk c.outbound =
      p.sender.engine.view p.desk c.outbound := Engine.work_view_of_ne htag p.desk hid
  obtain ⟨hheld, -⟩ := Engine.work_takeHeld_ne htag hyoung hid (d := p.desk)
  have hcalls : (p.turn .sender job).desk.calls.toList.filter (·.id == c.outbound) = [] := by
    have := congrArg Prod.snd hview
    simpa [Engine.view, Desk.callsFor] using this
  obtain ⟨hch, -⟩ := calls_of_others hcalls
  have hfind : (p.turn .sender job).engine.find? c.outbound = p.sender.engine.find? c.outbound :=
    congrArg Prod.fst hview
  rw [Pair.work_eq]
  ext1
  · simp only [Course.transit, Pair.setSide_sender, Pair.side_sender]
    rw [hfind]
  · simp [Course.transit, Side.openings, hj, Work.opens_of_ne hid]
  · simp only [Course.transit, Side.stream, Pair.setSide_sender, Pair.side_sender]
    rw [show ((p.turn .sender job).engine.takeHeld c.outbound).2 = (p.sender.engine.takeHeld c.outbound).2
      from hheld]
    simp [hj, Work.eventFor?_of_ne hid, Side.queued]
  · simp only [Course.transit]
    rw [Side.chunksFor_of_calls rfl, hch, List.append_nil, Pair.side_sender]
  · rfl
  · simp only [Course.transit]
    exact Option.map_congr fun u hu => hown u hu
  · rfl
  · rfl

/-- A job of the receiver's worker about another transfer leaves the transit, as long as it leaves
the receiver's file alone. -/
theorem transit_work_receiver_other {job : Work} {rest : List Work} (hj : p.receiver.jobs = job :: rest)
    (hid : job.id ≠ c.inbound) (htag : p.receiver.engine.HeldTagged)
    (hheld : p.receiver.engine.NoneHeld c.inbound)
    (hown : ∀ u, p.receiver.engine.find? c.inbound = some u →
      (p.turn .receiver job).desk.volume.blob u.inode = p.volume.blob u.inode) :
    c.transit (p.work .receiver job rest) = c.transit p := by
  have hview : (p.turn .receiver job).engine.view (p.turn .receiver job).desk c.inbound =
      p.receiver.engine.view p.desk c.inbound := Engine.work_view_of_ne htag p.desk hid
  have hheld' : (p.turn .receiver job).engine.NoneHeld c.inbound := Engine.work_noneHeld htag hheld p.desk hid
  have hcalls : (p.turn .receiver job).desk.calls.toList.filter (·.id == c.inbound) = [] := by
    have := congrArg Prod.snd hview
    simpa [Engine.view, Desk.callsFor] using this
  obtain ⟨-, hco⟩ := calls_of_others hcalls
  have hfind : (p.turn .receiver job).engine.find? c.inbound = p.receiver.engine.find? c.inbound :=
    congrArg Prod.fst hview
  rw [Pair.work_eq]
  ext1
  · rfl
  · rfl
  · rfl
  · rfl
  · rfl
  · simp only [Course.transit, Pair.setSide_receiver, Pair.side_receiver]
    rw [hfind]
    exact Option.map_congr fun u hu => hown u hu
  · simp only [Course.transit, Side.stream, Pair.setSide_receiver, Pair.side_receiver]
    rw [Engine.takeHeld_of_noneHeld hheld', Engine.takeHeld_of_noneHeld hheld]
    simp [hj, Work.eventFor?_of_ne hid, Side.queued]
  · simp only [Course.transit]
    rw [Side.controlsFor_of_calls rfl, hco, List.append_nil, Pair.side_receiver]

/-- How the receiver's engine shows the receiver's side of a transit: its transfer, while open, is
an active incoming one on a file of the volume at the destination, and nothing is held for it. -/
structure ReceiverSees (c : Course) (e : Engine) (v : Volume) (dest : String) : Prop where
  file : ∀ u, e.find? c.inbound = some u → u.direction = .inbound ∧ u.activity = .active ∧
    u.inode < v.blobs.size ∧ u.path = dest
  held : e.NoneHeld c.inbound
  sound : v.Sound

/-- A job of the receiver's worker on an event of its transfer, as the transit sees it: the event is
taken off what is due to the receiver, the receiver's file is what the job left, and the controls it
called join those in flight. The sender's side is untouched. -/
theorem transit_work_receiver_frame {ev : FileEvent} {rest : List Work}
    (hj : p.receiver.jobs = .event ev :: rest) (hid : ev.id = c.inbound)
    (hheld : p.receiver.engine.NoneHeld c.inbound)
    (hheld' : (p.turn .receiver (.event ev)).engine.NoneHeld c.inbound) :
    c.transit (p.work .receiver (.event ev) rest) =
      { c.transit p with
        receiver := ((p.turn .receiver (.event ev)).engine.find? c.inbound).map fun u =>
          (p.turn .receiver (.event ev)).desk.volume.blob u.inode
        toReceiver := (c.transit p).toReceiver.tail
        controls := (c.transit p).controls ++
          (p.turn .receiver (.event ev)).desk.calls.toList.filterMap (Call.controlOf? c.inbound) } := by
  have hq : (c.transit p).toReceiver =
      ev :: (rest.filterMap (Work.eventFor? c.inbound) ++ p.receiver.queued p.net c.inbound) := by
    simp [Course.transit, Side.stream, Engine.takeHeld_of_noneHeld hheld, hj, Work.eventFor?, hid]
  have hnone' := Engine.takeHeld_of_noneHeld hheld'
  simp only [Pair.turn_event, Pair.side_receiver] at hnone'
  rw [Pair.work_eq]
  ext1
  · rfl
  · rfl
  · rfl
  · rfl
  · rfl
  · rfl
  · rw [hq]
    simp [Course.transit, Side.stream, hnone', Side.queued]
  · exact Side.controlsFor_of_calls rfl

/-- The receiver takes the offer: the file is made empty at the destination and the transfer
resumed. -/
theorem transit_work_receiver_offered {rest : List Work} {nm dest : String} {v : Volume} {ino : Nat}
    (hj : p.receiver.jobs = .event (.offered c.inbound c.name c.size) :: rest)
    (hg : (c.transit p).Good c.toShipment) (hs : ReceiverSees c p.receiver.engine p.volume dest)
    (hname : sanitizeName c.name = some nm) (hdest : join p.receiver.engine.receiveDir nm = dest)
    (hc : p.volume.createFile dest = .ok (v, ino)) :
    c.transit (p.work .receiver (.event (.offered c.inbound c.name c.size)) rest) =
        (c.transit p).receiverTakes ∧
      ReceiverSees c (p.turn .receiver (.event (.offered c.inbound c.name c.size))).engine
        (p.turn .receiver (.event (.offered c.inbound c.name c.size))).desk.volume dest := by
  have hq : (c.transit p).toReceiver = .offered c.inbound c.name c.size ::
      (rest.filterMap (Work.eventFor? c.inbound) ++ p.receiver.queued p.net c.inbound) := by
    simp [Course.transit, Side.stream, Engine.takeHeld_of_noneHeld hs.held, hj, Work.eventFor?,
      FileEvent.id]
  -- the offer comes first only while the receiver has no transfer
  have hnone : p.receiver.engine.find? c.inbound = none := by
    rcases hg.receiverHead hq with ⟨habs, -⟩ | ⟨r, -, hr, -⟩ | ⟨-, hr, -⟩
    · simpa [Course.transit] using habs
    · cases hr
    · cases hr
  subst hdest
  obtain ⟨hsound, hlt, hempty, -, -⟩ := Volume.createFile_blob hs.sound hc
  have hturn : p.turn .receiver (.event (.offered c.inbound c.name c.size)) =
      (p.receiver.engine.insert c.inbound (.inbound ino c.size
        (join p.receiver.engine.receiveDir nm))).calling { p.desk with volume := v }
        (.control c.inbound .resume) :=
    Engine.handle_offered hname hnone hc
  have hheld' : (p.turn .receiver (.event (.offered c.inbound c.name c.size))).engine.NoneHeld c.inbound := by
    rw [hturn]
    exact hs.held
  refine ⟨?_, ⟨fun u hu => ?_, hheld', ?_⟩⟩
  · rw [transit_work_receiver_frame c hj rfl hs.held hheld', hturn]
    unfold Transit.receiverTakes
    rw [hq]
    simp [hempty, Desk.call, Pair.desk, Call.controlOf?]
  · rw [hturn] at hu
    simp only [Engine.calling_engine, Engine.find?_insert_self, Option.some.injEq] at hu
    subst hu
    exact ⟨rfl, rfl, by simpa [hturn] using hlt, rfl⟩
  · rw [hturn]
    simpa using hsound

/-- The receiver takes a chunk: it is written after what the file holds. -/
theorem transit_work_receiver_chunk {rest : List Work} {dest : String} {r : ChunkRequest}
    (hj : p.receiver.jobs = .event (c.arrival r) :: rest)
    (hs : ReceiverSees c p.receiver.engine p.volume dest)
    (hrec : (c.transit p).receiver = some (c.bytes.extract 0 r.offset)) (hpos : 0 < r.length)
    (hfit : r.offset + r.length ≤ c.size) (hsmall : c.size ≤ maxOffset) :
    c.transit (p.work .receiver (.event (c.arrival r)) rest) = (c.transit p).receiverTakes ∧
      ReceiverSees c (p.turn .receiver (.event (c.arrival r))).engine
        (p.turn .receiver (.event (c.arrival r))).desk.volume dest := by
  obtain ⟨u, hu, hblob⟩ : ∃ u, p.receiver.engine.find? c.inbound = some u ∧
      p.volume.blob u.inode = c.bytes.extract 0 r.offset := by
    simpa [Course.transit] using hrec
  obtain ⟨hin, hact, hlt, hpath⟩ := hs.file u hu
  have hbytes : c.size = c.bytes.size := rfl
  have hsize : (p.volume.blob u.inode).size = r.offset := by
    rw [hblob, ByteArray.size_extract]
    omega
  have hdata : (c.bytes.extract r.offset (r.offset + r.length)).size = r.length := by
    rw [ByteArray.size_extract]
    omega
  have hw := Volume.writeAt_end p.volume (i := u.inode) (c.bytes.extract r.offset (r.offset + r.length))
    (by rw [hsize, hdata]; omega)
  rw [hsize] at hw
  have hturn : p.turn .receiver (.event (c.arrival r)) =
      (p.receiver.engine.insert c.inbound
        { u with file := (u.file.writeChunk p.volume r.offset
          (c.bytes.extract r.offset (r.offset + r.length))).1.2 }).keep
        { p.desk with volume := p.volume.setBlob u.inode (p.volume.blob u.inode ++
          c.bytes.extract r.offset (r.offset + r.length)) } :=
    Engine.handle_chunk_write hu hin hact (by omega) hw
  have hheld' : (p.turn .receiver (.event (c.arrival r))).engine.NoneHeld c.inbound := by
    rw [hturn]
    exact hs.held
  have hq : (c.transit p).toReceiver = c.arrival r ::
      (rest.filterMap (Work.eventFor? c.inbound) ++ p.receiver.queued p.net c.inbound) := by
    simp [Course.transit, Side.stream, Engine.takeHeld_of_noneHeld hs.held, hj, Work.eventFor?,
      Shipment.arrival, FileEvent.id]
  refine ⟨?_, ⟨fun u' hu' => ?_, hheld', ?_⟩⟩
  · rw [transit_work_receiver_frame c hj rfl hs.held hheld', hturn]
    unfold Transit.receiverTakes
    rw [hq]
    simp [Shipment.arrival, hdata, Nat.pos_iff_ne_zero.1 hpos, hrec, Pair.desk,
      Volume.blob_setBlob _ _ _ hlt, hblob]
  · rw [hturn] at hu'
    simp only [Engine.keep_engine, Engine.find?_insert_self, Option.some.injEq] at hu'
    subst hu'
    exact ⟨hin, hact, by simpa [hturn] using hlt, hpath⟩
  · rw [hturn]
    exact hs.sound.setBlob _ _

/-- The receiver takes its end marker: the transfer is dropped. -/
theorem transit_work_receiver_end {rest : List Work} {dest : String}
    (hj : p.receiver.jobs = .event c.receiverEnd :: rest)
    (hs : ReceiverSees c p.receiver.engine p.volume dest) (hrec : (c.transit p).receiver = some c.bytes) :
    c.transit (p.work .receiver (.event c.receiverEnd) rest) = (c.transit p).receiverTakes ∧
      ReceiverSees c (p.turn .receiver (.event c.receiverEnd)).engine
        (p.turn .receiver (.event c.receiverEnd)).desk.volume dest := by
  obtain ⟨u, hu, -⟩ : ∃ u, p.receiver.engine.find? c.inbound = some u ∧ p.volume.blob u.inode = c.bytes := by
    simpa [Course.transit] using hrec
  obtain ⟨hin, hact, -, -⟩ := hs.file u hu
  have hturn : p.turn .receiver (.event c.receiverEnd) = (p.receiver.engine.erase c.inbound).keep p.desk :=
    Engine.handle_chunk_end hu hin hact rfl
  have hheld' : (p.turn .receiver (.event c.receiverEnd)).engine.NoneHeld c.inbound := by
    rw [hturn]
    exact hs.held
  have hq : (c.transit p).toReceiver = c.receiverEnd ::
      (rest.filterMap (Work.eventFor? c.inbound) ++ p.receiver.queued p.net c.inbound) := by
    simp [Course.transit, Side.stream, Engine.takeHeld_of_noneHeld hs.held, hj, Work.eventFor?,
      Shipment.receiverEnd, FileEvent.id]
  refine ⟨?_, ⟨fun u' hu' => ?_, hheld', ?_⟩⟩
  · rw [transit_work_receiver_frame c hj rfl hs.held hheld', hturn]
    unfold Transit.receiverTakes
    rw [hq]
    simp [Shipment.receiverEnd, Pair.desk]
  · rw [hturn] at hu'
    simp at hu'
  · rw [hturn]
    exact hs.sound

end Courier.Transfer
