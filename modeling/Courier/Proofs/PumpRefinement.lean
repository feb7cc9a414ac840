-- The pair takes a round of a node's pump as one move that puts all its items in a receive queue
-- without bound. The pump thread fills a bounded receive queue item by item and, while it is full,
-- runs the requests waiting; every run of it is a run of the node's moves in the pair.
import Courier.Proofs.PumpDelivery
import Courier.Proofs.PairNetwork

namespace Courier.Transfer

open Network

/-! ## A node's pump thread as the pair sees it -/

theorem PairStep.key {p p' : Pair} {m : Move} (h : PairStep p m p') (x : Party) :
    (p'.side x).key = (p.side x).key := by
  cases h with
  | round y => cases x <;> cases y <;> rfl
  | serve y r rest _ => cases x <;> cases y <;> rfl
  | dispatch y item rest _ => cases x <;> cases y <;> rfl
  | work y job rest _ => cases x <;> cases y <;> rfl
  | send => cases x <;> rfl
  | offer => cases x <;> rfl
  | settle => cases x <;> rfl
  | tick => rfl

/-- The moves of the pair that stand for node `x`'s pump thread and dispatcher, and the clock. -/
def Move.byPump (x : Party) : Move → Bool
  | .round y | .serve y | .dispatch y => y == x
  | .tick => true
  | _ => false

namespace Pair

/-- Node `x` with the requests `rs` queued behind its own. -/
def ask (p : Pair) (x : Party) (rs : List Request) : Pair :=
  p.setSide x { p.side x with requests := (p.side x).requests ++ rs }

/-- Node `x` with another bridge. -/
def rebridge (p : Pair) (x : Party) (b : Bridge) : Pair :=
  p.setSide x { p.side x with bridge := b }

/-- A move of node `x`'s pump thread, its dispatcher or the clock, as the pair makes it; or what
the node's other threads do to the pump thread: queue requests, or put a handler in its slot or
take one out. -/
inductive NodeStep (x : Party) : Pair → Pair → Prop where
  | move {p p' : Pair} {m : Move} (hm : m.byPump x = true) (h : PairStep p m p') : NodeStep x p p'
  | ask (p : Pair) (rs : List Request) : NodeStep x p (p.ask x rs)
  | handler (p : Pair) (k : HandlerKind) (n : Nat) (b : Bridge)
      (h : (p.side x).bridge.register k n = .ok b ∨ (p.side x).bridge.unregister k n = .ok b) :
      NodeStep x p (p.rebridge x b)

/-- The moves of node `x` one after another. -/
abbrev NodeRun (x : Party) : Pair → Pair → Prop := Relation.ReflTransGen (NodeStep x)

variable (p : Pair) (x : Party)

@[simp] theorem side_setSide_self (s : Side) : (p.setSide x s).side x = s := by cases x <;> rfl

@[simp] theorem setSide_net (s : Side) : (p.setSide x s).net = p.net := by cases x <;> rfl

@[simp] theorem setSide_volume (s : Side) : (p.setSide x s).volume = p.volume := by cases x <;> rfl

@[simp] theorem setSide_clock (s : Side) : (p.setSide x s).clock = p.clock := by cases x <;> rfl

theorem round_side_self :
    (p.round x).side x =
      { p.side x with bridge := (p.pumped x).1, queue := (p.side x).queue ++ (p.pumped x).2.2 } := by
  cases x <;> rfl

theorem round_net : (p.round x).net = (p.pumped x).2.1 := by cases x <;> rfl

theorem round_clock : (p.round x).clock = p.clock := by cases x <;> rfl

section Serve

variable (r : Request) (rest : List Request)

/-- What running the request `r` gives node `x`: its bridge, the network, the volume and the items. -/
def served : Bridge × Network × Files.Volume × List Inbound :=
  (p.side x).bridge.execute (wire (p.side x).key) p.net p.volume p.clock r

theorem serve_side_self :
    (p.serve x r rest).side x =
      { p.side x with bridge := (p.served x r).1, requests := rest,
                      queue := (p.side x).queue ++ (p.served x r).2.2.2 } := by
  cases x <;> rfl

theorem serve_net : (p.serve x r rest).net = (p.served x r).2.1 := by cases x <;> rfl

theorem serve_volume : (p.serve x r rest).volume = (p.served x r).2.2.1 := by cases x <;> rfl

theorem serve_clock : (p.serve x r rest).clock = p.clock := by cases x <;> rfl

end Serve

theorem dispatch_side_self (item : Inbound) (rest : List Inbound) :
    ∃ jobs, (p.dispatch x item rest).side x = { p.side x with queue := rest, jobs } := by
  cases x <;> exact ⟨_, rfl⟩

theorem dispatch_net (item : Inbound) (rest : List Inbound) : (p.dispatch x item rest).net = p.net := by
  cases x <;> rfl

theorem dispatch_clock (item : Inbound) (rest : List Inbound) :
    (p.dispatch x item rest).clock = p.clock := by
  cases x <;> rfl

theorem NodeStep.key {p p' : Pair} (h : NodeStep x p p') : (p'.side x).key = (p.side x).key := by
  cases h with
  | move _ h => exact h.key x
  | ask rs => rw [Pair.ask, side_setSide_self]
  | handler k n b _ => rw [rebridge, side_setSide_self]

theorem NodeRun.key {p p' : Pair} (h : NodeRun x p p') : (p'.side x).key = (p.side x).key := by
  induction h with
  | refl => rfl
  | tail _ step ih => exact (NodeStep.key x step).trans ih

end Pair

end Courier.Transfer

namespace Courier.PumpThread

open Network

/-- The pump thread of node `x` as the pair shows it: the node's bridge, the network, the volume,
the clock and the node's requests, with the receive queue and then the items still to deliver as
the node's receive queue. -/
structure Shows (t : PumpThread Network) (p : Transfer.Pair) (x : Transfer.Party) : Prop where
  bridge : t.bridge = (p.side x).bridge
  world : t.world = p.net
  volume : t.volume = p.volume
  clock : t.clock = p.clock
  requests : t.requests = (p.side x).requests
  queue : t.queue ++ t.backlog = (p.side x).queue

variable {ω : Type} (w : Wire ω) (t : PumpThread ω)

/-- A stall runs the first request waiting, puts what it made behind the backlog, and then runs the
rest. -/
theorem stall_cons {r : Request} {rest : List Request} (hr : t.requests = r :: rest) :
    (t.stall w).1 =
      (({ t with
          bridge := (t.bridge.execute w t.world t.volume t.clock r).1
          world := (t.bridge.execute w t.world t.volume t.clock r).2.1
          volume := (t.bridge.execute w t.world t.volume t.clock r).2.2.1
          requests := rest
          backlog := t.backlog ++ (t.bridge.execute w t.world t.volume t.clock r).2.2.2 } :
        PumpThread ω).stall w).1 := by
  simp [stall, hr, Bridge.executeAll]

theorem stall_nil (hr : t.requests = []) : (t.stall w).1 = { t with requests := [] } := by
  simp [stall, hr, Bridge.executeAll]

end Courier.PumpThread



namespace Courier

open Transfer Transfer.Pair Network

variable {p : Pair} {x : Party} {t t' : PumpThread Network} {cap : Nat} {shown : List PumpEvent}

/-! ## A stall is the node's requests served one by one -/

theorem PumpThread.Shows.stall (h : t.Shows p x) :
    ∃ p', NodeRun x p p' ∧ (t.stall (wire (p.side x).key)).1.Shows p' x := by
  generalize hr : t.requests = rs
  induction rs generalizing t p with
  | nil =>
    refine ⟨p, .refl, ?_⟩
    rw [PumpThread.stall_nil _ _ hr]
    exact { h with requests := by rw [← h.requests, hr] }
  | cons r rest ih =>
    -- the first request is served, and its items join the backlog
    have hserve : (p.side x).requests = r :: rest := h.requests ▸ hr
    have hkey : ((p.serve x r rest).side x).key = (p.side x).key := by rw [serve_side_self]
    have h₁ : PumpThread.Shows { t with
        bridge := (t.bridge.execute (wire (p.side x).key) t.world t.volume t.clock r).1
        world := (t.bridge.execute (wire (p.side x).key) t.world t.volume t.clock r).2.1
        volume := (t.bridge.execute (wire (p.side x).key) t.world t.volume t.clock r).2.2.1
        requests := rest
        backlog := t.backlog ++ (t.bridge.execute (wire (p.side x).key) t.world t.volume t.clock r).2.2.2 }
        (p.serve x r rest) x :=
      { bridge := by rw [serve_side_self, served, h.bridge, h.world, h.volume, h.clock]
        world := by rw [serve_net, served, h.bridge, h.world, h.volume, h.clock]
        volume := by rw [serve_volume, served, h.bridge, h.world, h.volume, h.clock]
        clock := by rw [serve_clock]; exact h.clock
        requests := by rw [serve_side_self]
        queue := by
          rw [serve_side_self, served, ← h.bridge, ← h.world, ← h.volume, ← h.clock, ← h.queue,
            List.append_assoc] }
    obtain ⟨p', hrun, hs⟩ := ih h₁ rfl
    refine ⟨p', .head (.move (m := .serve x) (by simp [Move.byPump]) (.serve p x r rest hserve)) hrun, ?_⟩
    rw [PumpThread.stall_cons _ _ hr]
    rw [hkey] at hs
    exact hs

theorem PumpThread.Shows.ask (h : t.Shows p x) (rs : List Request) :
    ({ t with requests := t.requests ++ rs } : PumpThread Network).Shows (p.ask x rs) x :=
  { bridge := by rw [Pair.ask, side_setSide_self]; exact h.bridge
    world := by rw [Pair.ask, setSide_net]; exact h.world
    volume := by rw [Pair.ask, setSide_volume]; exact h.volume
    clock := by rw [Pair.ask, setSide_clock]; exact h.clock
    requests := by rw [Pair.ask, side_setSide_self]; simp [h.requests]
    queue := by rw [Pair.ask, side_setSide_self]; exact h.queue }

theorem PumpThread.Shows.rebridge (h : t.Shows p x) (b : Bridge) :
    ({ t with bridge := b } : PumpThread Network).Shows (p.rebridge x b) x :=
  { bridge := by rw [Pair.rebridge, side_setSide_self]
    world := by rw [Pair.rebridge, setSide_net]; exact h.world
    volume := by rw [Pair.rebridge, setSide_volume]; exact h.volume
    clock := by rw [Pair.rebridge, setSide_clock]; exact h.clock
    requests := by rw [Pair.rebridge, side_setSide_self]; exact h.requests
    queue := by rw [Pair.rebridge, side_setSide_self]; exact h.queue }

/-! ## Each move of the pump thread is a run of the node -/

/-- A bridge that runs after a move ran before it: only a shutdown stops it. -/
theorem PumpStep.running_of {w : Wire Network} (step : PumpStep w cap t shown t')
    (live : t'.bridge.running = true) : t.bridge.running = true := by
  cases step with
  | pump => simpa using live
  | stall => simpa using live
  | take => simpa using live
  | stop => simp [Bridge.shutdown] at live
  | register k n b ok => exact (Bridge.register_running ok) ▸ live
  | unregister k n b ok => exact (Bridge.unregister_running ok) ▸ live
  | _ => exact live

/-- Each move of the pump thread, of the threads around it or of the clock, from a thread that
shows the node and has nothing left over outside a delivery, is a run of the node's moves in the
pair to a node the new thread shows. -/
theorem PumpStep.refines (step : PumpStep (wire (p.side x).key) cap t shown t') (h : t.Shows p x)
    (hset : t.phase ≠ .delivering → t.backlog = []) (live : t'.bridge.running = true) :
    ∃ p', NodeRun x p p' ∧ t'.Shows p' x := by
  cases step with
  | pump hp _ =>
    -- a round starts with nothing left over from the last, so its items follow the queue
    have empty := hset (by simp [hp])
    refine ⟨p.round x, .single (.move (m := .round x) (by simp [Move.byPump]) (.round p x)), ?_⟩
    exact
      { bridge := by rw [round_side_self, pumped, ← h.bridge, ← h.world, ← h.clock]; rfl
        world := by rw [round_net, pumped, ← h.bridge, ← h.world, ← h.clock]; rfl
        volume := by rw [Pair.round_volume]; exact h.volume
        clock := by rw [round_clock]; exact h.clock
        requests := by rw [round_side_self]; exact h.requests
        queue := by
          rw [round_side_self, pumped, ← h.queue, empty, List.append_nil, ← h.bridge, ← h.world,
            ← h.clock]
          rfl }
  | send item rest _ hb _ =>
    exact ⟨p, .refl, ⟨h.bridge, h.world, h.volume, h.clock, h.requests, by
      rw [← h.queue, hb]; simp⟩⟩
  | stall => exact h.stall
  | abandon _ _ _ hr => exact absurd (hr.symm.trans live) Bool.false_ne_true
  | delivered => exact ⟨p, .refl, ⟨h.bridge, h.world, h.volume, h.clock, h.requests, h.queue⟩⟩
  | take r rest hp hq =>
    have empty := hset (by simp [hp])
    have hserve : (p.side x).requests = r :: rest := h.requests ▸ hq
    refine ⟨p.serve x r rest,
      .single (.move (m := .serve x) (by simp [Move.byPump]) (.serve p x r rest hserve)), ?_⟩
    exact
      { bridge := by rw [serve_side_self, served, ← h.bridge, ← h.world, ← h.volume, ← h.clock]; rfl
        world := by rw [serve_net, served, ← h.bridge, ← h.world, ← h.volume, ← h.clock]; rfl
        volume := by rw [serve_volume, served, ← h.bridge, ← h.world, ← h.volume, ← h.clock]; rfl
        clock := by rw [serve_clock]; exact h.clock
        requests := by rw [serve_side_self]; rfl
        queue := by
          rw [serve_side_self, served, ← h.queue, empty, List.append_nil, ← h.bridge, ← h.world,
            ← h.volume, ← h.clock]
          rfl }
  | deadline => exact ⟨p, .refl, ⟨h.bridge, h.world, h.volume, h.clock, h.requests, h.queue⟩⟩
  | ask r => exact ⟨p.ask x [r], .single (.ask p [r]), h.ask [r]⟩
  | dispatch item rest accepted hq _ =>
    -- the pair's dispatcher takes the same item; a follow-up the bridge asks for is queued after
    have hqueue : (p.side x).queue = item :: (rest ++ t.backlog) := by rw [← h.queue, hq]; rfl
    obtain ⟨jobs, hside⟩ := dispatch_side_self p x item (rest ++ t.backlog)
    have h₁ : ({ t with queue := rest } : PumpThread Network).Shows
        (p.dispatch x item (rest ++ t.backlog)) x :=
      { bridge := by rw [hside]; exact h.bridge
        world := by rw [dispatch_net]; exact h.world
        volume := by rw [Pair.dispatch_volume]; exact h.volume
        clock := by rw [dispatch_clock]; exact h.clock
        requests := by rw [hside]; exact h.requests
        queue := by rw [hside] }
    exact ⟨_, (Relation.ReflTransGen.single (.move (m := .dispatch x) (by simp [Move.byPump])
      (.dispatch p x item _ hqueue))).tail (.ask _ _), h₁.ask (t.bridge.followUp accepted item)⟩
  | tick now later =>
    exact ⟨{ p with clock := now }, .single (.move (m := .tick) rfl (.tick p now (h.clock ▸ later))),
      ⟨h.bridge, h.world, h.volume, rfl, h.requests, h.queue⟩⟩
  | stop => simp [Bridge.shutdown] at live
  | register k n b ok =>
    exact ⟨p.rebridge x b, .single (.handler p k n b (.inl (h.bridge ▸ ok))), h.rebridge b⟩
  | unregister k n b ok =>
    exact ⟨p.rebridge x b, .single (.handler p k n b (.inr (h.bridge ▸ ok))), h.rebridge b⟩

/-! ## Every run of the pump thread is a run of the node -/

/-- Every run of the pump thread that leaves the bridge running, from a thread that shows the node
and has its accounts, is a run of the node's moves in the pair to a node the thread shows. -/
theorem PumpRun.refines {p₀ : Pair} {seen : List PumpEvent} {t₀ : PumpThread Network}
    (run : PumpRun (wire (p₀.side x).key) cap t₀ seen t) (h₀ : t₀.Shows p₀ x)
    (hd₀ : t₀.Delivers cap []) (live : t.bridge.running = true) : ∃ p, NodeRun x p₀ p ∧ t.Shows p x := by
  induction run with
  | refl => exact ⟨p₀, .refl, h₀⟩
  | step run' step ih =>
    -- the bridge ran before the last move too, and the node keeps its key along the way
    obtain ⟨p₁, r₁, h₁⟩ := ih (step.running_of live)
    rw [← NodeRun.key x r₁] at step
    obtain ⟨p₂, r₂, h₂⟩ := step.refines h₁ (run'.delivers hd₀).settled live
    exact ⟨p₂, r₁.trans r₂, h₂⟩

/-- The bounded pump thread of a node runs as the node does in the pair, where a round puts all
its items at once in a receive queue without bound. Along every run from the spawn of a bridge
that keeps running there is a run of the node's moves in the pair, with the requests and handlers
the node's other threads bring, after which the pair's receive queue of the node is the bounded
receive queue followed by the items still to deliver: in order, every item the rounds and the
requests made that the dispatcher has not taken. -/
theorem bounded_pump_runs_as_the_pair {b : Bridge} {v : Files.Volume} {p₀ : Pair}
    {seen : List PumpEvent} (h₀ : (PumpThread.start b p₀.net v).Shows p₀ x)
    (run : PumpRun (wire (p₀.side x).key) cap (PumpThread.start b p₀.net v) seen t)
    (live : t.bridge.running = true) :
    ∃ p, NodeRun x p₀ p ∧ t.Shows p x ∧ takenItems seen ++ (p.side x).queue = madeItems seen := by
  obtain ⟨p, hrun, hs⟩ := run.refines h₀ (PumpThread.delivers_start b p₀.net v) live
  obtain ⟨hmade, -, hfifo, -⟩ := pump_delivers_in_order run live
  refine ⟨p, hrun, hs, ?_⟩
  rw [← hs.queue, ← List.append_assoc, hfifo, hmade]

end Courier
