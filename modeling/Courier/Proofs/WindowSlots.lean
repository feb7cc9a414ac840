-- Window slots owed back: a window's count in flight stays within the pulls the node still owes, as
-- long as the worker drops no pull; a dropped pull keeps its slot for good.
import Mathlib
import Courier.Proofs.ShipmentSteps
import Courier.Proofs.WindowAnswers

namespace Courier.WindowTable

variable {t : WindowTable} {id : TransferId}

theorem inFlightOf_sweep_le (h : t.Ordered) (now : Nat) :
    (t.sweep now).1.inFlightOf id ≤ t.inFlightOf id + (requestsFor id (t.sweep now).2).length := by
  cases hd : t.drops id (.sweep now) with
  | false =>
    have := inFlightOf_sweep h hd
    omega
  | true =>
    have := (inFlightOf_drop h hd).1
    simp only [WindowTable.call] at this
    omega

theorem length_requestsFor_map (id i : TransferId) (rs : List ChunkRequest) :
    (requestsFor id (rs.map (i, ·))).length = if i = id then rs.length else 0 := by
  by_cases h : i = id
  · subst h
    simp [requestsFor_self]
  · simp [requestsFor_map_ne rs h, h]

end Courier.WindowTable

namespace Courier.Transfer

open Network Files

/-! ## Runs among other nodes and programs -/

/-- A move of the pair's threads, or of the world around the pair. -/
inductive Stir where
  /-- A move of the pair's own threads. -/
  | pair (m : Move)
  /-- An operation on the network made outside the pair's threads, as another node makes them. -/
  | other (op : Network.Op)
  /-- Another program changes the files. -/
  | write

/-- One move of the pair, of the network outside the pair's threads, or of the volume. -/
inductive OpenStep : Pair → Stir → Pair → Prop where
  | pair {p p' : Pair} {m : Move} (h : PairStep p m p') : OpenStep p (.pair m) p'
  | other (p : Pair) (op : Network.Op) : OpenStep p (.other op) { p with net := p.net.apply op }
  | write (p : Pair) (v : Volume) : OpenStep p .write { p with volume := v }

/-- Open moves one after another, each of them one that `ok` allows. -/
inductive OpenRun (ok : Pair → Stir → Pair → Prop) : Pair → Pair → Prop where
  | refl (p : Pair) : OpenRun ok p p
  | step {p q r : Pair} {m : Stir} : OpenRun ok p q → OpenStep q m r → ok q m r → OpenRun ok p r

theorem OpenRun.mono {ok ok' : Pair → Stir → Pair → Prop} (hok : ∀ p m q, ok p m q → ok' p m q)
    {p q : Pair} (h : OpenRun ok p q) : OpenRun ok' p q := by
  induction h with
  | refl => exact .refl _
  | step _ hs ha ih => exact .step ih hs (hok _ _ _ ha)

/-! ## What a node owes back -/

/-- How many of the events are pulls. -/
def pullCount (evs : List FileEvent) : Nat := (evs.filterMap FileEvent.request?).length

@[simp] theorem pullCount_nil : pullCount [] = 0 := rfl

@[simp] theorem pullCount_append (a b : List FileEvent) : pullCount (a ++ b) = pullCount a + pullCount b := by
  simp [pullCount]

/-- The events an engine holds for a transfer, in every group of held events. -/
def Engine.heldEventsOf (e : Engine) (id : TransferId) : List FileEvent :=
  (e.held.flatMap Held.events).filter (·.id == id)

namespace Side

/-- The window slots of a transfer that a node owes back: one for each pull of the transfer that
the window let through and that is not done yet (held by the engine, among the worker's jobs, or
in the receive queue), and one for each chunk of the transfer waiting for the pump thread. -/
def owed (s : Side) (id : TransferId) : Nat :=
  pullCount (s.engine.heldEventsOf id) + pullCount (s.jobs.filterMap (Work.eventFor? id)) +
    pullCount (eventsFor id s.queue) + (s.chunksFor id).length

/-- A node serves with its windows in order, and the window of a transfer has in flight no more
than the node owes back. -/
structure Owes (s : Side) (id : TransferId) : Prop where
  serves : s.Serves
  within : s.bridge.windows.inFlightOf id ≤ s.owed id

end Side

/-- A job of a node's worker answers every pull of a transfer it takes: the pulls of the transfer
held before the job, with the job itself if it is one, are no more than those held after it and
the chunks of the transfer it calls. -/
def Pair.Answers (p : Pair) (x : Party) (id : TransferId) (job : Work) : Prop :=
  pullCount ((p.side x).engine.heldEventsOf id ++ (job.eventFor? id).toList) ≤
    pullCount ((p.turn x job).engine.heldEventsOf id) +
      ((p.turn x job).desk.calls.toList.filterMap (Call.chunkOf? id)).length

/-- A job that is no pull of the transfer, taken by a worker that holds none of it, answers
every pull it takes. -/
theorem Pair.answers_of_no_pull {p : Pair} {x : Party} {id : TransferId} {job : Work}
    (h : pullCount ((p.side x).engine.heldEventsOf id ++ (job.eventFor? id).toList) = 0) :
    p.Answers x id job := by
  unfold Pair.Answers
  omega

/-- The moves in which the sender's worker answers every pull of the transfer it takes. -/
def Answering (id : TransferId) (p : Pair) (m : Stir) (_ : Pair) : Prop :=
  ∀ job, m = .pair (.work .sender job) → p.Answers .sender id job

/-! ## The window of a transfer through a round and a chunk -/

/-- How many pulls of a transfer are among inbound items. -/
def pullsIn (id : TransferId) (items : List Inbound) : Nat := pullCount (eventsFor id items)

@[simp] theorem pullsIn_append (id : TransferId) (a b : List Inbound) :
    pullsIn id (a ++ b) = pullsIn id a + pullsIn id b := by
  simp [pullsIn]

theorem pullsIn_requests (id id' : TransferId) (rs : List ChunkRequest) :
    pullsIn id (rs.map fun r => Inbound.event (.chunkRequested id' r)) = if id' = id then rs.length else 0 := by
  unfold pullsIn
  rw [eventsFor_requests]
  split <;> simp [pullCount, List.filterMap_map, FileEvent.request?]

@[simp] theorem pullsIn_fileError (id id' : TransferId) (e : TransportError) :
    pullsIn id [.fileError id' e] = 0 := by
  unfold pullsIn eventsFor
  cases h : eventFor? id (.fileError id' e) with
  | none => simp [h]
  | some ev =>
    -- the event is the failure itself, which asks for nothing
    have hev : ev = .failed id' e := by
      simp only [eventFor?, Daemon.fileEvent?, Option.filter] at h
      split at h <;> simp_all
    simp [h, hev, pullCount, FileEvent.request?]

theorem pullsIn_swept (id : TransferId) (out : List (TransferId × ChunkRequest)) :
    pullsIn id (out.map fun (i, r) => Inbound.event (.chunkRequested i r)) =
      (WindowTable.requestsFor id out).length := by
  unfold pullsIn
  rw [eventsFor_swept]
  simp [pullCount, List.filterMap_map, FileEvent.request?]

/-- The events of a round passing the windows: the count in flight of a transfer grows by the
pulls of it handed on. -/
theorem foldl_passEvent_inFlightOf (now : Nat) (id : TransferId) :
    ∀ (evs : List Event) (t : WindowTable) (acc : List Inbound), t.Ordered →
      (evs.foldl (passEvent now) (t, acc)).1.Ordered ∧
      (evs.foldl (passEvent now) (t, acc)).1.inFlightOf id + pullsIn id acc =
        t.inFlightOf id + pullsIn id (evs.foldl (passEvent now) (t, acc)).2
  | [], _, _, ho => ⟨ho, rfl⟩
  | e :: evs, t, acc, ho => by
    rw [List.foldl_cons]
    by_cases hq : ∃ id' r, e = .chunkRequested id' r
    · obtain ⟨id', r, rfl⟩ := hq
      rw [passEvent_request]
      obtain ⟨ho', heq⟩ := foldl_passEvent_inFlightOf now id evs _ _ (ho.enqueue id' r now)
      refine ⟨ho', ?_⟩
      -- the request goes into its window, which hands on what fits
      have hcall : (t.enqueue id' r now).1.inFlightOf id =
          t.inFlightOf id + (WindowTable.requestsFor id ((t.enqueue id' r now).2.map (id', ·))).length := by
        simpa [WindowTable.call, WindowTable.Call.answers] using
          WindowTable.inFlightOf_call ho (.queue id' r now) (rfl : t.drops id _ = false)
      rw [pullsIn_append, pullsIn_requests] at heq
      rw [WindowTable.length_requestsFor_map] at hcall
      split_ifs at hcall heq <;> omega
    · have hd : ∀ id' r, e ≠ .chunkRequested id' r := fun id' r he => hq ⟨id', r, he⟩
      rw [passEvent_direct now t acc hd]
      obtain ⟨ho', heq⟩ := foldl_passEvent_inFlightOf now id evs t _ ho
      refine ⟨ho', ?_⟩
      -- an event that is not a chunk request passes by the windows, and is no pull
      have hnone : pullsIn id [Inbound.event e] = 0 := by
        cases e with
        | chunkRequested id' r => exact absurd rfl (hd id' r)
        | _ => simp [pullsIn, pullCount, eventsFor, eventFor?, Daemon.fileEvent?, Option.filter,
            FileEvent.request?]
      rw [pullsIn_append, hnone] at heq
      omega

section Bridge

/-- A round of a running bridge keeps its windows in order, and counts in flight of a transfer at
most what it counted and the pulls of it handed on. -/
theorem pumpOnce_inFlightOf (b : Bridge) (w : Wire ω) (x : ω) (now : Nat) (hb : b.running = true) (ho : b.windows.Ordered) (id : TransferId) :
    (b.pumpOnce w x now).1.windows.Ordered ∧
      (b.pumpOnce w x now).1.windows.inFlightOf id ≤ b.windows.inFlightOf id + pullsIn id (b.pumpOnce w x now).2.2 := by
  rw [pumpOnce_eq b w x now hb]
  obtain ⟨ho', heq⟩ := foldl_passEvent_inFlightOf now id (w.pump x).2 b.windows [] ho
  refine ⟨ho'.sweep now, ?_⟩
  have hs : _ ≤ _ + (WindowTable.requestsFor id _).length := WindowTable.inFlightOf_sweep_le ho' now
  simp only [pullsIn_append, pullsIn_swept]
  simp only [pullsIn, eventsFor_nil, pullCount_nil, Nat.add_zero] at heq
  unfold pullsIn
  omega

/-- A chunk run by a running bridge keeps its windows in order, frees a slot of its transfer's
window, and counts in flight what that window hands on. -/
theorem chunk_inFlightOf (b : Bridge) (w : Wire ω) (x : ω) (now : Nat) (hb : b.running = true) (ho : b.windows.Ordered) (id' : TransferId) (o : Nat)
    (d : ByteArray) (id : TransferId) :
    (b.chunk w x now id' o d).1.windows.Ordered ∧
      (b.chunk w x now id' o d).1.windows.inFlightOf id ≤
        b.windows.inFlightOf id - (if id' = id then 1 else 0) + pullsIn id (b.chunk w x now id' o d).2.2 := by
  simp only [Bridge.chunk, hb, Bool.not_true, Bool.false_eq_true, ↓reduceIte]
  refine ⟨ho.release _ _, ?_⟩
  have hcall : (b.windows.release id' now).1.inFlightOf id =
      b.windows.inFlightOf id - (if (id' == id) = true then 1 else 0) +
        (WindowTable.requestsFor id ((b.windows.release id' now).2.map (id', ·))).length :=
    WindowTable.inFlightOf_call ho (.release id' now) rfl
  rw [pullsIn_append, pullsIn_requests]
  -- a failed send comes back as a file error, which is no pull
  have hfail : ∀ items : List Inbound, (items = [] ∨ ∃ e, items = [.fileError id' e]) → pullsIn id items = 0 := by
    rintro items (rfl | ⟨e, rfl⟩)
    · rfl
    · exact pullsIn_fileError id id' e
  rw [hfail _ (by split <;> simp)]
  rw [WindowTable.length_requestsFor_map] at hcall
  simp only [beq_iff_eq] at hcall
  split_ifs at hcall ⊢ <;> omega

/-- A request run by a running bridge keeps it running with its handlers and its windows in order;
the count in flight of a transfer loses one for a chunk of the transfer, none below zero, and gains
the pulls handed on. -/
theorem execute_inFlightOf (b : Bridge) (w : Wire ω) (x : ω) (v : Volume) (now : Nat)
    (hb : b.running = true) (ho : b.windows.Ordered)
    (r : Request) (id : TransferId) :
    (b.execute w x v now r).1.running = true ∧ (b.execute w x v now r).1.fileSlot = b.fileSlot ∧
    (b.execute w x v now r).1.windows.Ordered ∧
      (b.execute w x v now r).1.windows.inFlightOf id ≤
        b.windows.inFlightOf id - (r.chunkOf? id).toList.length + pullsIn id (b.execute w x v now r).2.2.2 := by
  cases r with
  | chunk id' o d =>
    obtain ⟨ho', hle⟩ := chunk_inFlightOf b w x now hb ho id' o d id
    refine ⟨by simp [Bridge.execute, hb], by simp [Bridge.execute], ho', ?_⟩
    by_cases hid : id' = id <;> simp_all [Bridge.execute, Request.chunkOf?]
  | control id' k =>
    -- a control leaves the windows alone; a failed one comes back as a file error
    refine ⟨hb, rfl, ho, ?_⟩
    simp only [Bridge.execute, Request.chunkOf?, Option.toList_none, List.length_nil, Nat.sub_zero]
    unfold Bridge.control
    split
    · simp
    · split <;> simp
  | _ => exact ⟨hb, rfl, ho, by simp [Bridge.execute, Request.chunkOf?, pullsIn]⟩

end Bridge

namespace Side

variable {s s' : Side} {id : TransferId}

theorem Owes.of_owed (h : s.Owes id) (hb : s'.bridge = s.bridge) (hle : s.owed id ≤ s'.owed id) :
    s'.Owes id :=
  ⟨h.serves.of_bridge hb, hb ▸ h.within.trans hle⟩

theorem undone_dispatched {item : Inbound} {rest : List Inbound} (hslot : s.bridge.fileSlot.isSome = true)
    (hq : s.queue = item :: rest) (id : TransferId) :
    (s.dispatched item rest).jobs.filterMap (Work.eventFor? id) ++ eventsFor id (s.dispatched item rest).queue =
      s.jobs.filterMap (Work.eventFor? id) ++ eventsFor id s.queue := by
  -- the stream of the transfer is the same, and its held part and its part still to come are
  have hst := stream_dispatched hslot hq {} id
  unfold stream queued at hst
  simp only [List.append_assoc] at hst
  have h := List.append_cancel_left hst
  simp only [← List.append_assoc] at h
  exact List.append_cancel_right (List.append_cancel_right h)

theorem owed_dispatched {item : Inbound} {rest : List Inbound} (hslot : s.bridge.fileSlot.isSome = true)
    (hq : s.queue = item :: rest) (id : TransferId) : (s.dispatched item rest).owed id = s.owed id := by
  have h := congrArg pullCount (undone_dispatched hslot hq id)
  simp only [pullCount_append] at h
  simp only [owed, dispatched, chunksFor] at h ⊢
  omega

end Side

namespace Pair

variable {p : Pair} {id : TransferId}

/-- A round of the sender: its window lets through what it counts in flight, and the pulls go into
the receive queue. -/
theorem Owes.round (h : p.sender.Owes id) : (p.round .sender).sender.Owes id := by
  obtain ⟨⟨hrun, hslot, hord⟩, hwin⟩ := h
  obtain ⟨ho', hle⟩ := pumpOnce_inFlightOf _ (Network.wire p.sender.key) p.net p.clock hrun hord id
  rw [round_sender]
  refine ⟨⟨by simp [pumped, hrun], by simp [pumped, hslot], ho'⟩, ?_⟩
  simp only [Side.owed, Side.chunksFor, eventsFor_append, pullCount_append] at hwin ⊢
  unfold pullsIn at hle
  simp only [pumped, side_sender]
  omega

/-- The sender's pump thread runs its oldest request: a chunk of the transfer is no longer owed and
frees a slot, and what the window then lets through goes into the receive queue. -/
theorem Owes.serve (h : p.sender.Owes id) {r : Request} {rest : List Request}
    (hq : p.sender.requests = r :: rest) : (p.serve .sender r rest).sender.Owes id := by
  obtain ⟨⟨hrun, hslot, hord⟩, hwin⟩ := h
  obtain ⟨hrun', hslot', hord', hle⟩ :=
    execute_inFlightOf _ (Network.wire p.sender.key) p.net p.volume p.clock hrun hord r id
  have hserve : (p.serve .sender r rest).sender =
      { p.sender with
        bridge := (p.sender.bridge.execute (Network.wire p.sender.key) p.net p.volume p.clock r).1
        requests := rest
        queue := p.sender.queue ++ (p.sender.bridge.execute (Network.wire p.sender.key) p.net p.volume p.clock r).2.2.2 } :=
    rfl
  rw [hserve]
  refine ⟨⟨hrun', hslot' ▸ hslot, hord'⟩, ?_⟩
  -- the request leaves the chunks still to send
  have hchunks : (p.sender.chunksFor id).length = (r.chunkOf? id).toList.length + (rest.filterMap (Request.chunkOf? id)).length := by
    simp only [Side.chunksFor, hq, List.filterMap_cons]
    cases r.chunkOf? id <;> simp [Nat.add_comm]
  simp only [Side.owed, Side.chunksFor, eventsFor_append, pullCount_append] at hwin ⊢
  rw [Side.chunksFor] at hchunks
  unfold pullsIn at hle
  omega

/-- The sender's dispatcher hands the oldest item of the receive queue to the worker. -/
theorem Owes.dispatch (h : p.sender.Owes id) {item : Inbound} {rest : List Inbound}
    (hq : p.sender.queue = item :: rest) : (p.dispatch .sender item rest).sender.Owes id := by
  rw [dispatch_eq]
  exact h.of_owed rfl (Side.owed_dispatched h.serves.slot hq id).ge

/-- The sender's worker does a job that answers every pull of the transfer it takes. -/
theorem Owes.work (h : p.sender.Owes id) {job : Work} {rest : List Work} (hj : p.sender.jobs = job :: rest)
    (ha : p.Answers .sender id job) : (p.work .sender job rest).sender.Owes id := by
  have hwork : (p.work .sender job rest).sender =
      { p.sender with
        engine := (p.turn .sender job).engine
        jobs := rest
        requests := p.sender.requests ++ (p.turn .sender job).desk.calls.toList.map Call.request } :=
    rfl
  rw [hwork]
  refine h.of_owed rfl ?_
  -- the job's own pull, if it is one, and the pulls held before are held after it or sent
  have hjobs : p.sender.jobs.filterMap (Work.eventFor? id) =
      (job.eventFor? id).toList ++ rest.filterMap (Work.eventFor? id) := by
    rw [hj, List.filterMap_cons]
    cases job.eventFor? id <;> rfl
  have hcalls : ({ p.sender with
        engine := (p.turn .sender job).engine
        jobs := rest
        requests := p.sender.requests ++ (p.turn .sender job).desk.calls.toList.map Call.request } : Side).chunksFor id =
      p.sender.chunksFor id ++ (p.turn .sender job).desk.calls.toList.filterMap (Call.chunkOf? id) :=
    Side.chunksFor_of_calls rfl
  unfold Answers at ha
  simp only [pullCount_append, side_sender] at ha
  simp only [Side.owed, hcalls, hjobs, pullCount_append, List.length_append]
  omega

/-- An answered offer settled at the sender queues at most a job that opens a transfer, which is
no pull. -/
theorem Owes.settle (h : p.sender.Owes id) (before after : List Offer) (o : Offer) :
    (p.settle before after o).sender.Owes id := by
  refine h.of_owed rfl (le_of_eq ?_)
  simp only [Pair.settle, Side.owed, Side.chunksFor]
  split <;> simp [Work.eventFor?, List.filterMap_cons]

/-- Every open move keeps the sender owing back what its window has in flight, as long as the
sender's worker answers every pull of the transfer it takes. Moves of the receiver, of other nodes
and of other programs leave the sender's threads alone. -/
theorem Owes.step (h : p.sender.Owes id) {m : Stir} {p' : Pair} (hs : OpenStep p m p')
    (ha : Answering id p m p') : p'.sender.Owes id := by
  cases hs with
  | pair hp =>
    cases hp with
    | round x =>
      cases x with
      | sender => exact Owes.round h
      | receiver => exact h
    | serve x r rest hq =>
      cases x with
      | sender => exact Owes.serve h hq
      | receiver => exact h
    | dispatch x item rest hq =>
      cases x with
      | sender => exact Owes.dispatch h hq
      | receiver => exact h
    | work x job rest hj =>
      cases x with
      | sender => exact Owes.work h hj (ha job rfl)
      | receiver => exact h
    -- a send request or an offer touches only the sender's list of offers
    | send => exact h.of_owed rfl le_rfl
    | offer => exact h.of_owed rfl le_rfl
    | settle before after o => exact Owes.settle h before after o
    | tick => exact h
  | other => exact h
  | write => exact h

/-- Along an open run in which the sender's worker answers every pull of the transfer it takes,
the sender keeps owing back what the transfer's window has in flight. -/
theorem Owes.run (h : p.sender.Owes id) {q : Pair} (hr : OpenRun (Answering id) p q) : q.sender.Owes id := by
  induction hr with
  | refl => exact h
  | step _ hs ha ih => exact Owes.step ih hs ha

end Pair

/-- No window slot is lost while the worker drops no pull. Start from a sending node whose bridge
runs with its engine in the file slot and whose window of a transfer has in flight no more than
the node owes back (a node that has let nothing through owes nothing and has nothing in flight).
Let its threads, the receiving node's, other nodes on the network (any controls, pauses and
resumes among them) and other programs on the files move in any order, as long as each job of the
sender's worker answers every pull of the transfer it takes, with a chunk or by holding it. Then
the window has in flight at most the pulls of the transfer it let through and the worker has not
done (in the receive queue, among the jobs, held), and the chunks of it waiting for the pump
thread. -/
theorem slots_in_flight_are_owed {p q : Pair} {id : TransferId} (h : p.sender.Owes id)
    (hrun : OpenRun (Answering id) p q) :
    q.sender.bridge.windows.inFlightOf id ≤ q.sender.owed id :=
  (Pair.Owes.run h hrun).within

/-- A pair is itself with its volume, and its sender's engine and requests, written out. The
states of a concrete run are put in this form, so that what follows evaluates them from the
written-out parts. -/
theorem Pair.eq_written {p : Pair} {e : Engine} {rs : List Request} {v : Volume}
    (he : p.sender.engine = e) (hr : p.sender.requests = rs) (hv : p.volume = v) :
    p = { p with volume := v, sender := { p.sender with engine := e, requests := rs } } := by
  subst he hr hv
  rfl

/-! ## A file received over the one it sends

The sender offers its one-byte file `/f` to its peer and opens it. When the peer resumes the
transfer, the window lets the pull of the byte through, the worker reads it and the pump thread
sends it, giving the slot back. If the peer first offers a file named `f` of its own, the sender
saves it in its receive directory, the root, over `/f`: the pull of the byte then reads nothing
and is dropped, and the live transfer keeps a slot in flight that nothing owes back. -/

namespace OneByteFile

/-- The sending node's key. -/
def senderKey : PublicKey := .replicate 1

/-- The peer's key. -/
def peerKey : PublicKey := .replicate 2

/-- The sender's transfer of `/f`. -/
def outgoing : TransferId := ⟨0, 0⟩

/-- The peer's transfer to the sender. -/
def incoming : TransferId := ⟨0, 1⟩

/-- A bridge that runs with the engine in the file slot. -/
def freshBridge : Bridge := { address := ⟨senderKey, 0, 0⟩, windows := { config := {} }, fileSlot := some 0 }

/-- An engine rooted at `/` that receives into `/`. -/
def freshEngine : Engine := { root := "/", receiveDir := "/" }

/-- The offer of `/f`, one byte long, to the first friend. -/
def fileOffer : Offer := { peer := 0, file := ⟨"/f", 1⟩ }

/-- Two friends; the sender is about to offer `/f`, which holds the byte `a`. -/
def start : Pair :=
  { net := { nodes := [(senderKey, { name := "s", nospam := 0, friends := [peerKey] }),
                       (peerKey, { name := "r", nospam := 0, friends := [senderKey] })] }
    volume := { entries := [(["f"], .file 0)], blobs := #[⟨#[97]⟩] }
    sender := { key := senderKey, bridge := freshBridge, engine := freshEngine, offers := [fileOffer] }
    receiver := { key := peerKey, bridge := freshBridge, engine := freshEngine } }

theorem start_owes : start.sender.Owes outgoing where
  serves := ⟨rfl, rfl, List.Pairwise.nil⟩
  within := by decide +kernel

/-- The offer of `/f`, answered with the transfer's id. -/
def answered : Offer := { fileOffer with answer := some (.ok outgoing) }

/-- The sender's engine with `/f` open as a paused outgoing transfer. -/
def openEngine : Engine :=
  { freshEngine with transfers := [(outgoing, .outbound 0 1 "/f")] }

/-- The sender has offered `/f`, settled the answer and opened the file. -/
def afterCreate : Pair :=
  ((start.offer [] [] fileOffer).settle [] [] answered).work .sender (.create outgoing "/f" 1) []

/-- The same state, its engine, requests and volume written out. -/
def opened : Pair :=
  { afterCreate with
    volume := start.volume
    sender := { afterCreate.sender with engine := openEngine, requests := [] } }

set_option maxRecDepth 20000 in
theorem afterCreate_eq : afterCreate = opened := by
  have he : afterCreate.sender.engine = openEngine := by cbv
  have hr : afterCreate.sender.requests = [] := by cbv
  -- opening the file reads the volume only
  have hv : afterCreate.volume = start.volume := by
    show (freshEngine.register { volume := start.volume } outgoing "/f" 1).desk.volume = _
    exact Engine.register_volume (fun _ h => by simp [freshEngine] at h) _ _ _ _
  exact Pair.eq_written he hr hv

theorem opened_reach : OpenRun (Answering outgoing) start opened := by
  have h0 : OpenRun (Answering outgoing) start start := .refl start
  have h1 := h0.step (.pair (.offer start [] [] fileOffer rfl rfl)) (fun _ h => by cases h)
  have h2 := h1.step (.pair (.settle _ [] [] answered rfl rfl)) (fun _ h => by cases h)
  have h3 := h2.step (.pair (.work _ .sender (.create outgoing "/f" 1) [] rfl))
    (fun _ h => by cases h; exact Pair.answers_of_no_pull rfl)
  rw [← afterCreate_eq]
  exact h3

/-- The peer's resume, as the sender's receive queue gets it. -/
def resumeItem : Inbound := .event (.fileControl outgoing .resume)

/-- The pull of the byte, as the sender's receive queue gets it. -/
def pullItem : Inbound := .event (.chunkRequested outgoing ⟨0, 1⟩)

/-- The worker's job for the resume. -/
def resumeJob : Work := .event (.control outgoing .resume)

/-- The worker's job for the pull. -/
def pullJob : Work := .event (.pull outgoing ⟨0, 1⟩)

/-- The peer resumes the transfer; the sender's round lets the resume and the pull of the byte
through, its dispatcher hands both to the worker, and the worker resumes the transfer and takes
the pull. -/
def pulled (p : Pair) : Pair :=
  let p := { p with net := p.net.apply (.setControl peerKey outgoing .resume) }
  let p := p.round .sender
  let p := p.dispatch .sender resumeItem [pullItem]
  let p := p.dispatch .sender pullItem []
  let p := p.work .sender resumeJob [pullJob]
  p.work .sender pullJob []

/-- The worker has read the byte, and the pump thread has sent it. -/
def served : Pair := (pulled opened).serve .sender (.chunk outgoing 0 ⟨#[97]⟩) []

theorem served_reach : OpenRun (Answering outgoing) start served := by
  have h1 := opened_reach.step (.other _ (.setControl peerKey outgoing .resume)) (fun _ h => by cases h)
  have h2 := h1.step (.pair (.round _ .sender)) (fun _ h => by cases h)
  have h3 := h2.step (.pair (.dispatch _ .sender resumeItem [pullItem] rfl)) (fun _ h => by cases h)
  have h4 := h3.step (.pair (.dispatch _ .sender pullItem [] rfl)) (fun _ h => by cases h)
  have h5 := h4.step (.pair (.work _ .sender resumeJob [pullJob] rfl))
    (fun _ h => by cases h; exact Pair.answers_of_no_pull (by decide +kernel))
  -- the worker reads the byte and calls for its chunk, which answers the pull
  have h6 := h5.step (.pair (.work _ .sender pullJob [] rfl))
    (fun _ h => by cases h; unfold Pair.Answers; decide +kernel)
  exact h6.step (.pair (.serve _ .sender (.chunk outgoing 0 ⟨#[97]⟩) [] rfl)) (fun _ h => by cases h)

/-- The byte sent, the transfer's window has in flight no more than the sender owes back. -/
theorem served_byte_is_owed_back :
    served.sender.bridge.windows.inFlightOf outgoing ≤ served.sender.owed outgoing :=
  slots_in_flight_are_owed start_owes served_reach

/-- The peer offers a file named `f` of its own. -/
def reoffered : Pair := { opened with net := opened.net.apply (.offerFile peerKey 0 "f" 1) }

/-- The peer's offer, as the sender's receive queue gets it. -/
def offeredItem : Inbound := .event (.fileOffered incoming "f" 1)

/-- The worker's job for the peer's offer. -/
def receiveJob : Work := .event (.offered incoming "f" 1)

/-- The sender's round lets the peer's offer through, and its worker saves the file. -/
def afterReceive : Pair := ((reoffered.round .sender).dispatch .sender offeredItem []).work .sender receiveJob []

/-- The volume with `/f` emptied. -/
def emptied : Volume := { entries := [(["f"], .file 0)], blobs := #[ByteArray.empty] }

/-- The engine that also receives the peer's file into `/f`. -/
def receivingEngine : Engine :=
  { openEngine with
    transfers := [(outgoing, .outbound 0 1 "/f"), (incoming, .inbound 0 1 "/f")] }

/-- The same state as `afterReceive`, its engine, requests and volume written out: the peer's file
is saved over `/f`, and the sender asks the peer to go on. -/
def overwritten : Pair :=
  { afterReceive with
    volume := emptied
    sender := { afterReceive.sender with engine := receivingEngine, requests := [.control incoming .resume] } }

set_option maxRecDepth 20000 in
theorem afterReceive_eq : afterReceive = overwritten := by
  -- the name is usable, the peer's transfer is new, and `/f` is there to be emptied
  have hname : sanitizeName "f" = some "f" := by cbv
  have hdest : join openEngine.receiveDir "f" = "/f" := by cbv
  have hnew : (openEngine.find? incoming).isSome = false := by cbv
  have hcreate : start.volume.createFile "/f" = .ok (emptied, 0) := by cbv
  have hinsert : openEngine.insert incoming (.inbound 0 1 "/f") = receivingEngine := by
    simp [Engine.insert, openEngine, receivingEngine, freshEngine, TransferId.key, outgoing, incoming]
  have hturn : openEngine.work { volume := start.volume } receiveJob =
      receivingEngine.calling { volume := emptied } (.control incoming .resume) := by
    simp only [receiveJob, Engine.work, Engine.handle, Engine.offered, hname, hnew, hdest, hcreate,
      Bool.false_eq_true, if_false, hinsert]
  have he : afterReceive.sender.engine = receivingEngine := by
    show (openEngine.work { volume := start.volume } receiveJob).engine = _
    rw [hturn]
    rfl
  have hv : afterReceive.volume = emptied := by
    show (openEngine.work { volume := start.volume } receiveJob).desk.volume = _
    rw [hturn]
    rfl
  have hr : afterReceive.sender.requests = [.control incoming .resume] := by
    show [] ++ (openEngine.work { volume := start.volume } receiveJob).desk.calls.toList.map Call.request = _
    rw [hturn]
    rfl
  exact Pair.eq_written he hr hv

/-- The peer resumes the sender's transfer over the emptied file: the pull of the byte is taken
and dropped. -/
def stalled : Pair := pulled overwritten

theorem stalled_reach : OpenRun (fun _ _ _ => True) start stalled := by
  have h0 : OpenRun (fun _ _ _ => True) start opened := opened_reach.mono fun _ _ _ _ => trivial
  have h1 := h0.step (.other _ (.offerFile peerKey 0 "f" 1)) trivial
  have h2 := h1.step (.pair (.round _ .sender)) trivial
  have h3 := h2.step (.pair (.dispatch _ .sender offeredItem [] rfl)) trivial
  have h4 : OpenRun (fun _ _ _ => True) start afterReceive :=
    h3.step (.pair (.work _ .sender receiveJob [] rfl)) trivial
  rw [afterReceive_eq] at h4
  have h5 := h4.step (.other _ (.setControl peerKey outgoing .resume)) trivial
  have h6 := h5.step (.pair (.round _ .sender)) trivial
  have h7 := h6.step (.pair (.dispatch _ .sender resumeItem [pullItem] rfl)) trivial
  have h8 := h7.step (.pair (.dispatch _ .sender pullItem [] rfl)) trivial
  have h9 := h8.step (.pair (.work _ .sender resumeJob [pullJob] rfl)) trivial
  exact h9.step (.pair (.work _ .sender pullJob [] rfl)) trivial

/-- A pull dropped by a read that fails keeps its window slot. From a sender that owes back all
it has in flight, a run of the pair and its peer reaches a state where the transfer of `/f` is
live, outgoing and active, yet its window has a pull in flight that the sender owes nothing for:
the slot is never freed. -/
theorem failed_read_keeps_a_window_slot :
    start.sender.Owes outgoing ∧ OpenRun (fun _ _ _ => True) start stalled ∧
      (stalled.sender.engine.find? outgoing).map (fun t => (t.direction, t.activity)) =
        some (.outbound, .active) ∧
      stalled.sender.owed outgoing < stalled.sender.bridge.windows.inFlightOf outgoing :=
  ⟨start_owes, stalled_reach, by decide +kernel, by decide +kernel⟩

end OneByteFile

end Courier.Transfer
