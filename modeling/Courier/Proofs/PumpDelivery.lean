-- The pump thread hands on every item it makes, once and in order, under every interleaving of the
-- threads and with the receive queue full at times, as long as the bridge runs.
import Courier.Transport.Pump
import Courier.Network.Wire

namespace Courier

/-! ## The bridge keeps running -/

namespace Bridge

variable (w : Wire ω)

@[simp] theorem pumpOnce_running (b : Bridge) (x : ω) (now : Nat) :
    (b.pumpOnce w x now).1.running = b.running := by
  unfold pumpOnce
  split <;> rfl

@[simp] theorem chunk_running (b : Bridge) (x : ω) (now : Nat) (id : TransferId) (offset : Nat)
    (data : ByteArray) : (b.chunk w x now id offset data).1.running = b.running := by
  unfold chunk
  split <;> rfl

@[simp] theorem execute_running (b : Bridge) (x : ω) (v : Files.Volume) (now : Nat) (r : Request) :
    (b.execute w x v now r).1.running = b.running := by
  cases r <;> simp [execute]

@[simp] theorem executeAll_running (b : Bridge) (x : ω) (v : Files.Volume) (now : Nat)
    (rs : List Request) : (b.executeAll w x v now rs).1.running = b.running := by
  induction rs generalizing b x v with
  | nil => rfl
  | cons r rest ih => simp [executeAll, ih]

theorem setSlot_running (b : Bridge) (k : HandlerKind) (h : Option Nat) :
    (b.setSlot k h).running = b.running := by
  cases k <;> rfl

theorem register_running {b b' : Bridge} {k : HandlerKind} {h : Nat} (ok : b.register k h = .ok b') :
    b'.running = b.running := by
  unfold register at ok
  split at ok
  · cases ok
  · cases ok
    exact setSlot_running b k _

theorem unregister_running {b b' : Bridge} {k : HandlerKind} {h : Nat}
    (ok : b.unregister k h = .ok b') : b'.running = b.running := by
  unfold unregister at ok
  split at ok
  · cases ok
  · split at ok
    · cases ok
      exact setSlot_running b k _
    · cases ok

end Bridge

/-! ## What a run shows -/

@[simp] theorem madeItems_nil : madeItems [] = [] := rfl

@[simp] theorem madeItems_append (s t : List PumpEvent) :
    madeItems (s ++ t) = madeItems s ++ madeItems t := List.flatMap_append

@[simp] theorem sentItems_append (s t : List PumpEvent) :
    sentItems (s ++ t) = sentItems s ++ sentItems t := List.filterMap_append

@[simp] theorem takenItems_append (s t : List PumpEvent) :
    takenItems (s ++ t) = takenItems s ++ takenItems t := List.filterMap_append

@[simp] theorem madeItems_made (items : List Inbound) : madeItems [.made items] = items := by
  simp [madeItems, PumpEvent.madeItems]

@[simp] theorem sentItems_made (items : List Inbound) : sentItems [.made items] = [] := rfl

@[simp] theorem takenItems_made (items : List Inbound) : takenItems [.made items] = [] := rfl

@[simp] theorem madeItems_sent (item : Inbound) : madeItems [.sent item] = [] := rfl

@[simp] theorem sentItems_sent (item : Inbound) : sentItems [.sent item] = [item] := rfl

@[simp] theorem takenItems_sent (item : Inbound) : takenItems [.sent item] = [] := rfl

@[simp] theorem madeItems_taken (h : Option Nat) (item : Inbound) : madeItems [.taken h item] = [] := rfl

@[simp] theorem sentItems_taken (h : Option Nat) (item : Inbound) : sentItems [.taken h item] = [] := rfl

@[simp] theorem takenItems_taken (h : Option Nat) (item : Inbound) :
    takenItems [.taken h item] = [item] := rfl

/-! ## The moves of the pump thread -/

namespace PumpThread

section Moves

variable (w : Wire ω) (p : PumpThread ω)

@[simp] theorem pump_running : (p.pump w).1.bridge.running = p.bridge.running := by
  simp [pump]

@[simp] theorem pump_backlog : (p.pump w).1.backlog = (p.pump w).2 := rfl

@[simp] theorem pump_phase : (p.pump w).1.phase = .delivering := rfl

@[simp] theorem pump_queue : (p.pump w).1.queue = p.queue := rfl

@[simp] theorem stall_running : (p.stall w).1.bridge.running = p.bridge.running := by
  simp [stall]

@[simp] theorem stall_backlog : (p.stall w).1.backlog = p.backlog ++ (p.stall w).2 := rfl

@[simp] theorem stall_phase : (p.stall w).1.phase = p.phase := rfl

@[simp] theorem stall_queue : (p.stall w).1.queue = p.queue := rfl

variable (r : Request) (rest : List Request)

@[simp] theorem take_running : (p.take w r rest).1.bridge.running = p.bridge.running := by
  simp [take]

@[simp] theorem take_backlog : (p.take w r rest).1.backlog = (p.take w r rest).2 := rfl

@[simp] theorem take_phase : (p.take w r rest).1.phase = .delivering := rfl

@[simp] theorem take_queue : (p.take w r rest).1.queue = p.queue := rfl

end Moves

/-! ## The invariant of delivery -/

/-- The accounts of the pump thread after what a run showed. -/
structure Delivers (cap : Nat) (seen : List PumpEvent) (p : PumpThread ω) : Prop where
  /-- While the bridge runs, what went into the receive queue and then what is still to deliver
  is what was made. -/
  inOrder : p.bridge.running = true → sentItems seen ++ p.backlog = madeItems seen
  /-- Outside a delivery nothing is still to deliver. -/
  settled : p.phase ≠ .delivering → p.backlog = []
  /-- The dispatcher took the receive queue in the order it was filled. -/
  fifo : takenItems seen ++ p.queue = sentItems seen
  /-- The receive queue holds at most `cap` items. -/
  bounded : p.queue.length ≤ cap

variable {w : Wire ω} {cap : Nat} {seen : List PumpEvent} {p q : PumpThread ω}

theorem delivers_start (b : Bridge) (x : ω) (v : Files.Volume) : (start b x v).Delivers cap [] where
  inOrder _ := rfl
  settled _ := rfl
  fifo := rfl
  bounded := Nat.zero_le _

/-- A move that shows nothing and leaves the receive queue as it was keeps the accounts, when
what is still to deliver only changes once the bridge has stopped. -/
theorem Delivers.quiet (h : p.Delivers cap seen)
    (hrun : q.bridge.running = true → p.bridge.running = true ∧ q.backlog = p.backlog)
    (hset : q.phase ≠ .delivering → q.backlog = []) (hq : q.queue = p.queue) :
    q.Delivers cap (seen ++ []) where
  inOrder hr := by
    obtain ⟨hp, hb⟩ := hrun hr
    rw [List.append_nil, hb]
    exact h.inOrder hp
  settled := hset
  fifo := by rw [List.append_nil, hq]; exact h.fifo
  bounded := hq ▸ h.bounded

/-- A move that makes `out` and puts it behind what is still to deliver keeps the accounts. -/
theorem Delivers.made (h : p.Delivers cap seen) (out : List Inbound)
    (hr : q.bridge.running = p.bridge.running) (hb : q.backlog = p.backlog ++ out)
    (hp : q.phase = .delivering) (hq : q.queue = p.queue) :
    q.Delivers cap (seen ++ [.made out]) where
  inOrder run := by
    rw [hr] at run
    simp only [sentItems_append, sentItems_made, List.append_nil, madeItems_append, madeItems_made,
      hb, ← List.append_assoc, h.inOrder run]
  settled hd := absurd hp hd
  fifo := by simpa [hq] using h.fifo
  bounded := hq ▸ h.bounded

end PumpThread

open PumpThread

section Runs

variable {w : Wire ω} {cap : Nat} {seen : List PumpEvent} {p q : PumpThread ω}

/-- Each move of the pump thread or of a thread around it keeps the accounts. -/
theorem PumpStep.delivers {shown : List PumpEvent} (step : PumpStep w cap p shown q)
    (h : p.Delivers cap seen) : q.Delivers cap (seen ++ shown) := by
  cases step with
  | pump hp _ =>
    -- a round starts with nothing left over from the last
    have empty := h.settled (by simp [hp])
    exact h.made _ (pump_running w p) (by rw [pump_backlog, empty, List.nil_append])
      (pump_phase w p) (pump_queue w p)
  | send item rest hp hb room =>
    constructor
    · intro hr
      simpa [hb] using h.inOrder hr
    · intro hd
      exact absurd hp hd
    · simp [← h.fifo]
    · simp only [List.length_append, List.length_singleton]
      omega
  | stall hp _ _ _ =>
    exact h.made _ (stall_running w p) (stall_backlog w p) ((stall_phase w p).trans hp) (stall_queue w p)
  | abandon _ _ _ hr => exact h.quiet (by simp [hr]) (fun _ => rfl) rfl
  | delivered _ hb => exact h.quiet (fun hr => ⟨hr, rfl⟩) (fun _ => hb) rfl
  | take r rest hp _ =>
    have empty := h.settled (by simp [hp])
    exact h.made _ (take_running w p r rest) (by rw [take_backlog, empty, List.nil_append])
      (take_phase w p r rest) (take_queue w p r rest)
  | deadline hp =>
    exact h.quiet (fun hr => ⟨hr, rfl⟩) (fun _ => h.settled (by simp [hp])) rfl
  | ask r => exact h.quiet (fun hr => ⟨hr, rfl⟩) h.settled rfl
  | dispatch item rest _ hq _ =>
    constructor
    · simpa using h.inOrder
    · exact h.settled
    · simpa [hq] using h.fifo
    · have := h.bounded
      simp only [hq, List.length_cons] at this
      show rest.length ≤ cap
      omega
  | tick now _ => exact h.quiet (fun hr => ⟨hr, rfl⟩) h.settled rfl
  | stop => exact h.quiet (by simp [Bridge.shutdown]) h.settled rfl
  | register k hd b ok =>
    exact h.quiet (fun hr => ⟨(Bridge.register_running ok) ▸ hr, rfl⟩) h.settled rfl
  | unregister k hd b ok =>
    exact h.quiet (fun hr => ⟨(Bridge.unregister_running ok) ▸ hr, rfl⟩) h.settled rfl

/-- The accounts hold after every run from a state where they hold. -/
theorem PumpRun.delivers {p₀ : PumpThread ω} (run : PumpRun w cap p₀ seen p)
    (h : p₀.Delivers cap []) : p.Delivers cap seen := by
  induction run with
  | refl => exact h
  | step _ step ih => exact step.delivers ih

end Runs

/-- Every item the rounds and the requests make reaches the receive queue once and in the order it
was made, and the dispatcher takes them in that order. After any run of a running bridge from its
spawn: the items put in the receive queue, followed by those still to deliver, are the items made;
outside a delivery they are all of them; the items the dispatcher took, followed by the receive
queue, are the items put in it; and the receive queue never holds more than its capacity. -/
theorem pump_delivers_in_order {w : Wire ω} {cap : Nat} {b : Bridge} {x : ω} {v : Files.Volume}
    {seen : List PumpEvent} {p : PumpThread ω} (run : PumpRun w cap (start b x v) seen p)
    (live : p.bridge.running = true) :
    sentItems seen ++ p.backlog = madeItems seen ∧
      (p.phase ≠ .delivering → sentItems seen = madeItems seen) ∧
      takenItems seen ++ p.queue = sentItems seen ∧ p.queue.length ≤ cap := by
  have h := run.delivers (delivers_start b x v)
  refine ⟨h.inOrder live, fun hd => ?_, h.fifo, h.bounded⟩
  rw [← h.inOrder live, h.settled hd, List.append_nil]

/-- A node of the in-memory network with a message waiting: its first round puts the message in
a receive queue of one place, and the accounts are as the theorem says. -/
theorem pump_delivers_a_waiting_message :
    let s : PumpThread Network :=
      start { address := ⟨default, 0, 0⟩, windows := { config := {} } }
        { nodes := [(default, { name := "a", nospam := 0, friends := [],
                                inbox := [.friendMessage 0 "hi"] })] } {}
    ∃ (seen : List PumpEvent) (p : PumpThread Network),
      PumpRun (Network.wire default) 1 s seen p ∧
      p.bridge.running = true ∧ sentItems seen = [.event (.friendMessage 0 "hi")] ∧
      (sentItems seen ++ p.backlog = madeItems seen ∧
        (p.phase ≠ .delivering → sentItems seen = madeItems seen) ∧
        takenItems seen ++ p.queue = sentItems seen ∧ p.queue.length ≤ 1) := by
  intro s
  -- a round, then its one item into the empty queue
  have round : PumpStep (Network.wire default) 1 s _ _ := PumpStep.pump s rfl rfl
  have send : PumpStep (Network.wire default) 1 (s.pump (Network.wire default)).1 _ _ :=
    PumpStep.send _ (.event (.friendMessage 0 "hi")) [] rfl rfl (by decide)
  have run := ((PumpRun.refl s).step round).step send
  exact ⟨_, _, run, rfl, rfl, pump_delivers_in_order run rfl⟩

end Courier
