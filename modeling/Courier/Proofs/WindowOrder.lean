-- The flow windows keep each transfer's chunk requests in order, through a window's calls and
-- through a round of the pump.
import Courier.Daemon.Station
import Courier.Proofs.TransferFrame

namespace Courier

/-! ## Windows in order of transfer -/

namespace WindowTable

/-- The windows are in increasing order of transfer, as `put` keeps them. -/
def Ordered (t : WindowTable) : Prop := t.windows.Pairwise fun a b => a.1.key < b.1.key

/-- The requests that wait in a transfer's window. -/
def pendingOf (t : WindowTable) (id : TransferId) : List ChunkRequest :=
  ((t.get? id).map (·.pending)).getD []

theorem get?_put (t : WindowTable) (id id' : TransferId) (w : FlowWindow) :
    (t.put id w).get? id' = if id' = id then some w else t.get? id' := by
  unfold get? put
  rw [Transfer.find?_putKeyed]
  split <;> rfl

@[simp] theorem config_put (t : WindowTable) (id : TransferId) (w : FlowWindow) :
    (t.put id w).config = t.config := rfl

theorem Ordered.put {t : WindowTable} (h : t.Ordered) (id : TransferId) (w : FlowWindow) :
    (t.put id w).Ordered := by
  unfold Ordered WindowTable.put
  have hsub : ∀ q : TransferId × FlowWindow → Bool,
      ((t.windows.filter (·.1 != id)).filter q).Pairwise fun a b => a.1.key < b.1.key :=
    fun q => h.sublist ((List.filter_sublist).trans List.filter_sublist)
  rw [List.pairwise_append, List.pairwise_append]
  refine ⟨⟨hsub _, by simp, ?_⟩, hsub _, ?_⟩
  · intro a ha b hb
    simp only [List.mem_singleton] at hb
    subst hb
    simpa using (List.mem_filter.1 ha).2
  · intro a ha b hb
    simp only [List.mem_append, List.mem_singleton] at ha
    have hb' := (List.mem_filter.1 hb).2
    simp only [gt_iff_lt, decide_eq_true_eq] at hb'
    rcases ha with ha | ha
    · have := (List.mem_filter.1 ha).2
      simp only [decide_eq_true_eq] at this
      omega
    · subst ha
      exact hb'

/-- A window not stale, or with nothing waiting: a sweep keeps what waits there. -/
def Keeps (t : WindowTable) (id : TransferId) (now : Nat) : Prop :=
  ∀ w, t.get? id = some w → w.isStale now t.config.idleTimeout = false ∨ w.pending = []

theorem keeps_at_zero (t : WindowTable) (id : TransferId) : t.Keeps id 0 :=
  fun _ _ => .inl (by simp [FlowWindow.isStale])

end WindowTable

namespace FlowWindow

/-- A drain hands on the oldest waiting requests and keeps the rest waiting. -/
theorem drain_out (w : FlowWindow) : w.drain.2 ++ w.drain.1.pending = w.pending := by
  simp [drain, List.take_append_drop]

@[simp] theorem enqueue_lastActive (w : FlowWindow) (r : ChunkRequest) (now : Nat) :
    (w.enqueue r now).1.lastActive = now := rfl

theorem enqueue_out (w : FlowWindow) (r : ChunkRequest) (now : Nat) :
    (w.enqueue r now).2 ++ (w.enqueue r now).1.pending = w.pending ++ [r] :=
  drain_out _

theorem release_out (w : FlowWindow) (now : Nat) :
    (w.release now).2 ++ (w.release now).1.pending = w.pending :=
  drain_out _

@[simp] theorem grow_pending (w : FlowWindow) (maxCap : Nat) : (w.grow maxCap).pending = w.pending := by
  unfold grow
  split <;> rfl

end FlowWindow

namespace WindowTable

variable {t : WindowTable} {id : TransferId}

/-- Queueing a request: what its window hands on, then what waits there, is what waited, then the
request. -/
theorem enqueue_fst (t : WindowTable) (id : TransferId) (r : ChunkRequest) (now : Nat) :
    (t.enqueue id r now).1 =
      t.put id (((t.get? id).getD (FlowWindow.empty t.config.initialCap now)).enqueue r now).1 := rfl

theorem enqueue_snd (t : WindowTable) (id : TransferId) (r : ChunkRequest) (now : Nat) :
    (t.enqueue id r now).2 =
      (((t.get? id).getD (FlowWindow.empty t.config.initialCap now)).enqueue r now).2 := rfl

theorem enqueue_out (t : WindowTable) (id : TransferId) (r : ChunkRequest) (now : Nat) :
    (t.enqueue id r now).2 ++ (t.enqueue id r now).1.pendingOf id = t.pendingOf id ++ [r] := by
  rw [enqueue_fst, enqueue_snd]
  simp only [pendingOf, get?_put, ↓reduceIte, Option.map_some, Option.getD_some]
  rw [FlowWindow.enqueue_out]
  cases t.get? id <;> rfl

theorem pendingOf_enqueue_ne (t : WindowTable) {id id' : TransferId} (r : ChunkRequest) (now : Nat)
    (h : id ≠ id') : (t.enqueue id' r now).1.pendingOf id = t.pendingOf id := by
  rw [enqueue_fst]
  simp [pendingOf, get?_put, h]

theorem Ordered.enqueue (h : t.Ordered) (id' : TransferId) (r : ChunkRequest) (now : Nat) :
    (t.enqueue id' r now).1.Ordered :=
  h.put _ _

theorem Keeps.enqueue (h : t.Keeps id now) (id' : TransferId) (r : ChunkRequest) :
    (t.enqueue id' r now).1.Keeps id now := by
  intro w hw
  rw [enqueue_fst, get?_put] at hw
  rw [enqueue_fst, config_put]
  split at hw
  · -- the window just queued into is active now
    cases hw
    left
    simp [FlowWindow.isStale]
  · exact h w hw

/-- Freeing a slot: what the window hands on, then what waits there, is what waited. -/
theorem release_out (t : WindowTable) (id : TransferId) (now : Nat) :
    (t.release id now).2 ++ (t.release id now).1.pendingOf id = t.pendingOf id := by
  unfold release
  cases hw : t.get? id with
  | none => simp [pendingOf, hw]
  | some w =>
    simp only [pendingOf, get?_put, ↓reduceIte, Option.map_some, Option.getD_some, hw]
    exact FlowWindow.release_out w now

theorem pendingOf_release_ne (t : WindowTable) {id id' : TransferId} (now : Nat) (h : id ≠ id') :
    (t.release id' now).1.pendingOf id = t.pendingOf id := by
  unfold release
  split <;> simp [pendingOf, get?_put, h]

theorem Ordered.release (h : t.Ordered) (id' : TransferId) (now : Nat) : (t.release id' now).1.Ordered := by
  unfold WindowTable.release
  split
  · exact h.put _ _
  · exact h

/-! ## Sweeps -/

/-- The requests of one transfer among what a sweep hands on. -/
def requestsFor (id : TransferId) (out : List (TransferId × ChunkRequest)) : List ChunkRequest :=
  out.filterMap fun p => if p.1 = id then some p.2 else none

theorem requestsFor_self (i : TransferId) (rs : List ChunkRequest) : requestsFor i (rs.map (i, ·)) = rs := by
  unfold requestsFor
  induction rs with
  | nil => rfl
  | cons r rs ih => simp [ih]

/-- The windows a sweep keeps, each grown and draining what fits. -/
def swept (cfg : WindowConfig) (now : Nat) (l : List (TransferId × FlowWindow)) :
    List (TransferId × FlowWindow × List ChunkRequest) :=
  (l.filter fun (_, w) => !w.isStale now cfg.idleTimeout).map fun (i, w) => (i, (w.grow cfg.maxCap).drain)

theorem sweep_eq (t : WindowTable) (now : Nat) : t.sweep now =
    ({ t with windows := (swept t.config now t.windows).map fun (i, w, _) => (i, w) },
      (swept t.config now t.windows).flatMap fun (i, _, out) => out.map (i, ·)) := rfl

theorem swept_absent (cfg : WindowConfig) (now : Nat) {id : TransferId} :
    ∀ l : List (TransferId × FlowWindow), (∀ x ∈ l, x.1 ≠ id) →
    requestsFor id ((swept cfg now l).flatMap fun (i, _, out) => out.map (i, ·)) = [] ∧
      ((swept cfg now l).map fun (i, w, _) => (i, w)).find? (·.1 == id) = none
  | [], _ => ⟨rfl, rfl⟩
  | (i, w) :: l, hl => by
    have hi : i ≠ id := hl _ List.mem_cons_self
    obtain ⟨ih₁, ih₂⟩ := swept_absent cfg now l fun y hy => hl y (List.mem_cons_of_mem _ hy)
    cases hst : w.isStale now cfg.idleTimeout
    · -- kept: what it hands on is of another transfer
      have e : swept cfg now ((i, w) :: l) = (i, (w.grow cfg.maxCap).drain) :: swept cfg now l := by
        simp [swept, hst]
      rw [e, List.flatMap_cons, List.map_cons, List.find?_cons]
      unfold requestsFor at ih₁ ⊢
      rw [List.filterMap_append, ih₁]
      have hne : (i == id) = false := by simp [hi]
      simp [hi, ih₂, hne]
    · have e : swept cfg now ((i, w) :: l) = swept cfg now l := by simp [swept, hst]
      rw [e]
      exact ⟨ih₁, ih₂⟩

/-- Ordered windows hold a transfer's window once: the windows before it and after it are other
transfers'. -/
theorem Ordered.split (h : t.Ordered) {w : FlowWindow} (hw : t.get? id = some w) :
    ∃ as bs, t.windows = as ++ (id, w) :: bs ∧ (∀ y ∈ as, y.1 ≠ id) ∧ ∀ y ∈ bs, y.1 ≠ id := by
  obtain ⟨x, hf, rfl⟩ := Option.map_eq_some_iff.1 hw
  obtain ⟨hx, as, bs, hl, has⟩ := List.find?_eq_some_iff_append.1 hf
  have hxid : x.1 = id := by simpa using hx
  refine ⟨as, bs, by rw [hl, ← hxid], fun y hy he => by simpa [he] using has y hy, fun y hy he => ?_⟩
  -- the windows after it come later in order of key
  have hord : (as ++ x :: bs).Pairwise fun a b => a.1.key < b.1.key := hl ▸ h
  have := (List.pairwise_cons.1 (List.pairwise_append.1 hord).2.1).1 y hy
  rw [he, hxid] at this
  omega

/-- A sweep keeps what waits in a transfer's window unless it drops the window as stale; what it
hands on for the transfer, then what still waits there, is what waited. -/
theorem sweep_out (h : t.Ordered) (hk : t.Keeps id now) :
    requestsFor id (t.sweep now).2 ++ (t.sweep now).1.pendingOf id = t.pendingOf id := by
  rw [sweep_eq]
  unfold pendingOf get?
  dsimp only
  cases hf : t.windows.find? (·.1 == id) with
  | none =>
    have hno : ∀ x ∈ t.windows, x.1 ≠ id := fun x hx he => by
      simpa [he] using List.find?_eq_none.1 hf x hx
    obtain ⟨h₁, h₂⟩ := swept_absent t.config now t.windows hno
    rw [h₁, h₂]
    rfl
  | some x =>
    have hw : t.get? id = some x.2 := by simp [get?, hf]
    obtain ⟨as, bs, hl, hno_as, hno_bs⟩ := h.split hw
    obtain ⟨ha₁, ha₂⟩ := swept_absent t.config now as hno_as
    obtain ⟨hb₁, hb₂⟩ := swept_absent t.config now bs hno_bs
    obtain ⟨i, w⟩ := x
    have hsplit : swept t.config now t.windows =
        swept t.config now as ++ swept t.config now [(id, w)] ++ swept t.config now bs := by
      rw [hl, show as ++ (id, w) :: bs = as ++ [(id, w)] ++ bs by simp]
      simp only [swept, List.filter_append, List.map_append]
    rw [hsplit]
    simp only [List.flatMap_append, List.map_append, List.find?_append, requestsFor,
      List.filterMap_append] at ha₁ ha₂ hb₁ hb₂ ⊢
    rw [ha₁, hb₁, ha₂, hb₂]
    cases hst : w.isStale now t.config.idleTimeout with
    | true =>
      have hp : w.pending = [] := by
        rcases hk w hw with h' | h'
        · simp [hst] at h'
        · exact h'
      simp [swept, hst, hp]
    | false =>
      have := FlowWindow.drain_out (w.grow t.config.maxCap)
      simp only [FlowWindow.grow_pending] at this
      simpa [swept, hst, List.filterMap_map, Function.comp_def] using this

theorem Ordered.sweep (h : t.Ordered) (now : Nat) : (t.sweep now).1.Ordered := by
  unfold Ordered WindowTable.sweep
  simp only [List.map_map]
  refine List.Pairwise.map _ (fun a b hab => ?_) (h.sublist List.filter_sublist)
  simpa using hab

end WindowTable

/-! ## A round, one transfer at a time -/

namespace Transfer

/-- The event of a transfer that an inbound item hands to the engine, if it is one. -/
def eventFor? (id : TransferId) (item : Inbound) : Option FileEvent :=
  (Daemon.fileEvent? item).filter (·.id == id)

/-- The events of a transfer among inbound items, in order. -/
def eventsFor (id : TransferId) (items : List Inbound) : List FileEvent :=
  items.filterMap (eventFor? id)

@[simp] theorem eventsFor_nil (id : TransferId) : eventsFor id [] = [] := rfl

@[simp] theorem eventsFor_append (id : TransferId) (a b : List Inbound) :
    eventsFor id (a ++ b) = eventsFor id a ++ eventsFor id b := by
  simp [eventsFor]

@[simp] theorem eventsFor_cons (id : TransferId) (i : Inbound) (rest : List Inbound) :
    eventsFor id (i :: rest) = (eventFor? id i).toList ++ eventsFor id rest := by
  simp only [eventsFor, List.filterMap_cons]
  cases eventFor? id i <;> rfl

@[simp] theorem eventFor?_request (id id' : TransferId) (r : ChunkRequest) :
    eventFor? id (.event (.chunkRequested id' r)) = if id' = id then some (.pull id' r) else none := by
  by_cases h : id' = id <;> simp [eventFor?, Daemon.fileEvent?, Option.filter, FileEvent.id, h]

theorem eventsFor_requests (id id' : TransferId) (rs : List ChunkRequest) :
    eventsFor id (rs.map fun r => Inbound.event (.chunkRequested id' r)) =
      if id' = id then rs.map (.pull id) else [] := by
  induction rs with
  | nil => split <;> rfl
  | cons r rs ih =>
    rw [List.map_cons, eventsFor_cons, ih, eventFor?_request]
    by_cases h : id' = id
    · subst h; simp
    · simp [h]

theorem eventsFor_swept (id : TransferId) (out : List (TransferId × ChunkRequest)) :
    eventsFor id (out.map fun (i, r) => Inbound.event (.chunkRequested i r)) =
      (WindowTable.requestsFor id out).map (.pull id) := by
  induction out with
  | nil => rfl
  | cons p out ih =>
    obtain ⟨i, r⟩ := p
    rw [List.map_cons, eventsFor_cons, ih, eventFor?_request]
    by_cases h : i = id
    · subst h; simp [WindowTable.requestsFor]
    · simp [WindowTable.requestsFor, h]

/-- The request of a pull. -/
def FileEvent.request? : FileEvent → Option ChunkRequest
  | .pull _ r => some r
  | _ => none

/-- A transfer's events of a round pass its window in order: those that are not chunk requests
come first, and only while none of its requests waits. -/
def Calm (waiting : List ChunkRequest) (evs : List FileEvent) : Prop :=
  ∃ N R, evs = N ++ R ∧ (∀ ev ∈ N, ev.request? = none) ∧ (∀ ev ∈ R, ev.request?.isSome) ∧
    (N ≠ [] → waiting = [])

/-- After a request, only requests follow. -/
theorem Calm.of_request {waiting waiting' : List ChunkRequest} {ev : FileEvent} {evs : List FileEvent}
    (h : Calm waiting (ev :: evs)) (hr : ev.request?.isSome) : Calm waiting' evs := by
  obtain ⟨N, R, he, hN, hR, -⟩ := h
  cases N with
  | nil =>
    simp only [List.nil_append] at he
    subst he
    exact ⟨[], evs, rfl, by simp, fun e he => hR e (List.mem_cons_of_mem _ he), by simp⟩
  | cons n N =>
    simp only [List.cons_append, List.cons.injEq] at he
    obtain ⟨rfl, -⟩ := he
    simp [hN ev List.mem_cons_self] at hr

/-- An event that is not a request comes only while nothing waits. -/
theorem Calm.of_direct {waiting : List ChunkRequest} {ev : FileEvent} {evs : List FileEvent}
    (h : Calm waiting (ev :: evs)) (hr : ev.request? = none) : waiting = [] ∧ Calm [] evs := by
  obtain ⟨N, R, he, hN, hR, hw⟩ := h
  cases N with
  | nil =>
    simp only [List.nil_append] at he
    subst he
    simp [hr] at hR
  | cons n N =>
    simp only [List.cons_append, List.cons.injEq] at he
    obtain ⟨rfl, rfl⟩ := he
    exact ⟨hw (List.cons_ne_nil _ _), N, R, rfl, fun e he => hN e (List.mem_cons_of_mem _ he), hR,
      fun _ => rfl⟩

/-- One event of a round through the windows, as the pump takes it. -/
def passEvent (now : Nat) : WindowTable × List Inbound → Event → WindowTable × List Inbound :=
  fun (t, acc) e =>
    match e with
    | .chunkRequested id req =>
      let (t, out) := t.enqueue id req now
      (t, acc ++ out.map fun r => Inbound.event (.chunkRequested id r))
    | e => (t, acc ++ [Inbound.event e])

theorem pumpOnce_eq (b : Bridge) (w : Wire ω) (x : ω) (now : Nat) (hb : b.running = true) :
    b.pumpOnce w x now =
      ({ b with windows := (((w.pump x).2.foldl (passEvent now) (b.windows, [])).1.sweep now).1 },
        (w.pump x).1,
        ((w.pump x).2.foldl (passEvent now) (b.windows, [])).2 ++
          (((w.pump x).2.foldl (passEvent now) (b.windows, [])).1.sweep now).2.map
            fun (id, r) => .event (.chunkRequested id r)) := by
  simp only [Bridge.pumpOnce, hb, Bool.not_true, Bool.false_eq_true, ↓reduceIte]
  rfl

theorem passEvent_request (now : Nat) (t : WindowTable) (acc : List Inbound) (id : TransferId) (r : ChunkRequest) :
    passEvent now (t, acc) (.chunkRequested id r) =
      ((t.enqueue id r now).1, acc ++ (t.enqueue id r now).2.map fun r => Inbound.event (.chunkRequested id r)) :=
  rfl

theorem passEvent_direct (now : Nat) (t : WindowTable) (acc : List Inbound) {e : Event}
    (h : ∀ id r, e ≠ .chunkRequested id r) : passEvent now (t, acc) e = (t, acc ++ [Inbound.event e]) := by
  cases e with
  | chunkRequested id r => exact absurd rfl (h id r)
  | _ => rfl

theorem request?_of_direct {e : Event} (h : ∀ id r, e ≠ .chunkRequested id r) {id : TransferId}
    {ev : FileEvent} (hev : eventFor? id (.event e) = some ev) : ev.request? = none := by
  cases e with
  | chunkRequested id' r => exact absurd rfl (h id' r)
  | _ =>
    simp [eventFor?, Daemon.fileEvent?] at hev
    all_goals (obtain ⟨he, -⟩ := hev; rw [← he]; rfl)

/-- The events of a round pass a transfer's window in order. -/
theorem foldl_passEvent (now : Nat) (id : TransferId) :
    ∀ (evs : List Event) (t : WindowTable) (acc : List Inbound),
    t.Ordered → t.Keeps id now → Calm (t.pendingOf id) (eventsFor id (evs.map .event)) →
    (evs.foldl (passEvent now) (t, acc)).1.Ordered ∧ (evs.foldl (passEvent now) (t, acc)).1.Keeps id now ∧
      eventsFor id (evs.foldl (passEvent now) (t, acc)).2 ++
        ((evs.foldl (passEvent now) (t, acc)).1.pendingOf id).map (.pull id) =
        eventsFor id acc ++ (t.pendingOf id).map (.pull id) ++ eventsFor id (evs.map .event)
  | [], _, _, ho, hk, _ => ⟨ho, hk, by simp⟩
  | e :: evs, t, acc, ho, hk, hc => by
    rw [List.foldl_cons]
    by_cases hq : ∃ id' r, e = .chunkRequested id' r
    · obtain ⟨id', r, rfl⟩ := hq
      rw [passEvent_request]
      by_cases hid : id' = id
      · -- a request of the transfer: queued in its window
        subst hid
        rw [List.map_cons, eventsFor_cons, eventFor?_request, if_pos rfl] at hc
        have hc' : Calm ((t.enqueue id' r now).1.pendingOf id') (eventsFor id' (evs.map .event)) :=
          Calm.of_request hc (by rfl)
        obtain ⟨ho', hk', heq⟩ := foldl_passEvent now id' evs _ _ (ho.enqueue _ _ _) (hk.enqueue _ _) hc'
        refine ⟨ho', hk', ?_⟩
        rw [heq, eventsFor_append, eventsFor_requests, if_pos rfl, List.map_cons, eventsFor_cons,
          eventFor?_request, if_pos rfl]
        have hout := WindowTable.enqueue_out t id' r now
        calc eventsFor id' acc ++ List.map (FileEvent.pull id') (t.enqueue id' r now).2 ++
              List.map (FileEvent.pull id') ((t.enqueue id' r now).1.pendingOf id') ++
              eventsFor id' (evs.map .event)
            = eventsFor id' acc ++ List.map (FileEvent.pull id')
                ((t.enqueue id' r now).2 ++ (t.enqueue id' r now).1.pendingOf id') ++
                eventsFor id' (evs.map .event) := by simp
          _ = _ := by rw [hout]; simp
      · -- another transfer's request: this one's window and events stay
        rw [List.map_cons, eventsFor_cons, eventFor?_request, if_neg hid] at hc
        simp only [Option.toList_none, List.nil_append] at hc
        rw [← WindowTable.pendingOf_enqueue_ne t r now (Ne.symm hid)] at hc
        obtain ⟨ho', hk', heq⟩ := foldl_passEvent now id evs _ _ (ho.enqueue _ _ _) (hk.enqueue _ _) hc
        refine ⟨ho', hk', ?_⟩
        rw [heq, eventsFor_append, eventsFor_requests, if_neg hid, List.map_cons, eventsFor_cons,
          eventFor?_request, if_neg hid, WindowTable.pendingOf_enqueue_ne t r now (Ne.symm hid)]
        simp
    · have hd : ∀ id' r, e ≠ .chunkRequested id' r := fun id' r he => hq ⟨id', r, he⟩
      rw [passEvent_direct now t acc hd]
      rw [List.map_cons, eventsFor_cons] at hc
      cases hev : eventFor? id (.event e) with
      | none =>
        rw [hev, Option.toList_none, List.nil_append] at hc
        obtain ⟨ho', hk', heq⟩ := foldl_passEvent now id evs _ _ ho hk hc
        refine ⟨ho', hk', ?_⟩
        rw [heq, List.map_cons, eventsFor_cons, eventsFor_append, eventsFor_cons, hev]
        simp
      | some ev =>
        -- an event of the transfer that is not a request: nothing of it waits
        rw [hev, Option.toList_some, List.singleton_append] at hc
        obtain ⟨hw, hc'⟩ := Calm.of_direct hc (request?_of_direct hd hev)
        rw [← hw] at hc'
        obtain ⟨ho', hk', heq⟩ := foldl_passEvent now id evs _ _ ho hk hc'
        refine ⟨ho', hk', ?_⟩
        rw [heq, List.map_cons, eventsFor_cons, eventsFor_append, eventsFor_cons, hev, hw]
        simp

/-- A round of a running bridge, seen for one transfer: the events of the transfer it hands on,
then its requests still waiting, are its requests that waited before, then its events of the
round. -/
theorem pumpOnce_eventsFor (b : Bridge) (w : Wire ω) (x : ω) (now : Nat) (id : TransferId)
    (hb : b.running = true) (ho : b.windows.Ordered) (hk : b.windows.Keeps id now)
    (hc : Calm (b.windows.pendingOf id) (eventsFor id ((w.pump x).2.map .event))) :
    (b.pumpOnce w x now).1.windows.Ordered ∧
    eventsFor id (b.pumpOnce w x now).2.2 ++ ((b.pumpOnce w x now).1.windows.pendingOf id).map (.pull id) =
      (b.windows.pendingOf id).map (.pull id) ++ eventsFor id ((w.pump x).2.map .event) := by
  rw [pumpOnce_eq b w x now hb]
  obtain ⟨ho', hk', heq⟩ := foldl_passEvent now id (w.pump x).2 b.windows [] ho hk hc
  refine ⟨ho'.sweep now, ?_⟩
  simp only
  rw [eventsFor_append, eventsFor_swept, List.append_assoc, ← List.map_append,
    WindowTable.sweep_out ho' hk', heq]
  simp

/-- A chunk sent through a running bridge frees a slot of its transfer's window: for a transfer
whose chunk went through, or any other transfer, the events handed on, then its requests still
waiting, are its requests that waited before. -/
theorem chunk_eventsFor (b : Bridge) (w : Wire ω) (x : ω) (now : Nat) (id' : TransferId) (o : Nat)
    (d : ByteArray) (id : TransferId) (hb : b.running = true) (ho : b.windows.Ordered)
    (hok : id' = id → ∃ u, (w.sendChunk x id' o d).2 = .ok u) :
    (b.chunk w x now id' o d).1.windows.Ordered ∧
    eventsFor id (b.chunk w x now id' o d).2.2 ++
      ((b.chunk w x now id' o d).1.windows.pendingOf id).map (.pull id) =
      (b.windows.pendingOf id).map (.pull id) := by
  simp only [Bridge.chunk, hb, Bool.not_true, Bool.false_eq_true, ↓reduceIte]
  refine ⟨ho.release _ _, ?_⟩
  by_cases hid : id' = id
  · subst hid
    obtain ⟨u, hu⟩ := hok rfl
    rw [hu]
    simp only [List.nil_append, eventsFor_requests, ↓reduceIte, ← List.map_append,
      WindowTable.release_out]
  · -- a failure of another transfer's chunk is not an event of this one
    rw [eventsFor_append, eventsFor_requests, if_neg hid, WindowTable.pendingOf_release_ne _ _ (Ne.symm hid)]
    cases (w.sendChunk x id' o d).2 <;> simp [eventFor?, Daemon.fileEvent?, FileEvent.id, hid]


end Transfer

end Courier
