-- The hub's side of one shipment in a pair of nodes: rounds and requests of the pump threads move
-- the transit as the hub does, and everything else leaves it alone.
import Courier.Proofs.PairViews

namespace Courier.Network

/-- The flow table has at most one entry for the file number. -/
def Single (net : Network) (file : UInt32) : Prop := (net.entries file).length ≤ 1

theorem entries_of_single {net : Network} {file : UInt32} (h : net.Single file) :
    net.entries file = (net.flow? file).toList.map (file, ·) := by
  rw [flow?_eq_entries]
  have hkey : ∀ e ∈ net.entries file, e.1 = file := fun e he => by
    simpa [entries] using (List.mem_filter.1 he).2
  unfold Single at h
  cases hl : net.entries file with
  | nil => rfl
  | cons e l =>
    cases l with
    | nil => simp [← hkey e (by simp [hl])]
    | cons e' l => rw [hl] at h; simp at h

theorem single_setFlow (net : Network) (file file' : UInt32) (f : Flow) (h : net.Single file') :
    (net.setFlow file f).Single file' := by
  unfold Single
  rw [entries_setFlow]
  split
  · simp
  · exact h

theorem single_dropFlow (net : Network) (file file' : UInt32) (h : net.Single file') :
    (net.dropFlow file).Single file' := by
  unfold Single
  rw [entries_dropFlow]
  split
  · simp
  · exact h

theorem single_post (net : Network) (dest src : PublicKey) (make : UInt32 → Event) {file : UInt32}
    (h : net.Single file) : (net.post dest src make).Single file := by
  simpa [Single] using h

theorem single_pump {net : Network} {me : PublicKey} {file : UInt32} (h : net.Single file) :
    (net.pump me).1.Single file := by
  cases hn : net.node? me with
  | none => simpa [pump, hn] using h
  | some n => simpa [Single, entries_pump hn] using h

theorem Aside.single {file : UInt32} {net net' : Network} (ha : Aside file net net') (h : net.Single file) :
    net'.Single file := by
  rw [Single, ha.entries]
  exact h

/-! ## A round, for one file -/

theorem eventsFor_flatMap_roundEntry (n : Node) (me : PublicKey) (id : TransferId) :
    ∀ l : List (UInt32 × Flow),
      Transfer.eventsFor id ((l.flatMap fun e => (roundEntry n me e).2).map .event) =
        Transfer.eventsFor id (((l.filter (·.1 == id.file)).flatMap fun e => (roundEntry n me e).2).map .event)
  | [] => rfl
  | e :: l => by
    rw [List.flatMap_cons, List.filter_cons, List.map_append, Transfer.eventsFor_append,
      eventsFor_flatMap_roundEntry n me id l]
    split
    · rw [List.flatMap_cons, List.map_append, Transfer.eventsFor_append]
    · -- an entry of another file hands out nothing about this one
      rename_i hne
      have hapart : Transfer.eventsFor id ((roundEntry n me e).2.map .event) = [] := by
        simp only [Transfer.eventsFor, List.filterMap_map]
        refine List.filterMap_eq_nil_iff.2 fun ev hev => Transfer.eventFor?_of_apart ?_ rfl
        intro id' hid'
        obtain ⟨peer, hp⟩ := roundEntry_events n me e ev hev
        rw [hp, Option.some.injEq] at hid'
        subst hid'
        simpa using hne
      rw [hapart, List.nil_append]

theorem eventsFor_round {net : Network} {id : TransferId} (h : net.Single id.file) (n : Node)
    (me : PublicKey) :
    Transfer.eventsFor id ((net.flows.flatMap fun e => (roundEntry n me e).2).map .event) =
      Transfer.eventsFor id (((net.flow? id.file).toList.flatMap fun fl =>
        (roundEntry n me (id.file, fl)).2).map .event) := by
  rw [eventsFor_flatMap_roundEntry, show net.flows.filter (·.1 == id.file) = net.entries id.file from rfl,
    entries_of_single h]
  simp [List.flatMap_map]

theorem flow?_pump_of_sender_ne {net : Network} {me : PublicKey} {n : Node} (hn : net.node? me = some n)
    {file : UInt32} (h : net.Single file) (hs : ∀ fl, net.flow? file = some fl → fl.sender ≠ me) :
    (net.pump me).1.flow? file = net.flow? file := by
  rw [flow?_eq_entries, entries_pump hn, entries_of_single h]
  cases hf : net.flow? file with
  | none => rfl
  | some fl => simp [roundEntry_of_sender_ne n (e := (file, fl)) (hs fl hf)]

/-! ## Calls of other transfers -/

theorem flowOf_of_none {net : Network} {me : PublicKey} {id : TransferId} (h : net.flow? id.file = none) :
    ∃ e, net.flowOf me id = .error e := by
  unfold flowOf
  cases hn : net.node me with
  | error e => exact ⟨e, rfl⟩
  | ok n =>
    cases hfr : n.friend id.peer with
    | error e => exact ⟨e, by simp [bind, Except.bind, hfr]⟩
    | ok k => exact ⟨_, by simp [bind, Except.bind, hfr, h, throw, throwThe, MonadExceptOf.throw]; rfl⟩

/-- A call of `me` about a transfer other than the one it has with `other` on `file` leaves the
network aside from that flow: one of another file changes only its own flow, and one of the same
file names no flow of `me`. -/
theorem aside_of_foreign {net : Network} {me other : PublicKey} {peer file : UInt32}
    (hk : net.Knows me other peer) (hc : ∀ fl, net.flow? file = some fl → fl.counterpart? me = some other)
    {id : TransferId} (hid : id ≠ ⟨peer, file⟩) :
    (∀ o d net', net.sendChunk me id o d = .ok net' → Aside file net net') ∧
    (∀ k net', net.setControl me id k = .ok net' → Aside file net net') := by
  by_cases hf : id.file = file
  · -- the same file: the transfer names no flow of `me`
    have hp : id.peer ≠ peer := fun hp => hid (by rw [← hp, ← hf])
    have herr : ∃ e, net.flowOf me id = .error e := by
      cases hfl : net.flow? file with
      | none => exact flowOf_of_none (by rw [hf]; exact hfl)
      | some fl => exact flowOf_foreign hk (by rw [hf]; exact hfl) (hc fl hfl) hp
    obtain ⟨e, he⟩ := herr
    refine ⟨fun o d net' h => ?_, fun k net' h => ?_⟩
    · have hs : net.sendChunk me id o d = .error e := by simp [sendChunk, he, bind, Except.bind]
      rw [hs] at h
      cases h
    · have hs : net.setControl me id k = .error e := by simp [setControl, he, bind, Except.bind]
      rw [hs] at h
      cases h
  · exact ⟨fun o d net' h => aside_sendChunk h hf, fun k net' h => aside_setControl h hf⟩

end Courier.Network

namespace Courier.Transfer

open Network Files

/-! ## What is due to each side, as the windows see it -/

theorem Transit.Good.tail_requests {s : Shipment} {t : Transit} (h : t.Good s) :
    ∀ ev ∈ t.toSender.tail, ev.request?.isSome = true := by
  obtain ⟨mid, P, cs, -, -, hdue, -⟩ := h.sender.due
  have hreq : ∀ ev ∈ P.map (FileEvent.pull s.outbound) ++
      (if t.flow.isNone && !t.closed then [s.senderEnd] else []), ev.request?.isSome = true := by
    intro ev hev
    simp only [List.mem_append, List.mem_map] at hev
    rcases hev with ⟨r, -, rfl⟩ | hev
    · rfl
    · split at hev
      · rw [List.mem_singleton.1 hev]; rfl
      · cases hev
  rw [hdue, Transit.senderDue, List.append_assoc]
  split
  · simpa using hreq
  · intro ev hev
    exact hreq ev (List.mem_of_mem_tail (by simpa using hev))

theorem Transit.Good.receiver_requests {s : Shipment} {t : Transit} (h : t.Good s) :
    ∀ ev ∈ t.toReceiver, ev.request? = none := by
  intro ev hev
  cases h.receiver with
  | offered _ due =>
    rw [due, List.mem_singleton] at hev
    rw [hev]; rfl
  | «open» w C _ _ due =>
    rw [due] at hev
    simp only [Transit.receiverDue, List.mem_append, List.mem_map] at hev
    rcases hev with ⟨r, -, rfl⟩ | hev
    · rfl
    · split at hev
      · rw [List.mem_singleton.1 hev]; rfl
      · cases hev
  | closed _ due => rw [due] at hev; cases hev

theorem calm_of_tail {id : TransferId} {pre I X : List FileEvent} {waiting : List ChunkRequest}
    (ht : ∀ ev ∈ (pre ++ waiting.map (FileEvent.pull id) ++ I).tail, ev.request?.isSome = true)
    (hX : ∀ ev ∈ X, ev.request?.isSome = true) : Calm waiting (I ++ X) := by
  -- the events of `I` after its first stand in the tail
  have hrest : ∀ i I', I = i :: I' → ∀ ev ∈ I', ev.request?.isSome = true := by
    intro i I' hI ev hev
    apply ht
    rw [hI]
    cases hA : pre ++ waiting.map (.pull id) with
    | nil => simpa using hev
    | cons a A => simp [hev]
  cases hI : I with
  | nil => exact ⟨[], X, rfl, by simp, hX, by simp⟩
  | cons i I' =>
    have hI' := hrest i I' hI
    cases hi : i.request? with
    | some r =>
      refine ⟨[], i :: I' ++ X, rfl, by simp, fun ev hev => ?_, by simp⟩
      rcases List.mem_cons.1 hev with rfl | hev
      · simp [hi]
      · rcases List.mem_append.1 hev with hev | hev
        · exact hI' ev hev
        · exact hX ev hev
    | none =>
      -- a first event that is no request is the oldest due: nothing waits before it
      have hpre : pre ++ waiting.map (.pull id) = [] := by
        cases hA : pre ++ waiting.map (.pull id) with
        | nil => rfl
        | cons a A =>
          have := ht i (by rw [hA, hI]; simp)
          simp [hi] at this
      have hw : waiting = [] := by simpa using (List.append_eq_nil_iff.1 hpre).2
      refine ⟨[i], I' ++ X, rfl, by simp [hi], fun ev hev => ?_, fun _ => hw⟩
      rcases List.mem_append.1 hev with hev | hev
      · exact hI' ev hev
      · exact hX ev hev

@[simp] theorem eventFor?_chunkReceived (id id' : TransferId) (o : Nat) (d : ByteArray) :
    eventFor? id (.event (.chunkReceived id' o d)) = if id' = id then some (.chunk id' o d) else none := by
  by_cases h : id' = id <;> simp [eventFor?, Daemon.fileEvent?, Option.filter, FileEvent.id, h]

@[simp] theorem eventFor?_fileControl (id id' : TransferId) (k : FileControl) :
    eventFor? id (.event (.fileControl id' k)) = if id' = id then some (.control id' k) else none := by
  by_cases h : id' = id <;> simp [eventFor?, Daemon.fileEvent?, Option.filter, FileEvent.id, h]

@[simp] theorem eventFor?_fileOffered (id id' : TransferId) (name : String) (size : Nat) :
    eventFor? id (.event (.fileOffered id' name size)) =
      if id' = id then some (.offered id' name size) else none := by
  by_cases h : id' = id <;> simp [eventFor?, Daemon.fileEvent?, Option.filter, FileEvent.id, h]

@[simp] theorem eventFor?_fileError (id id' : TransferId) (e : TransportError) :
    eventFor? id (.fileError id' e) = if id' = id then some (.failed id' e) else none := by
  by_cases h : id' = id <;> simp [eventFor?, Daemon.fileEvent?, Option.filter, FileEvent.id, h]

/-! ## The flow's entry in a round of the sender -/

/-- A round of the sender on the shipment's flow: nothing before the flow is accepted; after, the
requests that tile the file from the requested mark on. -/
theorem roundEntry_shipment {s : Shipment} {fl : Flow} (fits : Transit.FlowFits s fl) {n : Node}
    (hk : n.Knows s.receiver s.outbound.peer) :
    (fl.accepted = false ∧ roundEntry n s.sender (s.outbound.file, fl) = ((s.outbound.file, fl), [])) ∨
    (fl.accepted = true ∧ ∃ rs, roundEntry n s.sender (s.outbound.file, fl) =
        ((s.outbound.file, (pullsOf s.outbound fl (maxOutstanding + 1)).1),
          rs.map (.chunkRequested s.outbound)) ∧
      Tiles fl.requested (pullsOf s.outbound fl (maxOutstanding + 1)).1.requested rs ∧
      (pullsOf s.outbound fl (maxOutstanding + 1)).1.requested ≤ fl.size ∧
      (pullsOf s.outbound fl (maxOutstanding + 1)).1 =
        { fl with requested := (pullsOf s.outbound fl (maxOutstanding + 1)).1.requested,
                  outstanding := (pullsOf s.outbound fl (maxOutstanding + 1)).1.outstanding }) := by
  by_cases ha : fl.accepted = true
  · refine .inr ⟨ha, ?_⟩
    have hle : fl.requested ≤ fl.size := by have := fits.within; have := fits.size; omega
    obtain ⟨rs, hevs, htiles, hreq, heq⟩ := pullsOf_tiles s.outbound fl (maxOutstanding + 1) hle
    have hpeer : n.peerOf? fl.receiver = some s.outbound.peer := by rw [fits.receiver]; exact hk.peerOf?
    refine ⟨rs, ?_, htiles, hreq, heq⟩
    rw [roundEntry_of_accepted n fits.sender ha fits.running hpeer, ← hevs]
  · have ha' : fl.accepted = false := by simpa using ha
    exact .inl ⟨ha', roundEntry_of_waiting n s.sender ha'⟩

/-! ## Rounds and requests -/

theorem Bridge.chunk_aside {b : Bridge} {net : Network} {me : PublicKey} {file : UInt32} {id : TransferId}
    {o : Nat} {d : ByteArray} (now : Nat) (h : ∀ net', net.sendChunk me id o d = .ok net' → Aside file net net') :
    Aside file net (b.chunk (Network.wire me) net now id o d).2.1 := by
  unfold Bridge.chunk
  split
  · exact Aside.refl net
  · cases hs : net.sendChunk me id o d with
    | error e => simp [hs, Except.map]; exact Aside.refl net
    | ok net' => simpa [hs, Except.map] using h net' hs

theorem Bridge.control_aside {b : Bridge} {net : Network} {me : PublicKey} {file : UInt32} {id : TransferId}
    {k : FileControl} (h : ∀ net', net.setControl me id k = .ok net' → Aside file net net') :
    Aside file net (b.control (Network.wire me) net id k).1 := by
  unfold Bridge.control
  split
  · exact Aside.refl net
  · cases hs : net.setControl me id k with
    | error e => simp [hs, Except.map]; exact Aside.refl net
    | ok net' => simpa [hs, Except.map] using h net' hs

theorem Bridge.control_eventsFor (b : Bridge) (w : Wire ω) (x : ω) {id' id : TransferId} (k : FileControl)
    (h : id' ≠ id) : eventsFor id (b.control w x id' k).2 = [] := by
  unfold Bridge.control
  split
  · rfl
  · split <;> simp [h]

namespace Pair

variable (p : Pair)

/-- The bridge, network and items of a round of a node. -/
def pumped (x : Party) : Bridge × Network × List Inbound :=
  (p.side x).bridge.pumpOnce (Network.wire (p.side x).key) p.net p.clock

theorem round_sender : p.round .sender =
    { p with
      net := (p.pumped .sender).2.1
      sender := { p.sender with
        bridge := (p.pumped .sender).1
        queue := p.sender.queue ++ (p.pumped .sender).2.2 } } := rfl

theorem round_receiver : p.round .receiver =
    { p with
      net := (p.pumped .receiver).2.1
      receiver := { p.receiver with
        bridge := (p.pumped .receiver).1
        queue := p.receiver.queue ++ (p.pumped .receiver).2.2 } } := rfl

theorem serve_sender_chunk (id : TransferId) (o : Nat) (d : ByteArray) (rest : List Request) :
    p.serve .sender (.chunk id o d) rest =
      { p with
        net := (p.sender.bridge.chunk (Network.wire p.sender.key) p.net p.clock id o d).2.1
        sender := { p.sender with
          bridge := (p.sender.bridge.chunk (Network.wire p.sender.key) p.net p.clock id o d).1
          requests := rest
          queue := p.sender.queue ++ (p.sender.bridge.chunk (Network.wire p.sender.key) p.net p.clock id o d).2.2 } } :=
  rfl

theorem serve_sender_control (id : TransferId) (k : FileControl) (rest : List Request) :
    p.serve .sender (.control id k) rest =
      { p with
        net := (p.sender.bridge.control (Network.wire p.sender.key) p.net id k).1
        sender := { p.sender with
          requests := rest
          queue := p.sender.queue ++ (p.sender.bridge.control (Network.wire p.sender.key) p.net id k).2 } } :=
  rfl

theorem serve_receiver_chunk (id : TransferId) (o : Nat) (d : ByteArray) (rest : List Request) :
    p.serve .receiver (.chunk id o d) rest =
      { p with
        net := (p.receiver.bridge.chunk (Network.wire p.receiver.key) p.net p.clock id o d).2.1
        receiver := { p.receiver with
          bridge := (p.receiver.bridge.chunk (Network.wire p.receiver.key) p.net p.clock id o d).1
          requests := rest
          queue := p.receiver.queue ++
            (p.receiver.bridge.chunk (Network.wire p.receiver.key) p.net p.clock id o d).2.2 } } :=
  rfl

theorem serve_receiver_control (id : TransferId) (k : FileControl) (rest : List Request) :
    p.serve .receiver (.control id k) rest =
      { p with
        net := (p.receiver.bridge.control (Network.wire p.receiver.key) p.net id k).1
        receiver := { p.receiver with
          requests := rest
          queue := p.receiver.queue ++ (p.receiver.bridge.control (Network.wire p.receiver.key) p.net id k).2 } } :=
  rfl

/-- Only the worker and a save touch the volume. -/
@[simp] theorem round_volume (x : Party) : (p.round x).volume = p.volume := by cases x <;> rfl

@[simp] theorem dispatch_volume (x : Party) (item : Inbound) (rest : List Inbound) :
    (p.dispatch x item rest).volume = p.volume := by cases x <;> rfl

@[simp] theorem settle_volume (before after : List Offer) (o : Offer) :
    (p.settle before after o).volume = p.volume := rfl

@[simp] theorem serve_control_volume (x : Party) (id : TransferId) (k : FileControl) (rest : List Request) :
    (p.serve x (.control id k) rest).volume = p.volume := by cases x <;> rfl

@[simp] theorem serve_chunk_volume (x : Party) (id : TransferId) (o : Nat) (d : ByteArray) (rest : List Request) :
    (p.serve x (.chunk id o d) rest).volume = p.volume := by cases x <;> rfl

/-- A round of a running bridge takes the network's round for the node. -/
theorem pumped_net {x : Party} (h : (p.side x).bridge.running = true) :
    (p.pumped x).2.1 = (p.net.pump (p.side x).key).1 := by
  rw [pumped, pumpOnce_eq _ _ _ _ h]
  rfl

end Pair

/-- The network's round of the sender, for a shipment whose flow stands alone at its number: the
flow and the events about the shipment stay as they were, or the accepted flow makes its requests,
which follow the events that waited in the inbox. -/
theorem pump_shipment {s : Shipment} {net : Network} {n : Node} (hn : net.node? s.sender = some n)
    (hk : n.Knows s.receiver s.outbound.peer) (hsingle : net.Single s.outbound.file)
    (hfits : ∀ fl, net.flow? s.outbound.file = some fl → Transit.FlowFits s fl) :
    ((net.pump s.sender).1.flow? s.outbound.file = net.flow? s.outbound.file ∧
      eventsFor s.outbound ((net.pump s.sender).2.map .event) =
        eventsFor s.outbound ((net.inbox s.sender).map .event)) ∨
    ∃ fl fl' rs, net.flow? s.outbound.file = some fl ∧ fl.accepted = true ∧
      Tiles fl.requested fl'.requested rs ∧ fl'.requested ≤ fl.size ∧
      fl' = { fl with requested := fl'.requested, outstanding := fl'.outstanding } ∧
      (net.pump s.sender).1.flow? s.outbound.file = some fl' ∧
      eventsFor s.outbound ((net.pump s.sender).2.map .event) =
        eventsFor s.outbound ((net.inbox s.sender).map .event) ++ rs.map (.pull s.outbound) := by
  have hI : net.inbox s.sender = n.inbox := by simp [inbox, hn]
  have hE : eventsFor s.outbound ((net.pump s.sender).2.map .event) =
      eventsFor s.outbound (n.inbox.map .event) ++
        eventsFor s.outbound (((net.flow? s.outbound.file).toList.flatMap fun fl =>
          (roundEntry n s.sender (s.outbound.file, fl)).2).map .event) := by
    rw [pump_eq hn, List.map_append, eventsFor_append, eventsFor_round hsingle]
  have hF : (net.pump s.sender).1.flow? s.outbound.file =
      (net.flow? s.outbound.file).map fun fl => (roundEntry n s.sender (s.outbound.file, fl)).1.2 := by
    rw [flow?_eq_entries, entries_pump hn, entries_of_single hsingle]
    cases net.flow? s.outbound.file <;> simp
  rw [hI, hE, hF]
  cases hf : net.flow? s.outbound.file with
  | none => exact .inl ⟨rfl, by simp⟩
  | some fl =>
    rcases roundEntry_shipment (hfits fl hf) hk with ⟨-, he⟩ | ⟨ha, rs, he, htiles, hle, heq⟩
    · exact .inl ⟨by simp [he], by simp [he]⟩
    · refine .inr ⟨fl, _, rs, rfl, ha, htiles, hle, heq, by simp [he], ?_⟩
      have hreq := eventsFor_requests s.outbound s.outbound rs
      simp only [↓reduceIte] at hreq
      simp [he, List.map_map, Function.comp_def, hreq]

namespace Transit

variable {s : Shipment} {t : Transit}

theorem sent_of {o : Nat} {data : ByteArray} {rest : List (Nat × ByteArray)} {fl : Flow}
    (hc : t.chunks = (o, data) :: rest) (hf : t.flow = some fl) :
    t.sent s =
      let fl' := { fl with outstanding := fl.outstanding - 1, delivered := max fl.delivered (o + data.size) }
      if fl'.delivered ≥ fl.size then
        { t with
          chunks := rest
          flow := none
          toSender := t.toSender ++ [s.senderEnd]
          toReceiver := t.toReceiver ++ [.chunk s.inbound o data, s.receiverEnd] }
      else { t with chunks := rest, flow := some fl', toReceiver := t.toReceiver ++ [.chunk s.inbound o data] } := by
  unfold Transit.sent
  rw [hc, hf]

/-- The oldest chunk in flight is the slice of a request from the delivered mark, within the file,
and the flow is still there. -/
theorem Good.oldest_chunk (h : t.Good s) {o : Nat} {data : ByteArray} {rest : List (Nat × ByteArray)}
    (hc : t.chunks = (o, data) :: rest) :
    ∃ fl, t.flow = some fl ∧ 0 < data.size ∧ o + data.size ≤ s.size := by
  obtain ⟨mid, P, cs, hP, hcs, -, hch⟩ := h.sender.due
  rw [hc] at hch
  cases cs with
  | nil => cases hch
  | cons r cs =>
    simp only [List.map_cons, List.cons.injEq] at hch
    obtain ⟨hr, -⟩ := hch
    obtain ⟨hstart, hpos, hrest⟩ := Tiles.cons_iff.1 hcs
    have hmid := hrest.le
    have hreq := hP.le
    have hmarks := h.marks
    have hfit : r.offset + r.length ≤ s.size := by omega
    have hsz := size_slice hfit
    rw [← hr] at hsz
    simp only [Shipment.slice, Prod.mk.injEq] at hr
    obtain ⟨rfl, rfl⟩ := hr
    cases hf : t.flow with
    | none =>
      -- a finished flow has nothing in flight
      rw [delivered_of_none hf] at hstart
      omega
    | some fl => exact ⟨fl, rfl, by simp only at hsz; omega, by simp only at hsz; omega⟩

theorem accepts_of {k : FileControl} {rest : List FileControl} {fl : Flow} (hc : t.controls = k :: rest)
    (hf : t.flow = some fl) :
    t.accepts s =
      if fl.size = 0 then
        { t with
          controls := rest
          flow := none
          toSender := t.toSender ++ [.control s.outbound .resume, s.senderEnd]
          toReceiver := t.toReceiver ++ [s.receiverEnd] }
      else
        { t with
          controls := rest
          flow := some { fl with accepted := true, paused := false, requested := fl.delivered, outstanding := 0 }
          toSender := t.toSender ++ [.control s.outbound .resume] } := by
  unfold Transit.accepts
  rw [hc, hf]

/-- The receiver's control in flight is its resume, alone, while the flow waits for it. -/
theorem Good.oldest_control (h : t.Good s) {k : FileControl} {rest : List FileControl}
    (hc : t.controls = k :: rest) : ∃ fl, t.flow = some fl ∧ fl.accepted = false ∧ k = .resume ∧ rest = [] := by
  cases h.receiver with
  | offered _ _ quiet => rw [quiet] at hc; cases hc
  | closed _ _ quiet => rw [quiet] at hc; cases hc
  | «open» w C _ _ _ asks =>
    cases ha : t.accepted with
    | true => rw [asks, ha] at hc; cases hc
    | false =>
      rw [asks, ha] at hc
      simp only [Bool.false_eq_true, ↓reduceIte, List.cons.injEq] at hc
      obtain ⟨fl, hf, -, -⟩ := h.idle ha
      exact ⟨fl, hf, by rwa [accepted_of_some hf] at ha, hc.1.symm, hc.2.symm⟩

end Transit

/-! ## Offers -/

theorem Bridge.offerFile_aside (b : Bridge) {net : Network} {me : PublicKey} {file : UInt32} (peer : UInt32)
    (name : String) (size : Nat) (hnext : net.nextFile ≠ file) :
    Aside file net (b.offerFile (Network.wire me) net peer name size).1 ∧
      ∀ id, (b.offerFile (Network.wire me) net peer name size).2 = .ok id → id.file = net.nextFile := by
  unfold Bridge.offerFile Bridge.ask
  split
  · cases h : net.offerFile me peer name size with
    | error e =>
      simp only [wire_offerFile, h, settle_error]
      exact ⟨Aside.refl net, fun id hr => by cases hr⟩
    | ok r =>
      obtain ⟨net', i⟩ := r
      obtain ⟨haside, hid⟩ := aside_offerFile h hnext
      simp only [wire_offerFile, h, settle_ok]
      exact ⟨haside, fun id hr => by cases hr; exact hid⟩
  · exact ⟨Aside.refl net, fun id hr => by cases hr⟩

theorem Pair.offer_answers (p : Pair) (o : Offer) {id : TransferId} (hnext : p.net.nextFile ≠ id.file) :
    ({ o with answer := some (p.sender.bridge.offerFile (Network.wire p.sender.key) p.net o.peer
        (offerName o.file.path) o.file.size).2 } : Offer).answers id = false := by
  obtain ⟨-, hid⟩ := @Bridge.offerFile_aside p.sender.bridge p.net p.sender.key id.file o.peer
    (offerName o.file.path) o.file.size hnext
  unfold Offer.answers
  split
  · rename_i i hi
    have := hid i (Option.some.inj hi)
    simp only [beq_eq_false_iff_ne]
    intro he
    rw [he] at this
    exact hnext this.symm
  · rfl

theorem Pair.openings_offer (p : Pair) {before after : List Offer} {o : Offer}
    (ho : p.sender.offers = before ++ o :: after) (hw : o.answer = none) {id : TransferId}
    (hnext : p.net.nextFile ≠ id.file) :
    (p.offer before after o).sender.openings id = p.sender.openings id := by
  have hold : o.answers id = false := by simp [Offer.answers, hw]
  simp [Side.openings, Pair.offer, ho, List.filter_append, p.offer_answers o hnext, hold]

theorem Pair.openings_send (p : Pair) (peer : UInt32) (files : List SourceFile) (id : TransferId) :
    (p.send peer files).sender.openings id = p.sender.openings id := by
  have hnone : (files.map fun f => ({ peer := peer, file := f } : Offer)).filter (Offer.answers id) = [] :=
    List.filter_eq_nil_iff.2 fun o ho => by
      obtain ⟨f, -, rfl⟩ := List.mem_map.1 ho
      simp [Offer.answers]
  simp [Side.openings, Pair.send, List.filter_append, hnone]

/-- Settling an answered offer moves the opening of its transfer from the offer to a job. -/
theorem Pair.openings_settle (p : Pair) {before after : List Offer} {o : Offer}
    (ho : p.sender.offers = before ++ o :: after) (id : TransferId) :
    (p.settle before after o).sender.openings id = p.sender.openings id := by
  simp only [Side.openings, Pair.settle, ho]
  cases ha : o.answer with
  | none => simp [List.filter_append, Offer.answers, ha]
  | some r =>
    cases r with
    | error e => simp [List.filter_append, Offer.answers, ha]
    | ok i =>
      by_cases hid : i = id
      · simp [List.filter_append, Offer.answers, ha, Work.opens, hid]
        omega
      · simp [List.filter_append, Offer.answers, ha, Work.opens, hid]

namespace Course

variable (c : Course) {p : Pair}

/-- A round of the sender's pump thread, seen by the shipment: the hub's flow is the one after its
round, and the requests the round made join the events due to the sender, behind those that
waited in its inbox, in its window and in its queue. -/
theorem transit_round_sender_eq {n : Node} (hks : p.sender.key = c.sender) (hkr : p.receiver.key = c.receiver)
    (hne : c.receiver ≠ c.sender) (hn : p.net.node? c.sender = some n)
    (hrun : p.sender.bridge.running = true) (ho : p.sender.bridge.windows.Ordered)
    (hkeep : p.sender.bridge.windows.Keeps c.outbound p.clock) {rs : List ChunkRequest}
    (hcalm : Calm (p.sender.bridge.windows.pendingOf c.outbound)
      (eventsFor c.outbound ((p.net.inbox c.sender).map .event) ++ rs.map (.pull c.outbound)))
    (hE : eventsFor c.outbound ((p.net.pump c.sender).2.map .event) =
      eventsFor c.outbound ((p.net.inbox c.sender).map .event) ++ rs.map (.pull c.outbound)) :
    (p.round .sender).sender.bridge.windows.Ordered ∧
    c.transit (p.round .sender) =
      { c.transit p with
        flow := (p.net.pump c.sender).1.flow? c.file
        toSender := (c.transit p).toSender ++ rs.map (.pull c.outbound) } := by
  have hw : (Network.wire p.sender.key).pump p.net = p.net.pump c.sender := by rw [wire_pump, hks]
  obtain ⟨ho', heq⟩ := pumpOnce_eventsFor p.sender.bridge (Network.wire p.sender.key) p.net p.clock
    c.outbound hrun ho hkeep (by rw [hw, hE]; exact hcalm)
  have heq' : eventsFor c.outbound (p.pumped .sender).2.2 ++
      ((p.pumped .sender).1.windows.pendingOf c.outbound).map (.pull c.outbound) =
      (p.sender.bridge.windows.pendingOf c.outbound).map (.pull c.outbound) ++
        eventsFor c.outbound ((p.net.inbox c.sender).map .event) ++ rs.map (.pull c.outbound) := by
    rw [List.append_assoc, ← hE, ← hw]
    exact heq
  have hnet : (p.pumped .sender).2.1 = (p.net.pump c.sender).1 := by
    rw [Pair.pumped_net p (x := .sender) hrun]
    simp [hks]
  refine ⟨ho', ?_⟩
  rw [Pair.round_sender]
  ext1
  · rfl
  · rfl
  · simp only [Course.transit, Side.stream, Side.queued, hnet, hks, inbox_pump_self hn, List.map_nil,
      eventsFor_nil, List.append_nil, eventsFor_append, List.append_assoc]
    rw [heq']
    simp
  · rfl
  · simp [Course.transit, hnet]
  · rfl
  · simp [Course.transit, Side.stream, Side.queued, hnet, hkr, inbox_pump_ne hne]
  · rfl

/-- A round of the sender's pump thread moves the shipment's transit by the hub's requests, or
leaves it as it was. -/
theorem transit_round_sender {n : Node} (hg : (c.transit p).Good c.toShipment)
    (hks : p.sender.key = c.sender) (hkr : p.receiver.key = c.receiver) (hne : c.receiver ≠ c.sender)
    (hn : p.net.node? c.sender = some n) (hk : n.Knows c.receiver c.outbound.peer)
    (hsingle : p.net.Single c.file) (hrun : p.sender.bridge.running = true)
    (ho : p.sender.bridge.windows.Ordered) (hkeep : p.sender.bridge.windows.Keeps c.outbound p.clock) :
    (p.round .sender).sender.bridge.windows.Ordered ∧
    (c.transit (p.round .sender) = c.transit p ∨
      ∃ fl fl' rs, (c.transit p).flow = some fl ∧ fl.accepted = true ∧
        Tiles fl.requested fl'.requested rs ∧ fl'.requested ≤ fl.size ∧
        fl' = { fl with requested := fl'.requested, outstanding := fl'.outstanding } ∧
        c.transit (p.round .sender) = (c.transit p).pulled c.toShipment fl' rs) := by
  have hdue : (c.transit p).toSender =
      (p.sender.engine.takeHeld c.outbound).2 ++ p.sender.jobs.filterMap (Work.eventFor? c.outbound) ++
        eventsFor c.outbound p.sender.queue ++
        (p.sender.bridge.windows.pendingOf c.outbound).map (.pull c.outbound) ++
        eventsFor c.outbound ((p.net.inbox c.sender).map .event) := by
    simp [Course.transit, Side.stream, Side.queued, hks, List.append_assoc]
  -- only the oldest event due to the sender may be other than a request
  have hcalm : ∀ rs : List ChunkRequest, Calm (p.sender.bridge.windows.pendingOf c.outbound)
      (eventsFor c.outbound ((p.net.inbox c.sender).map .event) ++ rs.map (.pull c.outbound)) :=
    fun rs => calm_of_tail (by rw [← hdue]; exact hg.tail_requests) (by simp [FileEvent.request?])
  rcases pump_shipment (s := c.toShipment) hn hk hsingle (fun fl hf => hg.flow fl hf) with
    ⟨hF, hE⟩ | ⟨fl, fl', rs, hf, ha, ht, hle, heq, hF, hE⟩
  · obtain ⟨ho', h⟩ := transit_round_sender_eq c hks hkr hne hn hrun ho hkeep (hcalm []) (by simpa using hE)
    refine ⟨ho', .inl ?_⟩
    rw [h]
    ext1 <;> simp [Course.transit, Course.file, hF]
  · obtain ⟨ho', h⟩ := transit_round_sender_eq c hks hkr hne hn hrun ho hkeep (hcalm rs) hE
    refine ⟨ho', .inr ⟨fl, fl', rs, hf, ha, ht, hle, heq, ?_⟩⟩
    rw [h]
    ext1 <;> simp [Transit.pulled, Course.file, hF]

/-- A round of the receiver's pump thread leaves the shipment's transit as it was: what it hands on
about the shipment waited in the receiver's inbox, and nothing of the shipment waits in the
receiver's window. -/
theorem transit_round_receiver {n : Node} (hg : (c.transit p).Good c.toShipment)
    (hks : p.sender.key = c.sender) (hkr : p.receiver.key = c.receiver) (hne : c.receiver ≠ c.sender)
    (hn : p.net.node? c.receiver = some n) (hin : c.inbound.file = c.file) (hsingle : p.net.Single c.file)
    (hrun : p.receiver.bridge.running = true) (ho : p.receiver.bridge.windows.Ordered) :
    (p.round .receiver).receiver.bridge.windows.Ordered ∧ c.transit (p.round .receiver) = c.transit p := by
  have hdue : (c.transit p).toReceiver =
      (p.receiver.engine.takeHeld c.inbound).2 ++ p.receiver.jobs.filterMap (Work.eventFor? c.inbound) ++
        eventsFor c.inbound p.receiver.queue ++
        (p.receiver.bridge.windows.pendingOf c.inbound).map (.pull c.inbound) ++
        eventsFor c.inbound ((p.net.inbox c.receiver).map .event) := by
    simp [Course.transit, Side.stream, Side.queued, hkr, List.append_assoc]
  have hnoreq := hg.receiver_requests
  rw [hdue] at hnoreq
  -- no request of the shipment waits in the receiver's window
  have hpend : p.receiver.bridge.windows.pendingOf c.inbound = [] := by
    cases hp : p.receiver.bridge.windows.pendingOf c.inbound with
    | nil => rfl
    | cons r rs =>
      have := hnoreq (.pull c.inbound r) (by simp [hp])
      simp [FileEvent.request?] at this
  have hkeep : p.receiver.bridge.windows.Keeps c.inbound p.clock := fun w hw =>
    .inr (by simpa [WindowTable.pendingOf, hw] using hpend)
  have hsingle' : p.net.Single c.inbound.file := by rw [hin]; exact hsingle
  have hE : eventsFor c.inbound ((p.net.pump c.receiver).2.map .event) =
      eventsFor c.inbound ((p.net.inbox c.receiver).map .event) := by
    have hI : p.net.inbox c.receiver = n.inbox := by simp [inbox, hn]
    rw [pump_eq hn, List.map_append, eventsFor_append, eventsFor_round hsingle', hI, hin]
    cases hf : p.net.flow? c.file with
    | none => simp
    | some fl =>
      have hs : fl.sender ≠ c.receiver := by rw [(hg.flow fl hf).sender]; exact hne.symm
      simp [roundEntry_of_sender_ne n (e := (c.file, fl)) hs]
  have hw : (Network.wire p.receiver.key).pump p.net = p.net.pump c.receiver := by rw [wire_pump, hkr]
  have hcalm : Calm (p.receiver.bridge.windows.pendingOf c.inbound)
      (eventsFor c.inbound (((Network.wire p.receiver.key).pump p.net).2.map .event)) := by
    rw [hw, hE, hpend]
    exact ⟨_, [], (List.append_nil _).symm, fun ev hev => hnoreq ev (by simp [hev]), by simp, fun _ => rfl⟩
  obtain ⟨ho', heq⟩ := pumpOnce_eventsFor p.receiver.bridge (Network.wire p.receiver.key) p.net p.clock
    c.inbound hrun ho hkeep hcalm
  have heq' : eventsFor c.inbound (p.pumped .receiver).2.2 ++
      ((p.pumped .receiver).1.windows.pendingOf c.inbound).map (.pull c.inbound) =
      eventsFor c.inbound ((p.net.inbox c.receiver).map .event) := by
    rw [← hE, ← hw]
    rw [hpend, List.map_nil, List.nil_append] at heq
    exact heq
  have hnet : (p.pumped .receiver).2.1 = (p.net.pump c.receiver).1 := by
    rw [Pair.pumped_net p (x := .receiver) hrun]
    simp [hkr]
  refine ⟨ho', ?_⟩
  rw [Pair.round_receiver]
  ext1
  · rfl
  · rfl
  · simp [Course.transit, Side.stream, Side.queued, hnet, hks, inbox_pump_ne (Ne.symm hne)]
  · rfl
  · simp only [Course.transit, hnet]
    exact flow?_pump_of_sender_ne hn hsingle fun fl hf => by rw [(hg.flow fl hf).sender]; exact hne.symm
  · rfl
  · simp only [Course.transit, Side.stream, Side.queued, hnet, hkr, inbox_pump_self hn, List.map_nil,
      eventsFor_nil, List.append_nil, eventsFor_append, List.append_assoc]
    rw [heq', hpend]
    simp
  · rfl

theorem outbound_eta : (⟨c.outbound.peer, c.outbound.file⟩ : TransferId) = c.outbound := rfl

theorem inbound_eta (hin : c.inbound.file = c.file) :
    (⟨c.inbound.peer, c.outbound.file⟩ : TransferId) = c.inbound := by
  have hin' : c.outbound.file = c.inbound.file := hin.symm
  rw [hin']

/-- The sender's pump thread runs the shipment's oldest chunk: the network takes it, as the
transit machine's `sent` does. -/
theorem transit_serve_sender_chunk (hg : (c.transit p).Good c.toShipment)
    (hks : p.sender.key = c.sender) (hkr : p.receiver.key = c.receiver) (hne : c.receiver ≠ c.sender)
    (hin : c.inbound.file = c.file) (hkS : p.net.Knows c.sender c.receiver c.outbound.peer)
    (hkR : p.net.Knows c.receiver c.sender c.inbound.peer) (hsmall : c.size ≤ maxOffset)
    (hrun : p.sender.bridge.running = true) (ho : p.sender.bridge.windows.Ordered)
    {o : Nat} {data : ByteArray} {rest : List Request}
    (hq : p.sender.requests = .chunk c.outbound o data :: rest) :
    (p.serve .sender (.chunk c.outbound o data) rest).sender.bridge.windows.Ordered ∧
    c.transit (p.serve .sender (.chunk c.outbound o data) rest) = (c.transit p).sent c.toShipment := by
  have hch : (c.transit p).chunks = (o, data) :: rest.filterMap (Request.chunkOf? c.outbound) := by
    simp [Course.transit, Side.chunksFor, hq, Request.chunkOf?]
  obtain ⟨fl, hf, hd, hend⟩ := hg.oldest_chunk hch
  have fits := hg.flow fl hf
  have hf' : p.net.flow? c.outbound.file = some fl := hf
  have hbig : fl.size < Nat.pow 2 64 := by
    have : maxOffset < Nat.pow 2 64 := by decide
    rw [fits.size]; omega
  have hsc := sendChunk_of_flow (fits.receiver ▸ hkS) hf' fits.sender hd (by rw [fits.size]; exact hend) hbig
  simp only at hsc
  -- the pump thread's chunk goes through, and the window frees a slot
  have hwire : ∀ net', p.net.sendChunk c.sender c.outbound o data = .ok net' →
      (Network.wire p.sender.key).sendChunk p.net c.outbound o data = (net', .ok ()) := by
    intro net' h
    rw [wire_sendChunk, hks, h]
    rfl
  obtain ⟨ho', heq⟩ := chunk_eventsFor p.sender.bridge (Network.wire p.sender.key) p.net p.clock c.outbound o
    data c.outbound hrun ho (fun _ => ⟨(), by rw [hwire _ hsc]⟩)
  have hnet : ∀ net', p.net.sendChunk c.sender c.outbound o data = .ok net' →
      (p.sender.bridge.chunk (Network.wire p.sender.key) p.net p.clock c.outbound o data).2.1 = net' := by
    intro net' h
    simp [Bridge.chunk, hrun, hks, h, Except.map]
  refine ⟨ho', ?_⟩
  rw [hks] at heq
  have heq₂ : ∀ X, eventsFor c.outbound
      (p.sender.bridge.chunk (Network.wire c.sender) p.net p.clock c.outbound o data).2.2 ++
      (((p.sender.bridge.chunk (Network.wire c.sender) p.net p.clock c.outbound o data).1.windows.pendingOf
        c.outbound).map (.pull c.outbound) ++ X) =
      (p.sender.bridge.windows.pendingOf c.outbound).map (.pull c.outbound) ++ X := fun X => by
    rw [← List.append_assoc, heq]
  have hpS := Knows.peerAt hkS
  have hpR := Knows.peerAt hkR
  have hidS := c.outbound_eta
  have hidR := c.inbound_eta hin
  have hfl₁ : ((p.net.setFlow c.outbound.file
      { fl with outstanding := fl.outstanding - 1, delivered := max fl.delivered (o + data.size) }).post
        fl.receiver c.sender (fun q => .chunkReceived ⟨q, c.outbound.file⟩ o data)).flow? c.outbound.file =
      some { fl with outstanding := fl.outstanding - 1, delivered := max fl.delivered (o + data.size) } := by
    simp [flow?_setFlow]
  rw [Pair.serve_sender_chunk, Transit.sent_of hch hf, hnet _ hsc]
  simp only
  split
  · -- every byte has arrived: the flow ends and both end markers are due
    rw [complete_of_flow hfl₁]
    ext1
    · rfl
    · rfl
    · simp only [Course.transit, Side.stream, Side.queued, hks, eventsFor_append, List.append_assoc]
      rw [heq₂]
      simp [hpS, fits.sender, fits.receiver, fits.size, Ne.symm hne, hidS, Shipment.senderEnd]
    · simp [Course.transit, Side.chunksFor]
    · simp [Course.transit, Course.file, flow?_dropFlow]
    · rfl
    · simp [Course.transit, Side.stream, Side.queued, hkr, hpR, fits.sender, fits.receiver, fits.size,
        hne, hidR, Shipment.receiverEnd]
    · rfl
  · -- the flow goes on with its delivered mark at the chunk's end
    ext1
    · rfl
    · rfl
    · simp only [Course.transit, Side.stream, Side.queued, hks, eventsFor_append, List.append_assoc]
      rw [heq₂]
      simp [fits.receiver, Ne.symm hne]
    · simp [Course.transit, Side.chunksFor]
    · simp [Course.transit, Course.file, flow?_setFlow]
    · rfl
    · simp [Course.transit, Side.stream, Side.queued, hkr, hpR, fits.receiver, hidR]
    · rfl

/-- The receiver's pump thread runs the shipment's resume: the flow is accepted, as the transit
machine's `accepts` does. -/
theorem transit_serve_receiver_resume (hg : (c.transit p).Good c.toShipment)
    (hks : p.sender.key = c.sender) (hkr : p.receiver.key = c.receiver) (hne : c.receiver ≠ c.sender)
    (hin : c.inbound.file = c.file) (hkS : p.net.Knows c.sender c.receiver c.outbound.peer)
    (hkR : p.net.Knows c.receiver c.sender c.inbound.peer) (hrun : p.receiver.bridge.running = true)
    {rest : List Request} (hq : p.receiver.requests = .control c.inbound .resume :: rest) :
    c.transit (p.serve .receiver (.control c.inbound .resume) rest) = (c.transit p).accepts c.toShipment := by
  have hco : (c.transit p).controls = .resume :: rest.filterMap (Request.controlOf? c.inbound) := by
    simp [Course.transit, Side.controlsFor, hq, Request.controlOf?]
  obtain ⟨fl, hf, -, -, -⟩ := hg.oldest_control hco
  have fits := hg.flow fl hf
  have hf' : p.net.flow? c.inbound.file = some fl := by rw [hin]; exact hf
  have hsc := setControl_resume_of_flow (fits.sender ▸ hkR) hf' fits.receiver
    (by rw [fits.sender]; exact Ne.symm hne)
  simp only at hsc
  have hnet : ∀ net', p.net.setControl c.receiver c.inbound .resume = .ok net' →
      p.receiver.bridge.control (Network.wire p.receiver.key) p.net c.inbound .resume = (net', []) := by
    intro net' h
    simp [Bridge.control, hrun, hkr, h, Except.map]
  have hpS := Knows.peerAt hkS
  have hpR := Knows.peerAt hkR
  have hidS : (⟨c.outbound.peer, c.inbound.file⟩ : TransferId) = c.outbound := by
    have hin' : c.inbound.file = c.outbound.file := hin
    rw [hin']
  have hidR : (⟨c.inbound.peer, c.inbound.file⟩ : TransferId) = c.inbound := rfl
  have hfile : c.outbound.file = c.inbound.file := hin.symm
  have hfl₁ : ((p.net.setFlow c.inbound.file
      { fl with accepted := true, paused := false, requested := fl.delivered, outstanding := 0 }).post
        fl.sender c.receiver (fun q => .fileControl ⟨q, c.inbound.file⟩ .resume)).flow? c.inbound.file =
      some { fl with accepted := true, paused := false, requested := fl.delivered, outstanding := 0 } := by
    simp [flow?_setFlow]
  rw [Pair.serve_receiver_control, Transit.accepts_of hco hf, hnet _ hsc]
  split
  · -- an empty file is complete at once
    rw [complete_of_flow hfl₁]
    ext1
    · rfl
    · rfl
    · simp [Course.transit, Side.stream, Side.queued, hks, hpS, fits.sender, fits.receiver, fits.size,
        Ne.symm hne, hidS, Shipment.senderEnd]
    · rfl
    · simp [Course.transit, Course.file, hfile, flow?_dropFlow]
    · rfl
    · simp [Course.transit, Side.stream, Side.queued, hkr, hpR, fits.sender, fits.receiver, fits.size,
        hne, hidR, Shipment.receiverEnd]
    · simp [Course.transit, Side.controlsFor]
  · ext1
    · rfl
    · rfl
    · simp [Course.transit, Side.stream, Side.queued, hks, hpS, fits.sender, hidS]
    · rfl
    · simp [Course.transit, Course.file, hfile, flow?_setFlow]
    · rfl
    · simp [Course.transit, Side.stream, Side.queued, hkr, fits.sender, hne]
    · simp [Course.transit, Side.controlsFor]

/-- The shipment's flow knows each party as the other's counterpart. -/
theorem counterparts (hg : (c.transit p).Good c.toShipment) (hne : c.receiver ≠ c.sender) {fl : Flow}
    (hf : p.net.flow? c.file = some fl) :
    fl.counterpart? c.sender = some c.receiver ∧ fl.counterpart? c.receiver = some c.sender := by
  have fits := hg.flow fl hf
  simp [Flow.counterpart?, fits.sender, fits.receiver, hne]

/-- The sender's pump thread runs a call of another transfer: the shipment's transit stays. -/
theorem transit_serve_sender_other (hg : (c.transit p).Good c.toShipment)
    (hks : p.sender.key = c.sender) (hne : c.receiver ≠ c.sender) (hin : c.inbound.file = c.file)
    (hkS : p.net.Knows c.sender c.receiver c.outbound.peer) (hrun : p.sender.bridge.running = true)
    (ho : p.sender.bridge.windows.Ordered) {r : Request} {rest : List Request}
    (hq : p.sender.requests = r :: rest) (hcall : r.isCall = true) (hchunk : r.chunkOf? c.outbound = none)
    (hcontrol : r.controlOf? c.outbound = none) :
    (p.serve .sender r rest).sender.bridge.windows.Ordered ∧ c.transit (p.serve .sender r rest) = c.transit p := by
  have hkS' : p.net.Knows p.sender.key c.receiver c.outbound.peer := by rw [hks]; exact hkS
  have hc : ∀ fl, p.net.flow? c.file = some fl → fl.counterpart? p.sender.key = some c.receiver :=
    fun fl hf => by rw [hks]; exact (c.counterparts hg hne hf).1
  cases r with
  | chunk id o d =>
    have hid : id ≠ c.outbound := by intro h; subst h; simp [Request.chunkOf?] at hchunk
    have haside := Bridge.chunk_aside (b := p.sender.bridge) p.clock ((aside_of_foreign hkS' hc hid).1 o d)
    obtain ⟨ho', heq⟩ := chunk_eventsFor p.sender.bridge (Network.wire p.sender.key) p.net p.clock id o d
      c.outbound hrun ho (fun h => absurd h hid)
    have heq₂ : ∀ X, eventsFor c.outbound (p.sender.bridge.chunk (Network.wire p.sender.key) p.net p.clock id o d).2.2 ++
        (((p.sender.bridge.chunk (Network.wire p.sender.key) p.net p.clock id o d).1.windows.pendingOf
          c.outbound).map (.pull c.outbound) ++ X) =
        (p.sender.bridge.windows.pendingOf c.outbound).map (.pull c.outbound) ++ X := fun X => by
      rw [← List.append_assoc, heq]
    rw [Pair.serve_sender_chunk]
    refine ⟨ho', ?_⟩
    ext1
    · rfl
    · rfl
    · simp only [Course.transit, Side.stream, Side.queued, eventsFor_append, List.append_assoc]
      rw [heq₂, eventsFor_inbox_of_aside haside rfl]
    · simp [Course.transit, Side.chunksFor, hq, Request.chunkOf?, hid]
    · exact haside.flow?
    · rfl
    · simp only [Course.transit, Side.stream, Side.queued]
      rw [eventsFor_inbox_of_aside haside hin]
    · rfl
  | control id k =>
    have hid : id ≠ c.outbound := by intro h; subst h; simp [Request.controlOf?] at hcontrol
    have haside := Bridge.control_aside (b := p.sender.bridge) ((aside_of_foreign hkS' hc hid).2 k)
    rw [Pair.serve_sender_control]
    refine ⟨ho, ?_⟩
    ext1
    · rfl
    · rfl
    · simp only [Course.transit, Side.stream, Side.queued, eventsFor_append,
        Bridge.control_eventsFor _ _ _ k hid, List.append_nil]
      rw [eventsFor_inbox_of_aside haside rfl]
    · simp only [Course.transit, Side.chunksFor, hq]
      rfl
    · exact haside.flow?
    · rfl
    · simp only [Course.transit, Side.stream, Side.queued]
      rw [eventsFor_inbox_of_aside haside hin]
    · rfl
  | _ => simp [Request.isCall] at hcall

/-- The receiver's pump thread runs a call of another transfer: the shipment's transit stays. -/
theorem transit_serve_receiver_other (hg : (c.transit p).Good c.toShipment)
    (hkr : p.receiver.key = c.receiver) (hne : c.receiver ≠ c.sender) (hin : c.inbound.file = c.file)
    (hkR : p.net.Knows c.receiver c.sender c.inbound.peer) (hrun : p.receiver.bridge.running = true)
    (ho : p.receiver.bridge.windows.Ordered) {r : Request} {rest : List Request}
    (hq : p.receiver.requests = r :: rest) (hcall : r.isCall = true) (hchunk : r.chunkOf? c.inbound = none)
    (hcontrol : r.controlOf? c.inbound = none) :
    (p.serve .receiver r rest).receiver.bridge.windows.Ordered ∧
      c.transit (p.serve .receiver r rest) = c.transit p := by
  have hkR' : p.net.Knows p.receiver.key c.sender c.inbound.peer := by rw [hkr]; exact hkR
  have hc : ∀ fl, p.net.flow? c.file = some fl → fl.counterpart? p.receiver.key = some c.sender :=
    fun fl hf => by rw [hkr]; exact (c.counterparts hg hne hf).2
  have heta : (⟨c.inbound.peer, c.file⟩ : TransferId) = c.inbound := c.inbound_eta hin
  cases r with
  | chunk id o d =>
    have hid : id ≠ c.inbound := by intro h; subst h; simp [Request.chunkOf?] at hchunk
    have haside := Bridge.chunk_aside (b := p.receiver.bridge) p.clock
      ((aside_of_foreign hkR' hc (by rw [heta]; exact hid)).1 o d)
    obtain ⟨ho', heq⟩ := chunk_eventsFor p.receiver.bridge (Network.wire p.receiver.key) p.net p.clock id o d
      c.inbound hrun ho (fun h => absurd h hid)
    have heq₂ : ∀ X, eventsFor c.inbound (p.receiver.bridge.chunk (Network.wire p.receiver.key) p.net p.clock id o d).2.2 ++
        (((p.receiver.bridge.chunk (Network.wire p.receiver.key) p.net p.clock id o d).1.windows.pendingOf
          c.inbound).map (.pull c.inbound) ++ X) =
        (p.receiver.bridge.windows.pendingOf c.inbound).map (.pull c.inbound) ++ X := fun X => by
      rw [← List.append_assoc, heq]
    rw [Pair.serve_receiver_chunk]
    refine ⟨ho', ?_⟩
    ext1
    · rfl
    · rfl
    · simp only [Course.transit, Side.stream, Side.queued]
      rw [eventsFor_inbox_of_aside haside rfl]
    · rfl
    · exact haside.flow?
    · rfl
    · simp only [Course.transit, Side.stream, Side.queued, eventsFor_append, List.append_assoc]
      rw [heq₂, eventsFor_inbox_of_aside haside hin]
    · simp only [Course.transit, Side.controlsFor, hq]
      rfl
  | control id k =>
    have hid : id ≠ c.inbound := by intro h; subst h; simp [Request.controlOf?] at hcontrol
    have haside := Bridge.control_aside (b := p.receiver.bridge)
      ((aside_of_foreign hkR' hc (by rw [heta]; exact hid)).2 k)
    rw [Pair.serve_receiver_control]
    refine ⟨ho, ?_⟩
    ext1
    · rfl
    · rfl
    · simp only [Course.transit, Side.stream, Side.queued]
      rw [eventsFor_inbox_of_aside haside rfl]
    · rfl
    · exact haside.flow?
    · rfl
    · simp only [Course.transit, Side.stream, Side.queued, eventsFor_append,
        Bridge.control_eventsFor _ _ _ k hid, List.append_nil]
      rw [eventsFor_inbox_of_aside haside hin]
    · simp [Course.transit, Side.controlsFor, hq, Request.controlOf?, hid]
  | _ => simp [Request.isCall] at hcall

/-! ## The sender's offers, its dispatchers and the clock -/

/-- An offer numbered other than the shipment's file leaves its transit. -/
theorem transit_offer_other (hnext : p.net.nextFile ≠ c.file) (hin : c.inbound.file = c.file)
    {before after : List Offer} {o : Offer} (ho : p.sender.offers = before ++ o :: after) (hw : o.answer = none) :
    c.transit (p.offer before after o) = c.transit p ∧
      Aside c.file p.net (p.offer before after o).net := by
  obtain ⟨haside, hid⟩ := @Bridge.offerFile_aside p.sender.bridge p.net p.sender.key c.file o.peer
    (offerName o.file.path) o.file.size hnext
  have hnet : (p.offer before after o).net =
      (p.sender.bridge.offerFile (Network.wire p.sender.key) p.net o.peer (offerName o.file.path) o.file.size).1 :=
    rfl
  rw [← hnet] at haside
  refine ⟨?_, haside⟩
  ext1
  · rfl
  · simp only [Course.transit, Pair.openings_offer p ho hw hnext]
  · simp only [Course.transit, Side.stream, Side.queued]
    rw [eventsFor_inbox_of_aside haside rfl]
    rfl
  · rfl
  · exact haside.flow?
  · rfl
  · simp only [Course.transit, Side.stream, Side.queued]
    rw [eventsFor_inbox_of_aside haside hin]
    rfl
  · rfl

/-- A send request only queues offers: the transit stays. -/
theorem transit_send (peer : UInt32) (files : List SourceFile) : c.transit (p.send peer files) = c.transit p := by
  ext1
  · rfl
  · simp only [Course.transit, Pair.openings_send]
  all_goals rfl

/-- Settling an answered offer moves the opening of its transfer from the offer to a job: the
transit stays. -/
theorem transit_settle (before after : List Offer) (o : Offer)
    (ho : p.sender.offers = before ++ o :: after) : c.transit (p.settle before after o) = c.transit p := by
  ext1
  · rfl
  · simp only [Course.transit, Pair.openings_settle p ho]
  · simp only [Course.transit, Pair.settle, Side.stream]
    split <;> simp [Work.eventFor?] <;> rfl
  all_goals rfl

/-- A dispatcher hands its oldest item on: the transit stays. -/
theorem transit_dispatch {x : Party} {item : Inbound} {rest : List Inbound}
    (hslot : (p.side x).bridge.fileSlot.isSome = true) (hq : (p.side x).queue = item :: rest) :
    c.transit (p.dispatch x item rest) = c.transit p := by
  rw [Pair.dispatch_eq]
  cases x with
  | sender =>
    ext1
    · rfl
    · simp [Course.transit, Side.openings_dispatched]
    · simp only [Course.transit, Pair.setSide_sender, Pair.side_sender]
      exact Side.stream_dispatched hslot hq _ _
    all_goals rfl
  | receiver =>
    ext1
    any_goals rfl
    simp only [Course.transit, Pair.setSide_receiver, Pair.side_receiver]
    exact Side.stream_dispatched hslot hq _ _

end Course

end Courier.Transfer
