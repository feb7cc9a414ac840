-- One shipment along every run of the pair: what holds while it is under way (`Course.Tracks`),
-- what a move must leave alone (`Course.Allowed`), and that every allowed move keeps the first.
import Courier.Proofs.PairNetwork
import Courier.Proofs.NetworkRuns
import Courier.Proofs.PumpDelivery

namespace Courier.Network

/-- What a move keeps of the network for a flow: every node's friends, and the flow's entry alone
at its number. -/
structure Kept (file : UInt32) (net net' : Network) : Prop where
  friends : SameFriends net net'
  single : net.Single file → net'.Single file

namespace Kept

variable {file : UInt32}

theorem refl (net : Network) : Kept file net net := ⟨SameFriends.refl net, id⟩

theorem trans {a b c : Network} (h₁ : Kept file a b) (h₂ : Kept file b c) : Kept file a c :=
  ⟨h₁.friends.trans h₂.friends, h₂.single ∘ h₁.single⟩

theorem knows {net net' : Network} (h : Kept file net net') {a b : PublicKey} {peer : UInt32}
    (hk : net.Knows a b peer) : net'.Knows a b peer :=
  hk.of_sameFriends h.friends

end Kept

theorem Aside.kept {file : UInt32} {net net' : Network} (h : Aside file net net') : Kept file net net' :=
  ⟨h.friends, h.single⟩

theorem kept_setFlow (net : Network) (file file' : UInt32) (f : Flow) : Kept file' net (net.setFlow file f) :=
  ⟨fun _ => rfl, single_setFlow net file file' f⟩

theorem kept_dropFlow (net : Network) (file file' : UInt32) : Kept file' net (net.dropFlow file) :=
  ⟨fun _ => rfl, single_dropFlow net file file'⟩

theorem kept_post (net : Network) (dest src : PublicKey) (make : UInt32 → Event) (file : UInt32) :
    Kept file net (net.post dest src make) :=
  ⟨sameFriends_post net dest src make, single_post net dest src make⟩

theorem kept_complete (net : Network) (file file' : UInt32) : Kept file' net (net.complete file) := by
  unfold complete
  split
  · exact Kept.refl net
  · exact ((kept_dropFlow net file file').trans (kept_post _ _ _ _ file')).trans (kept_post _ _ _ _ file')

theorem kept_pump (net : Network) (me : PublicKey) (file : UInt32) : Kept file net (net.pump me).1 :=
  ⟨sameFriends_pump net me, single_pump⟩

theorem kept_sendChunk {net net' : Network} {me : PublicKey} {id : TransferId} {o : Nat} {d : ByteArray}
    (h : net.sendChunk me id o d = .ok net') (file : UInt32) : Kept file net net' := by
  obtain ⟨f, -, -, -, -, rfl⟩ := sendChunk_ok h
  dsimp only
  split
  · exact ((kept_setFlow _ _ _ _).trans (kept_post _ _ _ _ _)).trans (kept_complete _ _ _)
  · exact (kept_setFlow _ _ _ _).trans (kept_post _ _ _ _ _)

theorem kept_setControl {net net' : Network} {me : PublicKey} {id : TransferId} {k : FileControl}
    (h : net.setControl me id k = .ok net') (file : UInt32) : Kept file net net' := by
  unfold setControl at h
  cases hf : net.flowOf me id with
  | error e => rw [hf] at h; cases h
  | ok fl =>
    simp only [hf, bind, Except.bind, pure, Except.pure, Except.ok.injEq] at h
    subst h
    cases k with
    | resume =>
      simp only
      split
      · exact ((kept_setFlow _ _ _ _).trans (kept_post _ _ _ _ _)).trans (kept_complete _ _ _)
      · exact (kept_setFlow _ _ _ _).trans (kept_post _ _ _ _ _)
    | pause => exact (kept_setFlow _ _ _ _).trans (kept_post _ _ _ _ _)
    | cancel => exact (kept_dropFlow _ _ _).trans (kept_post _ _ _ _ _)

end Courier.Network

namespace Courier

open Network

namespace Bridge

variable (b : Bridge) (w : Wire ω) (x : ω) (now : Nat)

/-! A round and a chunk keep the bridge's handlers. -/

@[simp] theorem pumpOnce_fileSlot : (b.pumpOnce w x now).1.fileSlot = b.fileSlot := by
  unfold pumpOnce
  split <;> rfl

@[simp] theorem chunk_fileSlot (id : TransferId) (o : Nat) (d : ByteArray) :
    (b.chunk w x now id o d).1.fileSlot = b.fileSlot := by
  unfold chunk
  split <;> rfl

theorem chunk_kept {net : Network} {me : PublicKey} (id : TransferId) (o : Nat) (d : ByteArray)
    (file : UInt32) : Kept file net (b.chunk (Network.wire me) net now id o d).2.1 := by
  unfold Bridge.chunk
  split
  · exact Kept.refl net
  · cases hs : net.sendChunk me id o d with
    | error e => simp [hs, Except.map]; exact Kept.refl net
    | ok net' => simpa [hs, Except.map] using kept_sendChunk hs file

theorem control_kept {net : Network} {me : PublicKey} (id : TransferId) (k : FileControl) (file : UInt32) :
    Kept file net (b.control (Network.wire me) net id k).1 := by
  unfold Bridge.control
  split
  · exact Kept.refl net
  · cases hs : net.setControl me id k with
    | error e => simp [hs, Except.map]; exact Kept.refl net
    | ok net' => simpa [hs, Except.map] using kept_setControl hs file

end Bridge

end Courier

namespace Courier.Transfer

open Network Files

/-- Whether a call pauses or cancels a transfer. -/
def Call.stops (id : TransferId) : Call → Bool
  | .control i .pause | .control i .cancel => i == id
  | _ => false

namespace Engine

variable (e : Engine) (d : Desk)

theorem handle_chunkOf? {ev : FileEvent} (hev : ev.request? = none) (id : TransferId) :
    (e.handle d ev).desk.calls.toList.filterMap (Call.chunkOf? id) =
      d.calls.toList.filterMap (Call.chunkOf? id) := by
  -- a control call adds no chunk, on whatever desk with the same calls it is made
  have hctl : ∀ (e' : Engine) (d' : Desk) (i : TransferId) (k : FileControl), d'.calls = d.calls →
      (e'.calling d' (.control i k)).desk.calls.toList.filterMap (Call.chunkOf? id) =
        d.calls.toList.filterMap (Call.chunkOf? id) := by
    intro e' d' i k hd
    simp only [calling_desk, Desk.call]
    split <;> simp [hd, Call.chunkOf?]
  cases ev with
  | offered i name size =>
    simp only [handle, offered]
    split
    · exact hctl _ _ _ _ rfl
    · split
      · rfl
      · split
        · exact hctl _ _ _ _ rfl
        · exact hctl _ _ _ _ rfl
  | control i k =>
    simp only [handle, control]
    split
    · rfl
    · split <;> rfl
  | pull i r => simp [FileEvent.request?] at hev
  | chunk i o data =>
    simp only [handle, chunk]
    split
    · rfl
    · split
      · rfl
      · split
        · rfl
        · split <;> rfl
  | failed i err => rfl

/-- An offer of a transfer not open yet that is answered with no pause or cancel had a usable name,
and its file was made in the receive directory. -/
theorem offered_made {id : TransferId} {name : String} {size : Nat} (hn : e.find? id = none)
    (hsure : ∀ k, d.breaks k = false)
    (hq : ∀ k ∈ (e.handle d (.offered id name size)).desk.calls.toList, k.stops id = false) :
    ∃ nm v ino, sanitizeName name = some nm ∧ d.volume.createFile (join e.receiveDir nm) = .ok (v, ino) := by
  -- the offer's other answers call a cancel
  have hcancel : e.handle d (.offered id name size) ≠ e.calling d (.control id .cancel) := by
    intro h
    rw [h] at hq
    have := hq (.control id .cancel) (by simp [Desk.call_of_sure (hsure _)])
    simp [Call.stops] at this
  cases hs : sanitizeName name with
  | none => exact absurd (by simp [handle, offered, hs]) hcancel
  | some nm =>
    cases hc : d.volume.createFile (join e.receiveDir nm) with
    | ok r => exact ⟨nm, r.1, r.2, rfl, hc⟩
    | error err => exact absurd (by simp [handle, offered, hs, hn, hc]) hcancel

end Engine

/-! ## The shipment's provisos, its invariant, and how its transfers end -/

namespace Course

variable (c : Course)

/-- Where the receiver keeps the shipment: its offered name, made safe, in the receive directory. -/
def dest (e : Engine) : String := join e.receiveDir ((sanitizeName c.name).getD "")

/-- What a move of the pair must leave alone for the shipment to go through. -/
structure Allowed (p : Pair) (m : Move) (p' : Pair) : Prop where
  /-- The source file is not modified: its path opens the same file, with the same bytes. -/
  source : p'.volume.openFile c.path = p.volume.openFile c.path ∧ p'.volume.blob c.inode = p.volume.blob c.inode
  /-- Nothing but the receiver's own handling of the shipment writes the receiver's file. -/
  dest : (∀ job, m = .work .receiver job → job.id ≠ c.inbound) →
    ∀ u, p.receiver.engine.find? c.inbound = some u → p'.volume.blob u.inode = p.volume.blob u.inode
  /-- The hub's file counter does not come round to the shipment's number. -/
  fresh : m = .offer → p.net.nextFile ≠ c.file
  /-- No flow window of the sender is dropped as stale. -/
  stale : m = .round .sender → p.sender.bridge.windows.Keeps c.outbound p.clock
  /-- No early event of the sender is discarded: none is too old, and there is room for one more. -/
  early : ∀ job, m = .work .sender job →
    p.sender.engine.Young c.outbound p.clock ∧ (job.id = c.outbound → p.sender.engine.heldCount < maxHeld)
  /-- The receiver sends no pause or cancel. -/
  quiet : ∀ job, m = .work .receiver job → ∀ k ∈ (p.turn .receiver job).desk.calls.toList, k.stops c.inbound = false

/-- A move ends the sender's transfer only by its end marker, once the hub has let the flow go. -/
def SenderEnds (p : Pair) (m : Move) (p' : Pair) : Prop :=
  (p.sender.engine.find? c.outbound).isSome = true → p'.sender.engine.find? c.outbound = none →
    m = .work .sender (.event c.senderEnd) ∧ p'.net.flow? c.file = none

/-- A move ends the receiver's transfer only by its end marker, once the hub has let the flow go;
the file it wrote, at the destination, is then the whole file. -/
def ReceiverEnds (p : Pair) (m : Move) (p' : Pair) : Prop :=
  ∀ u, p.receiver.engine.find? c.inbound = some u → p'.receiver.engine.find? c.inbound = none →
    m = .work .receiver (.event c.receiverEnd) ∧ p'.net.flow? c.file = none ∧
      u.path = c.dest p.receiver.engine ∧ p'.volume.blob u.inode = c.bytes

/-- How a move may end either side's transfer. -/
structure Ends (p : Pair) (m : Move) (p' : Pair) : Prop where
  sender : c.SenderEnds p m p'
  receiver : c.ReceiverEnds p m p'

/-- What holds of the pair all along the shipment. -/
structure Tracks (p : Pair) : Prop where
  good : (c.transit p).Good c.toShipment
  sender_key : p.sender.key = c.sender
  receiver_key : p.receiver.key = c.receiver
  apart : c.receiver ≠ c.sender
  same_file : c.inbound.file = c.file
  small : c.size ≤ maxOffset
  knows_sender : p.net.Knows c.sender c.receiver c.outbound.peer
  knows_receiver : p.net.Knows c.receiver c.sender c.inbound.peer
  single : p.net.Single c.file
  serves_sender : p.sender.Serves
  serves_receiver : p.receiver.Serves
  calls_sender : ∀ r ∈ p.sender.requests, r.isCall = true
  calls_receiver : ∀ r ∈ p.receiver.requests, r.isCall = true
  tagged_sender : p.sender.engine.HeldTagged
  tagged_receiver : p.receiver.engine.HeldTagged
  holdable_sender : p.sender.engine.HeldHoldable
  holdable_receiver : p.receiver.engine.HeldHoldable
  /-- The sender's transfer reads the source file, and holds nothing once open. -/
  sender_file : ∀ u, p.sender.engine.find? c.outbound = some u → u.direction = .outbound ∧ u.inode = c.inode
  sender_held : (p.sender.engine.find? c.outbound).isSome = true → p.sender.engine.NoneHeld c.outbound
  /-- The sender opens the transfer at most once more, on the source file. -/
  once : p.sender.openings c.outbound ≤ 1
  creates : ∀ w ∈ p.sender.jobs, w.opens c.outbound = true → w = .create c.outbound c.path c.size
  offers : ∀ o ∈ p.sender.offers, o.answers c.outbound = true → o.file = ⟨c.path, c.size⟩
  receiver_opens : ∀ w ∈ p.receiver.jobs, w.opens c.inbound = false
  /-- The sender calls no control of the shipment, and the receiver no chunk. -/
  quiet_sender : p.sender.controlsFor c.outbound = []
  quiet_receiver : p.receiver.chunksFor c.inbound = []
  receiver_sees : ReceiverSees c p.receiver.engine p.volume (c.dest p.receiver.engine)
  source_path : p.volume.openFile c.path = .ok c.inode
  source_bytes : p.volume.blob c.inode = c.bytes

variable {c}

theorem senderEnds_of_find {p p' : Pair} {m : Move}
    (hs : p'.sender.engine.find? c.outbound = p.sender.engine.find? c.outbound) : c.SenderEnds p m p' := by
  intro hsome hnone
  rw [← hs, hnone] at hsome
  cases hsome

theorem receiverEnds_of_find {p p' : Pair} {m : Move}
    (hr : p'.receiver.engine.find? c.inbound = p.receiver.engine.find? c.inbound) : c.ReceiverEnds p m p' := by
  intro u hu hnone
  rw [hr, hu] at hnone
  cases hnone

theorem ends_of_find {p p' : Pair} {m : Move}
    (hs : p'.sender.engine.find? c.outbound = p.sender.engine.find? c.outbound)
    (hr : p'.receiver.engine.find? c.inbound = p.receiver.engine.find? c.inbound) : c.Ends p m p' :=
  ⟨senderEnds_of_find hs, receiverEnds_of_find hr⟩

section Allowed

variable {p p' : Pair}

/-- A move that keeps the volume and is neither an offer, nor a round of the sender's pump, nor a
job of a worker leaves the shipment alone. -/
theorem allowed_of_volume {m : Move} (hv : p'.volume = p.volume) (hoff : m ≠ .offer)
    (hround : m ≠ .round .sender) (hwork : ∀ x job, m ≠ .work x job) : c.Allowed p m p' where
  source := by rw [hv]; exact ⟨rfl, rfl⟩
  dest _ _ _ := by rw [hv]
  fresh h := absurd h hoff
  stale h := absurd h hround
  early job h := absurd h (hwork _ job)
  quiet job h := absurd h (hwork _ job)

theorem allowed_sender_round (hv : p'.volume = p.volume)
    (hkeep : p.sender.bridge.windows.Keeps c.outbound p.clock) : c.Allowed p (.round .sender) p' where
  source := by rw [hv]; exact ⟨rfl, rfl⟩
  dest _ _ _ := by rw [hv]
  fresh h := by cases h
  stale _ := hkeep
  early _ h := by cases h
  quiet _ h := by cases h

/-- A job of the sender's worker that keeps the volume, while the sender holds no early event,
leaves the shipment alone. -/
theorem allowed_sender_work {job : Work} {rest : List Work}
    (hv : (p.work .sender job rest).volume = p.volume) (hheld : p.sender.engine.held = []) :
    c.Allowed p (.work .sender job) (p.work .sender job rest) where
  source := by rw [hv]; exact ⟨rfl, rfl⟩
  dest _ _ _ := by rw [hv]
  fresh h := by cases h
  stale h := by cases h
  early _ h := by
    cases h
    refine ⟨fun g hg => by simp [hheld] at hg, fun _ => ?_⟩
    simp [Engine.heldCount, hheld, maxHeld]
  quiet _ h := by cases h

/-- A job of the receiver's worker on the shipment's own transfer that keeps the source file and
calls no pause or cancel leaves the shipment alone. -/
theorem allowed_receiver_work {job : Work} {rest : List Work} (hid : job.id = c.inbound)
    (hsrc : (p.work .receiver job rest).volume.openFile c.path = p.volume.openFile c.path ∧
      (p.work .receiver job rest).volume.blob c.inode = p.volume.blob c.inode)
    (hquiet : (p.turn .receiver job).desk.calls.toList.any (·.stops c.inbound) = false) :
    c.Allowed p (.work .receiver job) (p.work .receiver job rest) where
  source := hsrc
  dest h := absurd hid (h job rfl)
  fresh h := by cases h
  stale h := by cases h
  early _ h := by cases h
  quiet _ h := by
    cases h
    exact fun k hk => Bool.eq_false_iff.2 (List.any_eq_false.1 hquiet k hk)

end Allowed

end Course

end Courier.Transfer

namespace Courier

theorem Request.eq_of_chunkOf? {r : Request} {id : TransferId} {o : Nat} {data : ByteArray}
    (h : r.chunkOf? id = some (o, data)) : r = .chunk id o data := by
  cases r with
  | chunk i o' d =>
    simp only [chunkOf?] at h
    split at h
    · rename_i hi
      cases h
      rw [hi]
    · cases h
  | _ => cases h

theorem Request.eq_of_controlOf? {r : Request} {id : TransferId} {k : FileControl}
    (h : r.controlOf? id = some k) : r = .control id k := by
  cases r with
  | control i k' =>
    simp only [controlOf?] at h
    split at h
    · rename_i hi
      cases h
      rw [hi]
    · cases h
  | _ => cases h

end Courier

namespace Courier.Transfer

open Network Files

namespace Transit

variable {s : Shipment} {t : Transit}

theorem senderTakes_of_nil (h : t.toSender = []) : t.senderTakes s = t := by
  unfold senderTakes
  rw [h]

/-- The sender handles events one after another from an open transfer: everything still fits, also
once it has dropped the transfer, since nothing is due to it after its end marker. -/
theorem Good.iterate_senderTakes (h : t.Good s) (hs : t.sender.isSome = true) (k : Nat) :
    (Nat.iterate (Transit.senderTakes s) k t).Good s := by
  induction k generalizing t with
  | zero => exact h
  | succ k ih =>
    rw [Function.iterate_succ_apply]
    by_cases hd : (t.senderTakes s).sender = none
    · obtain ⟨hq, -⟩ := h.senderTakes_drops hs hd
      have hnil : (t.senderTakes s).toSender = [] := by rw [senderTakes_toSender, hq]; rfl
      rw [Function.iterate_fixed (senderTakes_of_nil hnil)]
      exact h.senderTakes hs
    · exact ih (h.senderTakes hs) (Option.isSome_iff_ne_none.2 hd)

end Transit

namespace Side

theorem jobs_dispatched (s : Side) (item : Inbound) (rest : List Inbound) :
    ∀ w ∈ (s.dispatched item rest).jobs, w ∈ s.jobs ∨ ∃ ev, w = .event ev := by
  intro w hw
  simp only [dispatched] at hw
  split at hw
  · rcases List.mem_append.1 hw with hw | hw
    · exact .inl hw
    · exact .inr ⟨_, List.mem_singleton.1 hw⟩
  · exact .inl hw

theorem Serves.of_bridge {s s' : Side} (h : s.Serves) (hb : s'.bridge = s.bridge) : s'.Serves :=
  ⟨hb ▸ h.running, hb ▸ h.slot, hb ▸ h.ordered⟩

theorem openings_le_of_jobs {s s' : Side} {id : TransferId} (ho : s'.offers = s.offers) {job : Work}
    (hj : s.jobs = job :: s'.jobs) : s'.openings id ≤ s.openings id := by
  simp only [openings, ho, hj, List.filter_cons]
  split <;> simp

end Side

/-- The pump thread running an engine's call: the network keeps what the shipment needs, the volume
stays, and the node's bridge keeps running with its handlers. -/
theorem Pair.serve_call (p : Pair) (x : Party) {r : Request} (hcall : r.isCall = true) (rest : List Request)
    (file : UInt32) :
    Kept file p.net (p.serve x r rest).net ∧ (p.serve x r rest).volume = p.volume ∧
      ((p.serve x r rest).side x).bridge.running = (p.side x).bridge.running ∧
      ((p.serve x r rest).side x).bridge.fileSlot = (p.side x).bridge.fileSlot := by
  cases r with
  | control id k =>
    cases x with
    | sender =>
      rw [Pair.serve_sender_control]
      exact ⟨Bridge.control_kept _ _ _ _, rfl, rfl, rfl⟩
    | receiver =>
      rw [Pair.serve_receiver_control]
      exact ⟨Bridge.control_kept _ _ _ _, rfl, rfl, rfl⟩
  | chunk id o d =>
    cases x with
    | sender =>
      rw [Pair.serve_sender_chunk]
      exact ⟨Bridge.chunk_kept _ _ _ _ _ _, rfl, by simp, by simp⟩
    | receiver =>
      rw [Pair.serve_receiver_chunk]
      exact ⟨Bridge.chunk_kept _ _ _ _ _ _, rfl, by simp, by simp⟩
  | _ => simp [Request.isCall] at hcall

theorem Pair.chunksFor_work (p : Pair) (x : Party) (job : Work) (rest : List Work) (id : TransferId) :
    ((p.work x job rest).side x).chunksFor id =
      (p.side x).chunksFor id ++ (p.turn x job).desk.calls.toList.filterMap (Call.chunkOf? id) := by
  cases x <;> exact Side.chunksFor_of_calls rfl

theorem Pair.controlsFor_work (p : Pair) (x : Party) (job : Work) (rest : List Work) (id : TransferId) :
    ((p.work x job rest).side x).controlsFor id =
      (p.side x).controlsFor id ++ (p.turn x job).desk.calls.toList.filterMap (Call.controlOf? id) := by
  cases x <;> exact Side.controlsFor_of_calls rfl

/-- The bridge, network and items of a round: the network keeps what the shipment needs, and the
bridge keeps running with its handlers. -/
theorem Pair.pumped_kept (p : Pair) {x : Party} (hrun : (p.side x).bridge.running = true) (file : UInt32) :
    Kept file p.net (p.pumped x).2.1 ∧ (p.pumped x).1.running = (p.side x).bridge.running ∧
      (p.pumped x).1.fileSlot = (p.side x).bridge.fileSlot := by
  rw [Pair.pumped_net p hrun]
  exact ⟨kept_pump _ _ _, by simp [Pair.pumped], by simp [Pair.pumped]⟩

namespace Course.Tracks

variable {c : Course} {p : Pair}

/-! ## The moves that leave the engines and the volume alone -/

theorem tick (h : c.Tracks p) (now : Nat) : c.Tracks { p with clock := now } := { h with }

theorem send (h : c.Tracks p) (peer : UInt32) (files : List SourceFile) : c.Tracks (p.send peer files) :=
  { h with
    good := by rw [Course.transit_send]; exact h.good
    serves_sender := h.serves_sender.of_bridge rfl
    once := by rw [Pair.openings_send]; exact h.once
    offers := by
      intro o ho ha
      rcases List.mem_append.1 ho with ho | ho
      · exact h.offers o ho ha
      · obtain ⟨f, -, rfl⟩ := List.mem_map.1 ho
        simp [Offer.answers] at ha }

theorem dispatch (h : c.Tracks p) {x : Party} {item : Inbound} {rest : List Inbound}
    (hq : (p.side x).queue = item :: rest) : c.Tracks (p.dispatch x item rest) := by
  have hslot : (p.side x).bridge.fileSlot.isSome = true := by
    cases x
    · exact h.serves_sender.slot
    · exact h.serves_receiver.slot
  have hgood : (c.transit (p.dispatch x item rest)).Good c.toShipment := by
    rw [Course.transit_dispatch c hslot hq]
    exact h.good
  rw [Pair.dispatch_eq] at hgood ⊢
  cases x with
  | sender =>
    refine { h with good := hgood, serves_sender := h.serves_sender.of_bridge rfl, once := ?_, creates := ?_ }
    · simp only [Pair.setSide_sender, Side.openings_dispatched]
      exact h.once
    · intro w hw ho
      rcases Side.jobs_dispatched _ _ _ w hw with hw | ⟨ev, rfl⟩
      · exact h.creates w hw ho
      · simp [Work.opens] at ho
  | receiver =>
    refine { h with good := hgood, serves_receiver := h.serves_receiver.of_bridge rfl, receiver_opens := ?_ }
    intro w hw
    rcases Side.jobs_dispatched _ _ _ w hw with hw | ⟨ev, rfl⟩
    · exact h.receiver_opens w hw
    · rfl

theorem settle (h : c.Tracks p) {before after : List Offer} {o : Offer}
    (ho : p.sender.offers = before ++ o :: after) : c.Tracks (p.settle before after o) :=
  { h with
    good := by rw [Course.transit_settle c before after o ho]; exact h.good
    serves_sender := h.serves_sender.of_bridge rfl
    once := by rw [Pair.openings_settle p ho]; exact h.once
    creates := by
      intro w hw hop
      simp only [Pair.settle] at hw
      split at hw
      · rename_i i hans
        rcases List.mem_append.1 hw with hw | hw
        · exact h.creates w hw hop
        · -- a transfer of the shipment comes from an offer of the source file
          rw [List.mem_singleton] at hw
          subst hw
          simp only [Work.opens, beq_iff_eq] at hop
          subst hop
          have hfile := h.offers o (by rw [ho]; simp) (by simp [Offer.answers, hans])
          rw [hfile]
      · exact h.creates w hw hop
    offers := by
      intro o' ho' ha
      refine h.offers o' ?_ ha
      simp only [Pair.settle, List.mem_append] at ho'
      rw [ho]
      rcases ho' with ho' | ho' <;> simp [ho'] }

theorem offer (h : c.Tracks p) (hnext : p.net.nextFile ≠ c.file) {before after : List Offer} {o : Offer}
    (ho : p.sender.offers = before ++ o :: after) (hw : o.answer = none) :
    c.Tracks (p.offer before after o) := by
  obtain ⟨ht, haside⟩ := Course.transit_offer_other c hnext h.same_file ho hw
  have hk := haside.kept
  exact { h with
    good := by rw [ht]; exact h.good
    knows_sender := hk.knows h.knows_sender
    knows_receiver := hk.knows h.knows_receiver
    single := hk.single h.single
    serves_sender := h.serves_sender.of_bridge rfl
    once := by rw [Pair.openings_offer p ho hw hnext]; exact h.once
    offers := by
      intro o' ho' ha
      simp only [Pair.offer, List.mem_append, List.mem_cons] at ho'
      rcases ho' with ho' | rfl | ho'
      · exact h.offers o' (by rw [ho]; simp [ho']) ha
      · rw [@Pair.offer_answers p o c.outbound hnext] at ha
        cases ha
      · exact h.offers o' (by rw [ho]; simp [ho']) ha }

/-! ## Rounds and requests -/

theorem round_sender (h : c.Tracks p) (hkeep : p.sender.bridge.windows.Keeps c.outbound p.clock) :
    c.Tracks (p.round .sender) := by
  obtain ⟨n, hn, hk⟩ := h.knows_sender
  obtain ⟨hord, ht⟩ := Course.transit_round_sender c h.good h.sender_key h.receiver_key h.apart hn hk h.single
    h.serves_sender.running h.serves_sender.ordered hkeep
  have hgood : (c.transit (p.round .sender)).Good c.toShipment := by
    rcases ht with ht | ⟨fl, fl', rs, hf, ha, htl, hle, heq, ht⟩
    · rw [ht]
      exact h.good
    · rw [ht]
      exact h.good.pulled hf ha htl hle heq
  obtain ⟨hkept, hrun, hslot⟩ := p.pumped_kept (x := .sender) h.serves_sender.running c.file
  exact { h with
    good := hgood
    knows_sender := hkept.knows h.knows_sender
    knows_receiver := hkept.knows h.knows_receiver
    single := hkept.single h.single
    serves_sender := ⟨hrun ▸ h.serves_sender.running, hslot ▸ h.serves_sender.slot, hord⟩ }

theorem round_receiver (h : c.Tracks p) : c.Tracks (p.round .receiver) := by
  obtain ⟨n, hn, -⟩ := h.knows_receiver
  obtain ⟨hord, ht⟩ := Course.transit_round_receiver c h.good h.sender_key h.receiver_key h.apart hn h.same_file
    h.single h.serves_receiver.running h.serves_receiver.ordered
  obtain ⟨hkept, hrun, hslot⟩ := p.pumped_kept (x := .receiver) h.serves_receiver.running c.file
  exact { h with
    good := ht ▸ h.good
    knows_sender := hkept.knows h.knows_sender
    knows_receiver := hkept.knows h.knows_receiver
    single := hkept.single h.single
    serves_receiver := ⟨hrun ▸ h.serves_receiver.running, hslot ▸ h.serves_receiver.slot, hord⟩ }

theorem serve_sender (h : c.Tracks p) {r : Request} {rest : List Request} (hq : p.sender.requests = r :: rest) :
    c.Tracks (p.serve .sender r rest) := by
  have hcall : r.isCall = true := h.calls_sender r (by rw [hq]; exact List.mem_cons_self)
  -- the sender has no control of the shipment to send
  have hrest : rest.filterMap (Request.controlOf? c.outbound) = [] ∧ r.controlOf? c.outbound = none := by
    have := h.quiet_sender
    simp only [Side.controlsFor, hq, List.filterMap_cons] at this
    split at this
    · exact ⟨this, by assumption⟩
    · cases this
  obtain ⟨hkept, hvol, hrun, hslot⟩ := p.serve_call .sender hcall rest c.file
  have hmove : (p.serve .sender r rest).sender.bridge.windows.Ordered ∧
      (c.transit (p.serve .sender r rest)).Good c.toShipment := by
    cases hch : r.chunkOf? c.outbound with
    | none =>
      obtain ⟨ho', ht⟩ := Course.transit_serve_sender_other c h.good h.sender_key h.apart h.same_file
        h.knows_sender h.serves_sender.running h.serves_sender.ordered hq hcall hch hrest.2
      exact ⟨ho', ht ▸ h.good⟩
    | some od =>
      obtain ⟨o, data⟩ := od
      have hr := Request.eq_of_chunkOf? hch
      subst hr
      obtain ⟨ho', ht⟩ := Course.transit_serve_sender_chunk c h.good h.sender_key h.receiver_key h.apart
        h.same_file h.knows_sender h.knows_receiver h.small h.serves_sender.running h.serves_sender.ordered hq
      exact ⟨ho', ht ▸ h.good.sent⟩
  exact { h with
    good := hmove.2
    knows_sender := hkept.knows h.knows_sender
    knows_receiver := hkept.knows h.knows_receiver
    single := hkept.single h.single
    serves_sender := ⟨hrun ▸ h.serves_sender.running, hslot ▸ h.serves_sender.slot, hmove.1⟩
    calls_sender := fun r' hr' => h.calls_sender r' (by rw [hq]; exact List.mem_cons_of_mem _ hr')
    quiet_sender := hrest.1
    receiver_sees := by rw [hvol]; exact h.receiver_sees
    source_path := by rw [hvol]; exact h.source_path
    source_bytes := by rw [hvol]; exact h.source_bytes }

theorem serve_receiver (h : c.Tracks p) {r : Request} {rest : List Request} (hq : p.receiver.requests = r :: rest) :
    c.Tracks (p.serve .receiver r rest) := by
  have hcall : r.isCall = true := h.calls_receiver r (by rw [hq]; exact List.mem_cons_self)
  -- the receiver has no chunk of the shipment to send
  have hrest : rest.filterMap (Request.chunkOf? c.inbound) = [] ∧ r.chunkOf? c.inbound = none := by
    have := h.quiet_receiver
    simp only [Side.chunksFor, hq, List.filterMap_cons] at this
    split at this
    · exact ⟨this, by assumption⟩
    · cases this
  obtain ⟨hkept, hvol, hrun, hslot⟩ := p.serve_call .receiver hcall rest c.file
  have hmove : (p.serve .receiver r rest).receiver.bridge.windows.Ordered ∧
      (c.transit (p.serve .receiver r rest)).Good c.toShipment := by
    cases hco : r.controlOf? c.inbound with
    | none =>
      obtain ⟨ho', ht⟩ := Course.transit_serve_receiver_other c h.good h.receiver_key h.apart h.same_file
        h.knows_receiver h.serves_receiver.running h.serves_receiver.ordered hq hcall hrest.2 hco
      exact ⟨ho', ht ▸ h.good⟩
    | some k =>
      have hr := Request.eq_of_controlOf? hco
      subst hr
      -- the receiver's only control of the shipment is its resume
      have hk : k = .resume := by
        have hcs : (c.transit p).controls = k :: rest.filterMap (Request.controlOf? c.inbound) := by
          simp [Course.transit, Side.controlsFor, hq, Request.controlOf?]
        obtain ⟨-, -, -, hk, -⟩ := h.good.oldest_control hcs
        exact hk
      subst hk
      have ht := Course.transit_serve_receiver_resume c h.good h.sender_key h.receiver_key h.apart h.same_file
        h.knows_sender h.knows_receiver h.serves_receiver.running hq
      exact ⟨h.serves_receiver.ordered, ht ▸ h.good.accepts⟩
  exact { h with
    good := hmove.2
    knows_sender := hkept.knows h.knows_sender
    knows_receiver := hkept.knows h.knows_receiver
    single := hkept.single h.single
    serves_receiver := ⟨hrun ▸ h.serves_receiver.running, hslot ▸ h.serves_receiver.slot, hmove.1⟩
    calls_receiver := fun r' hr' => h.calls_receiver r' (by rw [hq]; exact List.mem_cons_of_mem _ hr')
    quiet_receiver := hrest.1
    receiver_sees := by rw [hvol]; exact h.receiver_sees
    source_path := by rw [hvol]; exact h.source_path
    source_bytes := by rw [hvol]; exact h.source_bytes }

/-! ## The workers -/

/-- What a job of the sender's worker keeps, whatever the job: the sender's transfer needs only to
be shown to read the source file, to hold nothing once open, and to call no control. -/
theorem of_work_sender (h : c.Tracks p) {job : Work} {rest : List Work} (hj : p.sender.jobs = job :: rest)
    (hA : c.Allowed p (.work .sender job) (p.work .sender job rest))
    (hgood : (c.transit (p.work .sender job rest)).Good c.toShipment)
    (hfile : ∀ u, (p.turn .sender job).engine.find? c.outbound = some u →
      u.direction = .outbound ∧ u.inode = c.inode)
    (hheld : ((p.turn .sender job).engine.find? c.outbound).isSome = true →
      (p.turn .sender job).engine.NoneHeld c.outbound)
    (hquiet : (p.turn .sender job).desk.calls.toList.filterMap (Call.controlOf? c.outbound) = []) :
    c.Tracks (p.work .sender job rest) := by
  have hw := Engine.work_writesOnly h.holdable_sender p.desk job h.receiver_sees.sound
  exact { h with
    good := hgood
    serves_sender := h.serves_sender.of_bridge rfl
    calls_sender := by
      intro r hr
      rcases List.mem_append.1 hr with hr | hr
      · exact h.calls_sender r hr
      · obtain ⟨k, -, rfl⟩ := List.mem_map.1 hr
        exact Call.isCall_request k
    tagged_sender := Engine.work_heldTagged h.tagged_sender p.desk job
    holdable_sender := Engine.work_heldHoldable h.holdable_sender p.desk job
    sender_file := hfile
    sender_held := hheld
    once := (@Side.openings_le_of_jobs p.sender (p.work .sender job rest).sender c.outbound rfl job hj).trans h.once
    creates := fun w hw ho => h.creates w (by rw [hj]; exact List.mem_cons_of_mem _ hw) ho
    quiet_sender := by
      have hc := p.controlsFor_work .sender job rest c.outbound
      rw [Pair.side_sender, Pair.side_sender, h.quiet_sender, hquiet] at hc
      exact hc
    receiver_sees := ⟨fun u hu => by
        obtain ⟨hin, hact, hlt, hpath⟩ := h.receiver_sees.file u hu
        exact ⟨hin, hact, Nat.lt_of_lt_of_le hlt hw.size, hpath⟩,
      h.receiver_sees.held, hw.sound⟩
    source_path := hA.source.1.trans h.source_path
    source_bytes := hA.source.2.trans h.source_bytes }

/-- What a job of the receiver's worker keeps, whatever the job: the receiver's transfer needs only
to be shown to write its destination, and to call no chunk. -/
theorem of_work_receiver (h : c.Tracks p) {job : Work} {rest : List Work} (hj : p.receiver.jobs = job :: rest)
    (hA : c.Allowed p (.work .receiver job) (p.work .receiver job rest))
    (hgood : (c.transit (p.work .receiver job rest)).Good c.toShipment)
    (hsees : ReceiverSees c (p.turn .receiver job).engine (p.turn .receiver job).desk.volume
      (c.dest p.receiver.engine))
    (hchunks : (p.turn .receiver job).desk.calls.toList.filterMap (Call.chunkOf? c.inbound) = []) :
    c.Tracks (p.work .receiver job rest) := by
  have hdir : c.dest (p.turn .receiver job).engine = c.dest p.receiver.engine := by
    simp only [Course.dest, Pair.turn, Pair.side_receiver, Engine.work_receiveDir]
  exact { h with
    good := hgood
    serves_receiver := h.serves_receiver.of_bridge rfl
    calls_receiver := by
      intro r hr
      rcases List.mem_append.1 hr with hr | hr
      · exact h.calls_receiver r hr
      · obtain ⟨k, -, rfl⟩ := List.mem_map.1 hr
        exact Call.isCall_request k
    tagged_receiver := Engine.work_heldTagged h.tagged_receiver p.desk job
    holdable_receiver := Engine.work_heldHoldable h.holdable_receiver p.desk job
    receiver_opens := fun w hw => h.receiver_opens w (by rw [hj]; exact List.mem_cons_of_mem _ hw)
    quiet_receiver := by
      have hc := p.chunksFor_work .receiver job rest c.inbound
      rw [Pair.side_receiver, Pair.side_receiver, h.quiet_receiver, hchunks] at hc
      exact hc
    receiver_sees := by
      show ReceiverSees c (p.turn .receiver job).engine (p.turn .receiver job).desk.volume
        (c.dest (p.turn .receiver job).engine)
      rw [hdir]
      exact hsees
    source_path := hA.source.1.trans h.source_path
    source_bytes := hA.source.2.trans h.source_bytes }

/-- The sender's worker opens the shipment's transfer: it replays what it held, and the transfer
cannot have been open before. -/
theorem work_sender_create (h : c.Tracks p) {rest : List Work}
    (hj : p.sender.jobs = .create c.outbound c.path c.size :: rest)
    (hA : c.Allowed p (.work .sender (.create c.outbound c.path c.size))
      (p.work .sender (.create c.outbound c.path c.size) rest)) :
    c.Tracks (p.work .sender (.create c.outbound c.path c.size) rest) ∧
      c.SenderEnds p (.work .sender (.create c.outbound c.path c.size))
        (p.work .sender (.create c.outbound c.path c.size) rest) := by
  obtain ⟨ht, hs, -⟩ := transit_work_sender_create c hj h.good h.once h.source_path h.source_bytes h.small
  have hopening : (c.transit p).opening = true := by
    simp [Course.transit, Side.openings, hj, Work.opens]
  have hnone : p.sender.engine.find? c.outbound = none := by
    simpa [Course.transit] using h.good.sender.opening hopening
  have hgood := (h.good.opened hopening).iterate_senderTakes rfl (p.sender.engine.takeHeld c.outbound).2.length
  refine ⟨of_work_sender h hj hA (ht ▸ hgood) hs.file (fun _ => hs.held) hs.quiet, fun hsome => ?_⟩
  rw [hnone] at hsome
  cases hsome

/-- The sender's worker takes an event of the shipment: an open transfer handles it, and drops
itself only on its end marker; a transfer not open yet holds it. -/
theorem work_sender_event (h : c.Tracks p) {ev : FileEvent} {rest : List Work}
    (hj : p.sender.jobs = .event ev :: rest) (hid : ev.id = c.outbound)
    (hA : c.Allowed p (.work .sender (.event ev)) (p.work .sender (.event ev) rest)) :
    c.Tracks (p.work .sender (.event ev) rest) ∧
      c.SenderEnds p (.work .sender (.event ev)) (p.work .sender (.event ev) rest) := by
  obtain ⟨hyoung, hroom⟩ := hA.early _ rfl
  by_cases hopen : (p.sender.engine.find? c.outbound).isSome = true
  · have hs₀ := senderSees_start c h.sender_file (h.sender_held hopen) h.source_bytes h.small
    have hopen' : (c.transit p).sender.isSome = true := by simpa [Course.transit] using hopen
    obtain ⟨ht, hs, -⟩ := transit_work_sender_open c hj hid h.good hopen' hs₀
    refine ⟨of_work_sender h hj hA (ht ▸ h.good.senderTakes hopen') hs.file (fun _ => hs.held) hs.quiet,
      fun _ hnone => ?_⟩
    -- the transfer is dropped: the event was the last one due, the end marker, after the flow ended
    have hd : ((c.transit p).senderTakes c.toShipment).sender = none := by
      rw [← ht]
      simp [Course.transit, hnone]
    obtain ⟨hq, hf⟩ := h.good.senderTakes_drops hopen' hd
    have hhead : (c.transit p).toSender.head? = some ev := by
      simp [Course.transit, Side.stream, Engine.takeHeld_of_noneHeld (h.sender_held hopen), hj,
        Work.eventFor?, hid]
    rw [hq] at hhead
    cases hhead
    exact ⟨rfl, hf⟩
  · have hnone : p.sender.engine.find? c.outbound = none := by simpa using hopen
    obtain ⟨ht, hturn⟩ := transit_work_sender_hold c hj hid h.good hnone hyoung (hroom hid)
    have hfind : (p.turn .sender (.event ev)).engine.find? c.outbound = none := by
      rw [hturn]
      simpa using hnone
    refine ⟨of_work_sender h hj hA (ht ▸ h.good) (fun u hu => ?_) (fun ho => ?_) ?_, fun hsome => ?_⟩
    · rw [hfind] at hu
      cases hu
    · rw [hfind] at ho
      cases ho
    · rw [hturn]
      rfl
    · rw [hnone] at hsome
      cases hsome

/-- The sender's worker does a job of another transfer: the shipment's transfer stays as it was. -/
theorem work_sender_other (h : c.Tracks p) {job : Work} {rest : List Work} (hj : p.sender.jobs = job :: rest)
    (hid : job.id ≠ c.outbound) (hA : c.Allowed p (.work .sender job) (p.work .sender job rest)) :
    c.Tracks (p.work .sender job rest) ∧ c.SenderEnds p (.work .sender job) (p.work .sender job rest) := by
  have hown : ∀ u, p.receiver.engine.find? c.inbound = some u →
      (p.turn .sender job).desk.volume.blob u.inode = p.volume.blob u.inode :=
    hA.dest fun job' he => by cases he
  have ht := transit_work_sender_other c hj hid h.tagged_sender (hA.early job rfl).1 hown
  have hview : (p.turn .sender job).engine.view (p.turn .sender job).desk c.outbound =
      p.sender.engine.view p.desk c.outbound := Engine.work_view_of_ne h.tagged_sender p.desk hid
  have hfind : (p.turn .sender job).engine.find? c.outbound = p.sender.engine.find? c.outbound :=
    congrArg Prod.fst hview
  have hcalls : (p.turn .sender job).desk.calls.toList.filter (·.id == c.outbound) = [] := by
    have := congrArg Prod.snd hview
    simpa [Engine.view, Desk.callsFor] using this
  refine ⟨of_work_sender h hj hA (ht ▸ h.good) (fun u hu => h.sender_file u (hfind ▸ hu))
    (fun ho => Engine.work_noneHeld h.tagged_sender (h.sender_held (hfind ▸ ho)) p.desk hid)
    (calls_of_others hcalls).2, senderEnds_of_find hfind⟩

theorem work_sender (h : c.Tracks p) {job : Work} {rest : List Work} (hj : p.sender.jobs = job :: rest)
    (hA : c.Allowed p (.work .sender job) (p.work .sender job rest)) :
    c.Tracks (p.work .sender job rest) ∧ c.SenderEnds p (.work .sender job) (p.work .sender job rest) := by
  by_cases hid : job.id = c.outbound
  · cases job with
    | create i path size =>
      -- a job that opens the shipment's transfer opens it on the source file
      have hjob := h.creates (.create i path size) (by rw [hj]; exact List.mem_cons_self)
        (by simpa [Work.opens, Work.id] using hid)
      cases hjob
      exact work_sender_create h hj hA
    | event ev => exact work_sender_event h hj hid hA
  · exact work_sender_other h hj hid hA

/-- The receiver's worker takes an event of the shipment: it is the offer, a chunk, or the end
marker, each handled as the transit says; the transfer is dropped only on the end marker, with the
whole file written. -/
theorem work_receiver_event (h : c.Tracks p) {ev : FileEvent} {rest : List Work}
    (hj : p.receiver.jobs = .event ev :: rest) (hid : ev.id = c.inbound)
    (hA : c.Allowed p (.work .receiver (.event ev)) (p.work .receiver (.event ev) rest)) :
    c.Tracks (p.work .receiver (.event ev) rest) ∧
      c.ReceiverEnds p (.work .receiver (.event ev)) (p.work .receiver (.event ev) rest) := by
  have hq : (c.transit p).toReceiver =
      ev :: (rest.filterMap (Work.eventFor? c.inbound) ++ p.receiver.queued p.net c.inbound) := by
    simp [Course.transit, Side.stream, Engine.takeHeld_of_noneHeld h.receiver_sees.held, hj, Work.eventFor?, hid]
  have hchunks : (p.turn .receiver (.event ev)).desk.calls.toList.filterMap (Call.chunkOf? c.inbound) = [] := by
    rw [Pair.turn_event, Engine.handle_chunkOf? _ _ (h.good.receiver_requests ev (by rw [hq]; exact List.mem_cons_self))]
    rfl
  have hmove : c.transit (p.work .receiver (.event ev) rest) = (c.transit p).receiverTakes ∧
      ReceiverSees c (p.turn .receiver (.event ev)).engine (p.turn .receiver (.event ev)).desk.volume
        (c.dest p.receiver.engine) := by
    rcases h.good.receiverHead hq with ⟨habs, rfl, -⟩ | ⟨r, hrec, rfl, hpos, hfit⟩ | ⟨hrec, rfl, -, -⟩
    · -- the offer: with no cancel sent, its name is usable and its file was made
      have hnone : p.receiver.engine.find? c.inbound = none := by simpa [Course.transit] using habs
      obtain ⟨nm, v, ino, hname, hc⟩ :=
        Engine.offered_made p.receiver.engine p.desk hnone (fun _ => rfl) (hA.quiet _ rfl)
      have hdest : join p.receiver.engine.receiveDir nm = c.dest p.receiver.engine := by
        simp [Course.dest, hname]
      exact transit_work_receiver_offered c hj h.good h.receiver_sees hname hdest (hdest ▸ hc)
    · exact transit_work_receiver_chunk c hj h.receiver_sees hrec hpos hfit h.small
    · exact transit_work_receiver_end c hj h.receiver_sees hrec
  refine ⟨of_work_receiver h hj hA (hmove.1 ▸ h.good.receiverTakes) hmove.2 hchunks, fun u hu hnone => ?_⟩
  -- the transfer is dropped: the event was the end marker, after the flow ended, with the whole file
  have hr : (c.transit p).receiver = some (p.volume.blob u.inode) := by simp [Course.transit, hu]
  have hd : (c.transit p).receiverTakes.receiver = none := by
    rw [← hmove.1]
    simp [Course.transit, hnone]
  obtain ⟨hq', hf, hb⟩ := h.good.receiverTakes_drops hr hd
  rw [hq, List.cons_eq_cons] at hq'
  obtain ⟨rfl, -⟩ := hq'
  obtain ⟨hin, hact, -, hpath⟩ := h.receiver_sees.file u hu
  have hturn : p.turn .receiver (.event c.receiverEnd) = (p.receiver.engine.erase c.inbound).keep p.desk :=
    Engine.handle_chunk_end hu hin hact rfl
  refine ⟨rfl, hf, hpath, ?_⟩
  show (p.turn .receiver (.event c.receiverEnd)).desk.volume.blob u.inode = c.bytes
  rw [hturn]
  exact hb

/-- The receiver's worker does a job of another transfer: the shipment's transfer stays as it was. -/
theorem work_receiver_other (h : c.Tracks p) {job : Work} {rest : List Work} (hj : p.receiver.jobs = job :: rest)
    (hid : job.id ≠ c.inbound) (hA : c.Allowed p (.work .receiver job) (p.work .receiver job rest)) :
    c.Tracks (p.work .receiver job rest) ∧ c.ReceiverEnds p (.work .receiver job) (p.work .receiver job rest) := by
  have hown : ∀ u, p.receiver.engine.find? c.inbound = some u →
      (p.turn .receiver job).desk.volume.blob u.inode = p.volume.blob u.inode :=
    hA.dest fun job' he => by cases he; exact hid
  have ht := transit_work_receiver_other c hj hid h.tagged_receiver h.receiver_sees.held hown
  have hview : (p.turn .receiver job).engine.view (p.turn .receiver job).desk c.inbound =
      p.receiver.engine.view p.desk c.inbound := Engine.work_view_of_ne h.tagged_receiver p.desk hid
  have hfind : (p.turn .receiver job).engine.find? c.inbound = p.receiver.engine.find? c.inbound :=
    congrArg Prod.fst hview
  have hcalls : (p.turn .receiver job).desk.calls.toList.filter (·.id == c.inbound) = [] := by
    have := congrArg Prod.snd hview
    simpa [Engine.view, Desk.callsFor] using this
  have hw := Engine.work_writesOnly h.holdable_receiver p.desk job h.receiver_sees.sound
  have hsees : ReceiverSees c (p.turn .receiver job).engine (p.turn .receiver job).desk.volume
      (c.dest p.receiver.engine) := by
    refine ⟨fun u hu => ?_, Engine.work_noneHeld h.tagged_receiver h.receiver_sees.held p.desk hid, hw.sound⟩
    obtain ⟨hin, hact, hlt, hpath⟩ := h.receiver_sees.file u (hfind ▸ hu)
    exact ⟨hin, hact, Nat.lt_of_lt_of_le hlt hw.size, hpath⟩
  exact ⟨of_work_receiver h hj hA (ht ▸ h.good) hsees (calls_of_others hcalls).1, receiverEnds_of_find hfind⟩

theorem work_receiver (h : c.Tracks p) {job : Work} {rest : List Work} (hj : p.receiver.jobs = job :: rest)
    (hA : c.Allowed p (.work .receiver job) (p.work .receiver job rest)) :
    c.Tracks (p.work .receiver job rest) ∧ c.ReceiverEnds p (.work .receiver job) (p.work .receiver job rest) := by
  by_cases hid : job.id = c.inbound
  · cases job with
    | create i path size =>
      -- the receiver is never asked to open the shipment's transfer
      have := h.receiver_opens (.create i path size) (by rw [hj]; exact List.mem_cons_self)
      simp [Work.opens, Work.id] at this hid
      exact absurd hid this
    | event ev => exact work_receiver_event h hj hid hA
  · exact work_receiver_other h hj hid hA

/-! ## Every move -/

/-- Every allowed move of the pair keeps what holds along the shipment, and ends a side's transfer
only by its end marker. -/
theorem step (h : c.Tracks p) {m : Move} {p' : Pair} (hs : PairStep p m p') (hA : c.Allowed p m p') :
    c.Tracks p' ∧ c.Ends p m p' := by
  cases hs with
  | round x =>
    cases x with
    | sender => exact ⟨h.round_sender (hA.stale rfl), ends_of_find rfl rfl⟩
    | receiver => exact ⟨h.round_receiver, ends_of_find rfl rfl⟩
  | serve x r rest hq =>
    cases x with
    | sender => exact ⟨h.serve_sender hq, ends_of_find rfl rfl⟩
    | receiver => exact ⟨h.serve_receiver hq, ends_of_find rfl rfl⟩
  | dispatch x item rest hq =>
    refine ⟨h.dispatch hq, ends_of_find ?_ ?_⟩ <;> cases x <;> rfl
  | work x job rest hj =>
    cases x with
    | sender =>
      obtain ⟨ht, he⟩ := h.work_sender hj hA
      exact ⟨ht, he, receiverEnds_of_find rfl⟩
    | receiver =>
      obtain ⟨ht, he⟩ := h.work_receiver hj hA
      exact ⟨ht, senderEnds_of_find rfl, he⟩
  | send peer path files hf => exact ⟨h.send peer files, ends_of_find rfl rfl⟩
  | offer before after o ho hw => exact ⟨h.offer (hA.fresh rfl) ho hw, ends_of_find rfl rfl⟩
  | settle before after o ho hans => exact ⟨h.settle ho, ends_of_find rfl rfl⟩
  | tick now hlater => exact ⟨h.tick now, ends_of_find rfl rfl⟩

/-- Along every run of allowed moves, what holds along the shipment keeps holding. -/
theorem run (h : c.Tracks p) {q : Pair} (hr : PairRun c.Allowed p q) : c.Tracks q := by
  induction hr with
  | refl => exact h
  | step _ hs hA ih => exact (ih.step hs hA).1

end Course.Tracks

end Courier.Transfer
