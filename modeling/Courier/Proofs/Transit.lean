-- One file on its way from a sender to a receiver, seen from above: what is under way, the six moves
-- that change it, and the invariant that every move keeps.
import Courier.Proofs.FlowPulls
import Courier.Transfer.Engine
import Courier.Proofs.VolumeWrites
import Mathlib.Logic.Function.Iterate

namespace Courier.Transfer

/-- One file sent from a node to a friend: its bytes and the name it is offered under, the keys of
the two nodes, and the transfer as each of them names it. -/
structure Shipment where
  bytes : ByteArray
  name : String
  sender : PublicKey
  receiver : PublicKey
  outbound : TransferId
  inbound : TransferId

namespace Shipment

variable (s : Shipment)

/-- The size of the file. -/
def size : Nat := s.bytes.size

/-- What the sender sends for a request: the bytes at its place. -/
def slice (r : ChunkRequest) : Nat × ByteArray :=
  (r.offset, s.bytes.extract r.offset (r.offset + r.length))

/-- The chunk the receiver gets for a request. -/
def arrival (r : ChunkRequest) : FileEvent :=
  .chunk s.inbound r.offset (s.bytes.extract r.offset (r.offset + r.length))

/-- The sender's end marker: a request of length zero at the end of the file. -/
def senderEnd : FileEvent := .pull s.outbound ⟨s.size, 0⟩

/-- The receiver's end marker: an empty chunk at the end of the file. -/
def receiverEnd : FileEvent := .chunk s.inbound s.size ByteArray.empty

end Shipment

/-- What is under way of a shipment. -/
@[ext] structure Transit where
  /-- The sender's transfer: not open, or open and whether it is active. -/
  sender : Option Bool
  /-- The sender has still to open the transfer. -/
  opening : Bool
  /-- The events due to the sender, oldest first. -/
  toSender : List FileEvent
  /-- The chunks the sender has sent that the network has not taken yet. -/
  chunks : List (Nat × ByteArray)
  /-- The hub's flow, while it has one. -/
  flow : Option Flow
  /-- The receiver's transfer: not open, or open with the bytes of its file. -/
  receiver : Option ByteArray
  /-- The events due to the receiver, oldest first. -/
  toReceiver : List FileEvent
  /-- The receiver's controls that the network has not taken yet. -/
  controls : List FileControl

namespace Transit

variable (s : Shipment) (t : Transit)

/-- Whether the receiver has accepted; a finished flow was. -/
def accepted : Bool := t.flow.all (·.accepted)

/-- The hub's delivered mark; all of the file once the flow is gone. -/
def delivered : Nat := (t.flow.map (·.delivered)).getD s.size

/-- The hub's requested mark; all of the file once the flow is gone. -/
def requested : Nat := (t.flow.map (·.requested)).getD s.size

/-- The sender has had the transfer open and has dropped it. -/
def closed : Bool := t.sender.isNone && !t.opening

/-- The events due to the sender when `P` are the requests the hub made that it has not handled:
the resume of an accepted transfer it has not taken yet, the requests, and the end marker of a
finished flow. -/
def senderDue (P : List ChunkRequest) : List FileEvent :=
  (if t.accepted && t.sender != some true && !t.closed then [.control s.outbound .resume] else []) ++
    P.map (.pull s.outbound) ++ (if t.flow.isNone && !t.closed then [s.senderEnd] else [])

/-- The events due to the receiver when `C` are the requests whose chunks it has still to write:
those chunks, and the end marker of a finished flow. -/
def receiverDue (C : List ChunkRequest) : List FileEvent :=
  C.map s.arrival ++ (if t.flow.isNone then [s.receiverEnd] else [])

/-- The hub's flow of the shipment: between the two nodes, of the file's size, never paused, with
its marks in order within the file; nothing is requested before it is accepted, and an accepted
flow whose bytes have all arrived is gone. -/
structure FlowFits (fl : Flow) : Prop where
  sender : fl.sender = s.sender
  receiver : fl.receiver = s.receiver
  size : fl.size = s.size
  running : fl.paused = false
  order : fl.delivered ≤ fl.requested
  within : fl.requested ≤ s.size
  idle : fl.accepted = false → fl.requested = 0
  busy : fl.accepted = true → fl.delivered < s.size

/-- The sender's side: it opens the transfer paused and becomes active only once accepted; the
requests due to it tile the file from `mid` to the requested mark, and the chunks in flight tile it
from the delivered mark to `mid`. -/
structure SenderGood : Prop where
  opening : t.opening = true → t.sender = none
  active : t.sender = some true → t.accepted = true
  closed : t.closed = true → t.flow.isNone = true
  due : ∃ mid P cs, Tiles mid (t.requested s) P ∧ Tiles (t.delivered s) mid cs ∧
    t.toSender = t.senderDue s P ∧ t.chunks = cs.map s.slice

/-- The receiver's side: the offer is due to it; or it has the transfer open, its file holds the
first `w` bytes, the chunks due to it tile the file from `w` to the delivered mark, and its resume
is in flight until the flow is accepted; or it has dropped the transfer after the flow ended. -/
inductive ReceiverGood : Prop where
  | offered (absent : t.receiver = none) (due : t.toReceiver = [.offered s.inbound s.name s.size])
      (quiet : t.controls = []) (waiting : t.accepted = false)
  | open (w : Nat) (C : List ChunkRequest) (bytes : t.receiver = some (s.bytes.extract 0 w))
      (tiles : Tiles w (t.delivered s) C) (due : t.toReceiver = t.receiverDue s C)
      (asks : t.controls = if t.accepted then [] else [.resume])
  | closed (absent : t.receiver = none) (due : t.toReceiver = []) (quiet : t.controls = [])
      (done : t.flow.isNone = true)

/-- Everything under way fits together. -/
structure Good : Prop where
  flow : ∀ fl, t.flow = some fl → FlowFits s fl
  sender : SenderGood s t
  receiver : ReceiverGood s t

/-! ## Moves -/

/-- The sender opens the transfer, paused. -/
def opened : Transit := { t with sender := some false, opening := false }

/-- The sender handles the oldest event due to it: a resume makes the transfer active, a request
sends the bytes asked for, and the end marker drops the transfer. -/
def senderTakes : Transit :=
  match t.toSender with
  | [] => t
  | .control _ .resume :: rest => { t with toSender := rest, sender := some true }
  | .pull _ r :: rest =>
    if r.length = 0 then { t with toSender := rest, sender := none }
    else { t with toSender := rest, chunks := t.chunks ++ [s.slice r] }
  | _ :: rest => { t with toSender := rest }

/-- The hub makes the requests `rs`, which move its flow to `fl`. -/
def pulled (fl : Flow) (rs : List ChunkRequest) : Transit :=
  { t with flow := some fl, toSender := t.toSender ++ rs.map (.pull s.outbound) }

/-- The network takes the oldest chunk in flight: the delivered mark moves to its end and the
chunk is due to the receiver; once every byte has arrived the flow ends and both end markers are
due. -/
def sent : Transit :=
  match t.chunks, t.flow with
  | (o, data) :: rest, some fl =>
    let fl' := { fl with outstanding := fl.outstanding - 1, delivered := max fl.delivered (o + data.size) }
    if fl'.delivered ≥ fl.size then
      { t with
        chunks := rest
        flow := none
        toSender := t.toSender ++ [s.senderEnd]
        toReceiver := t.toReceiver ++ [.chunk s.inbound o data, s.receiverEnd] }
    else { t with chunks := rest, flow := some fl', toReceiver := t.toReceiver ++ [.chunk s.inbound o data] }
  | _, _ => t

/-- The receiver handles the oldest event due to it: the offer opens the transfer on an empty file
and sends a resume, a chunk is written after what is there, and the end marker drops the
transfer. -/
def receiverTakes : Transit :=
  match t.toReceiver with
  | [] => t
  | .offered .. :: rest =>
    { t with
      toReceiver := rest
      receiver := some ByteArray.empty
      controls := t.controls ++ [.resume] }
  | .chunk _ _ data :: rest =>
    if data.size = 0 then { t with toReceiver := rest, receiver := none }
    else { t with toReceiver := rest, receiver := t.receiver.map (· ++ data) }
  | _ :: rest => { t with toReceiver := rest }

/-- The network takes the receiver's oldest control, a resume: the flow is accepted and pulls from
its delivered mark, the sender is told, and an empty file is complete at once. -/
def accepts : Transit :=
  match t.controls, t.flow with
  | _ :: rest, some fl =>
    if fl.size = 0 then
      { t with
        controls := rest
        flow := none
        toSender := t.toSender ++ [.control s.outbound .resume, s.senderEnd]
        toReceiver := t.toReceiver ++ [s.receiverEnd] }
    else
      let fl' := { fl with accepted := true, paused := false, requested := fl.delivered, outstanding := 0 }
      { t with controls := rest, flow := some fl', toSender := t.toSender ++ [.control s.outbound .resume] }
  | _, _ => t

/-- Where a shipment starts: the offer has been answered and the hub has a fresh flow, the offer
is due to the receiver, and the sender has still to open the transfer. -/
def start : Transit where
  sender := none
  opening := true
  toSender := []
  chunks := []
  flow := some { sender := s.sender, receiver := s.receiver, size := s.size }
  receiver := none
  toReceiver := [.offered s.inbound s.name s.size]
  controls := []

/-! ## The marks -/

variable {s} {t}

theorem accepted_of_none (h : t.flow = none) : t.accepted = true := by simp [accepted, h]

theorem delivered_of_none (h : t.flow = none) : t.delivered s = s.size := by simp [delivered, h]

theorem requested_of_none (h : t.flow = none) : t.requested s = s.size := by simp [requested, h]

theorem accepted_of_some {fl : Flow} (h : t.flow = some fl) : t.accepted = fl.accepted := by
  simp [accepted, h]

theorem delivered_of_some {fl : Flow} (h : t.flow = some fl) : t.delivered s = fl.delivered := by
  simp [delivered, h]

theorem requested_of_some {fl : Flow} (h : t.flow = some fl) : t.requested s = fl.requested := by
  simp [requested, h]

/-- Before the receiver accepts, nothing is requested or delivered. -/
theorem Good.idle (h : t.Good s) (ha : t.accepted = false) :
    ∃ fl, t.flow = some fl ∧ t.requested s = 0 ∧ t.delivered s = 0 := by
  cases hf : t.flow with
  | none => simp [accepted_of_none hf] at ha
  | some fl =>
    have fits := h.flow fl hf
    have hr : fl.requested = 0 := fits.idle (by rwa [accepted_of_some hf] at ha)
    exact ⟨fl, rfl, by rw [requested_of_some hf, hr], by
      rw [delivered_of_some hf]; have := fits.order; omega⟩

/-- The marks are in order within the file. -/
theorem Good.marks (h : t.Good s) : t.delivered s ≤ t.requested s ∧ t.requested s ≤ s.size := by
  cases hf : t.flow with
  | none => simp [delivered_of_none hf, requested_of_none hf]
  | some fl =>
    have fits := h.flow fl hf
    rw [delivered_of_some hf, requested_of_some hf]
    exact ⟨fits.order, fits.within⟩

/-! ## The sender's side and the receiver's side apart -/

theorem senderDue_congr {t' : Transit} (ha : t'.accepted = t.accepted) (hs : t'.sender = t.sender)
    (ho : t'.opening = t.opening) (hf : t'.flow.isNone = t.flow.isNone) (P : List ChunkRequest) :
    t'.senderDue s P = t.senderDue s P := by
  unfold senderDue closed
  rw [ha, hs, ho, hf]

theorem SenderGood.congr {t' : Transit} (h : SenderGood s t) (hs : t'.sender = t.sender)
    (ho : t'.opening = t.opening) (hq : t'.toSender = t.toSender) (hc : t'.chunks = t.chunks)
    (ha : t'.accepted = t.accepted) (hd : t'.delivered s = t.delivered s)
    (hr : t'.requested s = t.requested s) (hf : t'.flow.isNone = t.flow.isNone) : SenderGood s t' := by
  have hcl : t'.closed = t.closed := by unfold Transit.closed; rw [hs, ho]
  obtain ⟨mid, P, cs, hP, hcs, hdue, hch⟩ := h.due
  refine ⟨fun h' => by rw [hs]; exact h.opening (ho ▸ h'), fun h' => ha ▸ h.active (hs ▸ h'),
    fun h' => hf ▸ h.closed (hcl ▸ h'), mid, P, cs, hr ▸ hP, hd ▸ hcs, ?_, hc ▸ hch⟩
  rw [hq, hdue, senderDue_congr ha hs ho hf]

theorem ReceiverGood.congr {t' : Transit} (h : ReceiverGood s t) (hr : t'.receiver = t.receiver)
    (hq : t'.toReceiver = t.toReceiver) (hc : t'.controls = t.controls) (ha : t'.accepted = t.accepted)
    (hd : t'.delivered s = t.delivered s) (hf : t'.flow.isNone = t.flow.isNone) : ReceiverGood s t' := by
  cases h with
  | offered absent due quiet waiting => exact .offered (hr ▸ absent) (hq ▸ due) (hc ▸ quiet) (ha ▸ waiting)
  | «open» w C bytes tiles due asks =>
    refine .open w C (hr ▸ bytes) (hd ▸ tiles) ?_ (by rw [hc, asks, ha])
    rw [hq, due]
    simp only [receiverDue, hf]
  | closed absent due quiet done => exact .closed (hr ▸ absent) (hq ▸ due) (hc ▸ quiet) (hf ▸ done)


/-! ## Each move keeps everything in place -/

theorem good_start : (start s).Good s where
  flow fl h := by
    simp only [start, Option.some.injEq] at h
    subst h
    exact ⟨rfl, rfl, rfl, rfl, Nat.le_refl 0, Nat.zero_le _, fun _ => rfl, nofun⟩
  sender := ⟨fun _ => rfl, nofun, fun h => (by simp [start, closed] at h),
    0, [], [], .nil 0, .nil 0, by simp [start, senderDue, accepted], rfl⟩
  receiver := .offered rfl rfl rfl rfl

theorem Good.opened (h : t.Good s) (ho : t.opening = true) : t.opened.Good s := by
  have hs : t.sender = none := h.sender.opening ho
  obtain ⟨mid, P, cs, hP, hcs, hdue, hch⟩ := h.sender.due
  refine ⟨h.flow, ⟨nofun, nofun, fun h' => (by simp [Transit.opened, closed] at h'),
    mid, P, cs, hP, hcs, ?_, hch⟩, h.receiver.congr rfl rfl rfl rfl rfl rfl⟩
  show t.toSender = _
  rw [hdue]
  simp [senderDue, Transit.opened, closed, accepted, hs, ho]

theorem senderDue_active (hs : t.sender = some true) (P : List ChunkRequest) :
    t.senderDue s P = P.map (.pull s.outbound) ++ (if t.flow.isNone then [s.senderEnd] else []) := by
  simp [senderDue, closed, hs]

theorem senderDue_paused (hs : t.sender = some false) (P : List ChunkRequest) :
    t.senderDue s P = (if t.accepted then [.control s.outbound .resume] else []) ++
      P.map (.pull s.outbound) ++ (if t.flow.isNone then [s.senderEnd] else []) := by
  simp [senderDue, closed, hs]

theorem Good.opening_false (h : t.Good s) (hs : t.sender.isSome = true) : t.opening = false := by
  cases ho : t.opening
  · rfl
  · simp [h.sender.opening ho] at hs

/-- An active sender handles the next request or the end marker. -/
theorem Good.senderTakes_active (h : t.Good s) (hs : t.sender = some true) : (t.senderTakes s).Good s := by
  have ho := h.opening_false (by simp [hs])
  obtain ⟨mid, P, cs, hP, hcs, hdue, hch⟩ := h.sender.due
  rw [senderDue_active hs] at hdue
  cases P with
  | cons r P =>
    -- a request: its bytes join the chunks in flight
    obtain ⟨start, pos, rest⟩ := Tiles.cons_iff.1 hP
    have hstep : t.senderTakes s =
        { t with toSender := t.senderDue s P, chunks := t.chunks ++ [s.slice r] } := by
      unfold senderTakes
      rw [hdue, senderDue_active hs]
      simp [Nat.pos_iff_ne_zero.1 pos]
    rw [hstep]
    refine ⟨h.flow, ⟨fun h' => absurd h' (by simp [ho]), h.sender.active, fun h' => h.sender.closed h',
      mid + r.length, P, cs ++ [r], rest, hcs.snoc r start pos, rfl, by simp [hch]⟩,
      h.receiver.congr rfl rfl rfl rfl rfl rfl⟩
  | nil =>
    cases hf : t.flow with
    | some fl =>
      have hstep : t.senderTakes s = t := by
        unfold senderTakes
        rw [hdue]
        simp [hf]
      rw [hstep]
      exact h
    | none =>
      -- the end marker: the sender drops the transfer
      have hstep : t.senderTakes s = { t with toSender := [], sender := none } := by
        unfold senderTakes
        rw [hdue]
        simp [hf, Shipment.senderEnd]
      rw [hstep]
      refine ⟨h.flow, ⟨fun h' => absurd h' (by simp [ho]), nofun, fun _ => (by simp [hf]),
        mid, [], cs, hP, hcs, ?_, hch⟩, h.receiver.congr rfl rfl rfl rfl rfl rfl⟩
      simp [senderDue, closed, ho]

/-- A paused sender handles the resume once the flow is accepted; before, nothing is due. -/
theorem Good.senderTakes_paused (h : t.Good s) (hs : t.sender = some false) : (t.senderTakes s).Good s := by
  have ho := h.opening_false (by simp [hs])
  obtain ⟨mid, P, cs, hP, hcs, hdue, hch⟩ := h.sender.due
  rw [senderDue_paused hs] at hdue
  cases ha : t.accepted with
  | false =>
    obtain ⟨fl, hf, hr, -⟩ := h.idle ha
    rw [hr] at hP
    have hmid : mid = 0 := Nat.le_zero.1 hP.le
    subst hmid
    have hstep : t.senderTakes s = t := by
      unfold senderTakes
      rw [hdue, hP.eq_nil]
      simp [ha, hf]
    rw [hstep]
    exact h
  | true =>
    -- the resume comes first: the transfer becomes active
    have hstep : t.senderTakes s = { t with
        toSender := P.map (.pull s.outbound) ++ (if t.flow.isNone then [s.senderEnd] else [])
        sender := some true } := by
      unfold senderTakes
      rw [hdue]
      simp [ha]
    rw [hstep]
    exact ⟨h.flow, ⟨fun h' => absurd h' (by simp [ho]), fun _ => ha, fun h' => (by simp [closed] at h'),
      mid, P, cs, hP, hcs, by simp [senderDue, closed], hch⟩, h.receiver.congr rfl rfl rfl rfl rfl rfl⟩

theorem Good.senderTakes (h : t.Good s) (hs : t.sender.isSome = true) : (t.senderTakes s).Good s := by
  obtain ⟨act, hact⟩ := Option.isSome_iff_exists.1 hs
  cases act with
  | true => exact h.senderTakes_active hact
  | false => exact h.senderTakes_paused hact


theorem Good.open_of_flow (h : t.Good s) {fl : Flow} (hf : t.flow = some fl) : t.closed = false := by
  cases hc : t.closed
  · rfl
  · simpa [hf] using h.sender.closed hc

/-- The hub pulls an accepted flow: the new requests extend those due to the sender. -/
theorem Good.pulled (h : t.Good s) {fl fl' : Flow} {rs : List ChunkRequest} (hf : t.flow = some fl)
    (ha : fl.accepted = true) (hrs : Tiles fl.requested fl'.requested rs) (hle : fl'.requested ≤ fl.size)
    (heq : fl' = { fl with requested := fl'.requested, outstanding := fl'.outstanding }) :
    (t.pulled s fl' rs).Good s := by
  have fits := h.flow fl hf
  have hacc : fl'.accepted = fl.accepted := by rw [heq]
  have hdel : fl'.delivered = fl.delivered := by rw [heq]
  have hcl := h.open_of_flow hf
  obtain ⟨mid, P, cs, hP, hcs, hdue, hch⟩ := h.sender.due
  rw [requested_of_some hf] at hP
  rw [delivered_of_some hf] at hcs
  refine ⟨fun g hg => ?_, ⟨fun h' => h.sender.opening h', fun h' => ?_, fun h' => ?_,
    mid, P ++ rs, cs, hP.append hrs, by simpa [Transit.pulled, delivered, hdel] using hcs, ?_, hch⟩,
    h.receiver.congr rfl rfl rfl ?_ ?_ (by simp [Transit.pulled, hf])⟩
  · -- the flow moved only its requested mark, within the file
    simp only [Transit.pulled, Option.some.injEq] at hg
    subst hg
    have := hrs.le
    have := fits.order
    rw [heq]
    exact ⟨fits.sender, fits.receiver, fits.size, fits.running, by simp; omega,
      by simp; have := fits.size; omega, fun h' => absurd ha (by simpa using h'),
      fun _ => by simpa using fits.busy ha⟩
  · simp [Transit.pulled, accepted, hacc, ha]
  · simp [Transit.pulled, closed] at h' ⊢
    simp [closed, h'] at hcl
  · show t.toSender ++ _ = _
    rw [hdue]
    simp [senderDue, Transit.pulled, accepted, closed, hf, hacc]
  · simp [Transit.pulled, accepted, hf, hacc]
  · simp [Transit.pulled, delivered, hf, hdel]

theorem size_slice {r : ChunkRequest} (h : r.offset + r.length ≤ s.size) :
    (s.slice r).2.size = r.length := by
  simp only [Shipment.slice, ByteArray.size_extract, Shipment.size] at h ⊢
  omega

theorem sent_of_last {c : Nat × ByteArray} {rest : List (Nat × ByteArray)} {fl : Flow}
    (hch : t.chunks = c :: rest) (hf : t.flow = some fl) (hend : fl.size ≤ max fl.delivered (c.1 + c.2.size)) :
    t.sent s = { t with
      chunks := rest
      flow := none
      toSender := t.toSender ++ [s.senderEnd]
      toReceiver := t.toReceiver ++ [.chunk s.inbound c.1 c.2, s.receiverEnd] } := by
  unfold Transit.sent
  rw [hch, hf]
  exact if_pos hend

theorem sent_of_more {c : Nat × ByteArray} {rest : List (Nat × ByteArray)} {fl : Flow}
    (hch : t.chunks = c :: rest) (hf : t.flow = some fl) (hend : ¬fl.size ≤ max fl.delivered (c.1 + c.2.size)) :
    t.sent s = { t with
      chunks := rest
      flow := some { fl with outstanding := fl.outstanding - 1, delivered := max fl.delivered (c.1 + c.2.size) }
      toReceiver := t.toReceiver ++ [.chunk s.inbound c.1 c.2] } := by
  unfold Transit.sent
  rw [hch, hf]
  exact if_neg hend

/-- While the flow is accepted, the receiver has the transfer open. -/
theorem Good.receiver_open (h : t.Good s) {fl : Flow} (hf : t.flow = some fl) (hacc : fl.accepted = true) :
    ∃ w C, t.receiver = some (s.bytes.extract 0 w) ∧ Tiles w fl.delivered C ∧
      t.toReceiver = C.map s.arrival ∧ t.controls = [] := by
  cases h.receiver with
  | offered _ _ _ waiting => simp [accepted_of_some hf, hacc] at waiting
  | «open» w C bytes tiles due asks =>
    refine ⟨w, C, bytes, by rwa [delivered_of_some hf] at tiles, by simp [due, receiverDue, hf], ?_⟩
    simp [asks, accepted_of_some hf, hacc]
  | closed _ _ _ done => simp [hf] at done

/-- The network takes a chunk: the delivered mark moves to its end and the receiver gets it. -/
theorem Good.sent (h : t.Good s) : (t.sent s).Good s := by
  obtain ⟨mid, P, cs, hP, hcs, hdue, hch⟩ := h.sender.due
  obtain ⟨hdr, hrn⟩ := h.marks
  cases cs with
  | nil =>
    have hstep : t.sent s = t := by
      unfold Transit.sent
      rw [hch]
      rfl
    rw [hstep]
    exact h
  | cons r cs =>
    -- a chunk in flight: the flow is there
    obtain ⟨fl, hf⟩ : ∃ fl, t.flow = some fl := by
      cases hf : t.flow with
      | none =>
        rw [delivered_of_none hf] at hcs
        rw [requested_of_none hf] at hP
        obtain ⟨-, pos, rest⟩ := Tiles.cons_iff.1 hcs
        have := rest.le
        have := hP.le
        omega
      | some fl => exact ⟨fl, rfl⟩
    rw [delivered_of_some hf] at hcs hdr
    rw [requested_of_some hf] at hP hrn
    obtain ⟨start, pos, rest⟩ := Tiles.cons_iff.1 hcs
    have hmid := rest.le
    have hmr := hP.le
    have fits := h.flow fl hf
    have hacc : fl.accepted = true := by
      cases ha : fl.accepted
      · have := fits.idle ha; omega
      · rfl
    have hsize : (s.slice r).2.size = r.length := size_slice (by omega)
    have hmax : max fl.delivered ((s.slice r).1 + (s.slice r).2.size) = fl.delivered + r.length := by
      simp only [Shipment.slice] at hsize ⊢
      rw [hsize, start]
      omega
    have hcl := h.open_of_flow hf
    obtain ⟨w, C, bytes, tiles, rdue, asks⟩ := h.receiver_open hf hacc
    have hslice : (Shipment.arrival s r) = .chunk s.inbound (s.slice r).1 (s.slice r).2 := rfl
    by_cases hend : fl.delivered + r.length ≥ fl.size
    · -- the last chunk: the flow ends and both end markers are due
      have hn : fl.delivered + r.length = s.size := by have := fits.size; omega
      rw [sent_of_last (hch.trans (List.map_cons ..)) hf (by rw [hmax]; exact hend)]
      have hPnil : P = [] := by
        have : mid = fl.requested := by omega
        subst this
        exact hP.eq_nil
      subst hPnil
      have hcsnil : cs = [] := by
        have : mid = fl.delivered + r.length := by omega
        subst this
        exact rest.eq_nil
      subst hcsnil
      refine ⟨fun _ h' => (by cases h'), ⟨fun h' => h.sender.opening h', fun _ => rfl, fun _ => rfl,
        s.size, [], [], .nil _, .nil _, ?_, rfl⟩, .open w (C ++ [r]) bytes ?_ ?_ ?_⟩
      · show t.toSender ++ _ = _
        rw [hdue]
        simp [senderDue, accepted, closed, hf, hacc] at hcl ⊢
        exact hcl
      · simp only [delivered, Option.map_none, Option.getD_none]
        rw [← hn]
        exact tiles.snoc r (by omega) pos
      · show t.toReceiver ++ _ = _
        simp [rdue, receiverDue, hslice]
      · simp [asks, accepted]
    · -- the flow goes on with the chunk delivered
      rw [sent_of_more (hch.trans (List.map_cons ..)) hf (by rw [hmax]; exact hend), hmax]
      refine ⟨fun g hg => ?_, ⟨fun h' => h.sender.opening h', fun h' => ?_, fun h' => ?_,
        mid, P, cs, by simpa [requested] using hP, by simpa [delivered] using rest, ?_, rfl⟩,
        .open w (C ++ [r]) bytes (by simpa [delivered] using tiles.snoc r (by omega) pos) ?_ ?_⟩
      · simp only [Option.some.injEq] at hg
        subst hg
        exact ⟨fits.sender, fits.receiver, fits.size, fits.running, by simp; omega, fits.within,
          fun h' => absurd hacc (by simpa using h'), fun _ => by simp; have := fits.size; omega⟩
      · simp [accepted, hacc]
      · simp [closed] at h' hcl
        simp [h'] at hcl
      · show t.toSender = _
        rw [hdue]
        simp [senderDue, accepted, closed, hf, hacc]
      · show t.toReceiver ++ _ = _
        simp [rdue, receiverDue, hslice]
      · simp [asks, accepted, hacc]


/-- The receiver handles the offer, a chunk, or its end marker. -/
theorem Good.receiverTakes (h : t.Good s) : t.receiverTakes.Good s := by
  cases hr : h.receiver with
  | offered absent due quiet waiting =>
    -- the offer: an empty file is opened and a resume sent
    obtain ⟨fl, hf, hreq, hdel⟩ := h.idle waiting
    have hstep : t.receiverTakes = { t with
        toReceiver := []
        receiver := some ByteArray.empty
        controls := [.resume] } := by
      unfold Transit.receiverTakes
      rw [due, quiet]
      rfl
    rw [hstep]
    refine ⟨h.flow, h.sender.congr rfl rfl rfl rfl rfl rfl rfl rfl,
      .open 0 [] (by simp) (by simpa [delivered] using hdel ▸ Tiles.nil 0) ?_ ?_⟩
    · simp [receiverDue, hf]
    · simp [accepted, hf] at waiting ⊢
      simp [waiting]
  | «open» w C bytes tiles due asks =>
    have hle := tiles.le
    have hdn := h.marks
    cases C with
    | cons c C =>
      -- a chunk: it lands right after what the file holds
      obtain ⟨start, pos, rest⟩ := Tiles.cons_iff.1 tiles
      have hrest := rest.le
      have hsize : (s.bytes.extract c.offset (c.offset + c.length)).size = c.length := by
        simp only [ByteArray.size_extract, Shipment.size] at hdn ⊢
        omega
      have hstep : t.receiverTakes = { t with
          toReceiver := t.receiverDue s C
          receiver := some (s.bytes.extract 0 (w + c.length)) } := by
        unfold Transit.receiverTakes
        rw [due]
        simp only [receiverDue, List.map_cons, List.cons_append, Shipment.arrival]
        rw [if_neg (by omega), bytes, start]
        simp only [Option.map_some]
        rw [Files.prefix_append_slice _ (by omega)]
      rw [hstep]
      exact ⟨h.flow, h.sender.congr rfl rfl rfl rfl rfl rfl rfl rfl,
        .open (w + c.length) C rfl rest rfl asks⟩
    | nil =>
      cases hf : t.flow with
      | some fl =>
        have hstep : t.receiverTakes = t := by
          unfold Transit.receiverTakes
          rw [due]
          simp [receiverDue, hf]
        rw [hstep]
        exact h
      | none =>
        -- the end marker: the receiver drops the transfer
        have hstep : t.receiverTakes = { t with toReceiver := [], receiver := none } := by
          unfold Transit.receiverTakes
          rw [due]
          simp [receiverDue, hf, Shipment.receiverEnd]
        rw [hstep]
        exact ⟨h.flow, h.sender.congr rfl rfl rfl rfl rfl rfl rfl rfl,
          .closed rfl rfl (by simpa [accepted, hf] using asks) (by simp [hf])⟩
  | closed absent due quiet done =>
    have hstep : t.receiverTakes = t := by
      unfold Transit.receiverTakes
      rw [due]
    rw [hstep]
    exact h

theorem accepts_of_empty {c : FileControl} {rest : List FileControl} {fl : Flow}
    (hc : t.controls = c :: rest) (hf : t.flow = some fl) (hz : fl.size = 0) :
    t.accepts s = { t with
      controls := rest
      flow := none
      toSender := t.toSender ++ [.control s.outbound .resume, s.senderEnd]
      toReceiver := t.toReceiver ++ [s.receiverEnd] } := by
  unfold Transit.accepts
  rw [hc, hf]
  exact if_pos hz

theorem accepts_of_nonempty {c : FileControl} {rest : List FileControl} {fl : Flow}
    (hc : t.controls = c :: rest) (hf : t.flow = some fl) (hz : fl.size ≠ 0) :
    t.accepts s = { t with
      controls := rest
      flow := some { fl with accepted := true, paused := false, requested := fl.delivered, outstanding := 0 }
      toSender := t.toSender ++ [.control s.outbound .resume] } := by
  unfold Transit.accepts
  rw [hc, hf]
  exact if_neg hz

/-- A control in flight is the receiver's resume, alone, sent from an empty file before the flow is
accepted. -/
theorem Good.resume_in_flight (h : t.Good s) {c : FileControl} {rest : List FileControl}
    (hc : t.controls = c :: rest) :
    t.accepted = false ∧ rest = [] ∧ t.receiver = some ByteArray.empty ∧ t.toReceiver = [] := by
  cases hr : h.receiver with
  | offered _ _ quiet _ => simp [hc] at quiet
  | closed _ _ quiet _ => simp [hc] at quiet
  | «open» w C bytes tiles due asks =>
    cases ha : t.accepted
    · obtain ⟨fl, hf, -, hdel⟩ := h.idle ha
      rw [hdel] at tiles
      have hw : w = 0 := Nat.le_zero.1 tiles.le
      subst hw
      simp [asks, ha] at hc
      refine ⟨rfl, hc.2, by simp [bytes], ?_⟩
      rw [due, tiles.eq_nil]
      simp [receiverDue, hf]
    · simp [asks, ha] at hc

/-- The network takes the receiver's resume: the flow is accepted, or an empty file ends. -/
theorem Good.accepts (h : t.Good s) : (t.accepts s).Good s := by
  cases hc : t.controls with
  | nil =>
    have hstep : t.accepts s = t := by
      unfold Transit.accepts
      rw [hc]
    rw [hstep]
    exact h
  | cons c rest =>
    -- only the receiver's resume can be in flight: the flow is not accepted yet
    obtain ⟨ha, hrest, hbytes, hq⟩ := h.resume_in_flight hc
    subst hrest
    obtain ⟨fl, hf, hreq, hdel⟩ := h.idle ha
    have fits := h.flow fl hf
    have hfa : fl.accepted = false := by simpa [accepted_of_some hf] using ha
    -- nothing is due to the sender yet and no chunk is in flight
    obtain ⟨mid, P, cs, hP, hcs, hdue, hch⟩ := h.sender.due
    rw [hreq] at hP
    rw [hdel] at hcs
    have hmid : mid = 0 := Nat.le_zero.1 hP.le
    subst hmid
    have hPnil := hP.eq_nil
    have hcsnil := hcs.eq_nil
    subst hPnil hcsnil
    have hnone : t.toSender = [] := by rw [hdue]; simp [senderDue, ha, hf]
    have hns : t.sender ≠ some true := fun h' => by simp [h.sender.active h'] at ha
    have hcl := h.open_of_flow hf
    have hdl0 : fl.delivered = 0 := by rw [delivered_of_some hf] at hdel; exact hdel
    by_cases hz : fl.size = 0
    · -- an empty file: accepted and complete at once
      have hn : s.size = 0 := by rw [← fits.size, hz]
      rw [accepts_of_empty hc hf hz]
      refine ⟨fun _ h' => (by cases h'), ⟨fun h' => h.sender.opening h', fun _ => rfl, fun _ => rfl,
        0, [], [], by simp [requested, hn]; exact .nil 0, by simp [delivered, hn]; exact .nil 0, ?_, hch⟩,
        .open 0 [] (by simpa using hbytes) (by simp [delivered, hn]; exact .nil 0) ?_ (by simp [accepted])⟩
      · show t.toSender ++ _ = _
        simp only [closed] at hcl
        simp [hnone, senderDue, accepted, closed, hcl, hns]
      · show t.toReceiver ++ _ = _
        simp [hq, receiverDue]
    · -- the flow is accepted and pulls from the start
      rw [accepts_of_nonempty hc hf hz]
      refine ⟨fun g hg => ?_, ⟨fun h' => h.sender.opening h', fun _ => rfl, fun h' => ?_,
        0, [], [], by simp [requested, hdl0]; exact .nil 0, by simp [delivered, hdl0]; exact .nil 0, ?_, hch⟩,
        .open 0 [] (by simpa using hbytes) (by simp [delivered, hdl0]; exact .nil 0) ?_ (by simp [accepted])⟩
      · simp only [Option.some.injEq] at hg
        subst hg
        have := fits.size
        exact ⟨fits.sender, fits.receiver, fits.size, rfl, by simp, by simp [hdl0],
          fun h' => by simp at h', fun _ => by simp [hdl0]; omega⟩
      · simp [closed] at h' hcl
        simp [h'] at hcl
      · show t.toSender ++ _ = _
        simp only [closed] at hcl
        simp [hnone, senderDue, accepted, closed, hcl, hns]
      · show t.toReceiver = _
        simp [hq, receiverDue]


/-! ## The oldest event due to each side -/

/-- The oldest event due to the open sender: a resume while it is paused, a request within the
file while it is active, or, last of all, the end marker once the flow is gone. -/
theorem Good.senderHead (h : t.Good s) {b : Bool} (hs : t.sender = some b) {ev : FileEvent}
    {rest : List FileEvent} (hq : t.toSender = ev :: rest) :
    (b = false ∧ ev = .control s.outbound .resume) ∨
    (b = true ∧ ∃ r, ev = .pull s.outbound r ∧ 0 < r.length ∧ r.offset + r.length ≤ s.size) ∨
    (b = true ∧ ev = s.senderEnd ∧ rest = [] ∧ t.flow = none) := by
  obtain ⟨mid, P, cs, hP, hcs, hdue, -⟩ := h.sender.due
  have hmarks := h.marks
  cases b with
  | true =>
    rw [senderDue_active hs] at hdue
    cases P with
    | cons r P =>
      rw [hdue] at hq
      simp only [List.map_cons, List.cons_append, List.cons.injEq] at hq
      obtain ⟨start, pos, rest'⟩ := Tiles.cons_iff.1 hP
      have := rest'.le
      exact .inr (.inl ⟨rfl, r, hq.1.symm, pos, by omega⟩)
    | nil =>
      cases hf : t.flow with
      | none =>
        simp only [hf, Option.isNone_none, ↓reduceIte, List.map_nil, List.nil_append] at hdue
        rw [hdue, List.cons.injEq] at hq
        exact .inr (.inr ⟨rfl, hq.1.symm, hq.2.symm, rfl⟩)
      | some fl => simp [hdue, hf] at hq
  | false =>
    rw [senderDue_paused hs] at hdue
    cases ha : t.accepted with
    | true =>
      simp only [ha, ↓reduceIte, List.cons_append] at hdue
      rw [hdue, List.cons.injEq] at hq
      exact .inl ⟨rfl, hq.1.symm⟩
    | false =>
      -- nothing is due before the flow is accepted
      obtain ⟨fl, hf, hreq, -⟩ := h.idle ha
      rw [hreq] at hP
      have hmid : mid = 0 := Nat.le_zero.1 hP.le
      subst hmid
      rw [hP.eq_nil] at hdue
      simp [hdue, ha, hf] at hq

/-- The oldest event due to the receiver: the offer while it has no transfer; or, while its file
holds the bytes before a request, the chunk of that request; or, last of all, the end marker once
the flow is gone and the file is whole. -/
theorem Good.receiverHead (h : t.Good s) {ev : FileEvent} {rest : List FileEvent}
    (hq : t.toReceiver = ev :: rest) :
    (t.receiver = none ∧ ev = .offered s.inbound s.name s.size ∧ t.controls = []) ∨
    (∃ r, t.receiver = some (s.bytes.extract 0 r.offset) ∧ ev = s.arrival r ∧ 0 < r.length ∧
      r.offset + r.length ≤ s.size) ∨
    (t.receiver = some s.bytes ∧ ev = s.receiverEnd ∧ rest = [] ∧ t.flow = none) := by
  cases h.receiver with
  | offered absent due quiet waiting =>
    rw [due, List.cons.injEq] at hq
    exact .inl ⟨absent, hq.1.symm, quiet⟩
  | closed absent due => simp [due] at hq
  | «open» w C bytes tiles due asks =>
    have hmarks := h.marks
    cases C with
    | cons r C =>
      obtain ⟨start, pos, rest'⟩ := Tiles.cons_iff.1 tiles
      have := rest'.le
      rw [due] at hq
      simp only [receiverDue, List.map_cons, List.cons_append, List.cons.injEq] at hq
      exact .inr (.inl ⟨r, by rw [bytes, start], hq.1.symm, pos, by omega⟩)
    | nil =>
      cases hf : t.flow with
      | some fl => simp [due, receiverDue, hf] at hq
      | none =>
        have hw : w = s.size := by
          rw [delivered_of_none hf] at tiles
          exact Tiles.nil_iff.1 tiles
        simp only [due, receiverDue, List.map_nil, hf, Option.isNone_none, ↓reduceIte,
          List.nil_append, List.cons.injEq] at hq
        refine .inr (.inr ⟨?_, hq.1.symm, hq.2.symm, rfl⟩)
        rw [bytes, hw]
        simp [Shipment.size, ByteArray.extract_zero_size]

/-! ## Where each side drops the transfer -/

@[simp] theorem senderTakes_flow : (t.senderTakes s).flow = t.flow := by
  unfold Transit.senderTakes
  split <;> (try split) <;> rfl

@[simp] theorem senderTakes_toSender : (t.senderTakes s).toSender = t.toSender.tail := by
  unfold Transit.senderTakes
  split
  · rename_i h; simp [h]
  all_goals (try split) <;> simp_all

theorem senderTakes_apart : (t.senderTakes s).opening = t.opening ∧ (t.senderTakes s).receiver = t.receiver ∧
    (t.senderTakes s).toReceiver = t.toReceiver ∧ (t.senderTakes s).controls = t.controls := by
  unfold Transit.senderTakes
  split <;> (try split) <;> exact ⟨rfl, rfl, rfl, rfl⟩

/-- Handling `k` events at the sender takes them off what is due to it, and changes nothing else
but the sender's transfer and the chunks in flight. -/
theorem iterate_senderTakes (k : Nat) :
    (Nat.iterate (Transit.senderTakes s) k t).toSender = t.toSender.drop k ∧
    (Nat.iterate (Transit.senderTakes s) k t).flow = t.flow ∧
    (Nat.iterate (Transit.senderTakes s) k t).opening = t.opening ∧
    (Nat.iterate (Transit.senderTakes s) k t).receiver = t.receiver ∧
    (Nat.iterate (Transit.senderTakes s) k t).toReceiver = t.toReceiver ∧
    (Nat.iterate (Transit.senderTakes s) k t).controls = t.controls := by
  induction k generalizing t with
  | zero => exact ⟨rfl, rfl, rfl, rfl, rfl, rfl⟩
  | succ k ih =>
    obtain ⟨h₁, h₂, h₃, h₄, h₅, h₆⟩ := @ih (t.senderTakes s)
    obtain ⟨a₃, a₄, a₅, a₆⟩ := @senderTakes_apart s t
    refine ⟨?_, h₂.trans senderTakes_flow, h₃.trans a₃, h₄.trans a₄, h₅.trans a₅, h₆.trans a₆⟩
    rw [Function.iterate_succ_apply, h₁, senderTakes_toSender, List.drop_tail]

/-- Handling an event drops the sender's transfer only if the event is a request of length zero. -/
theorem senderTakes_drops_on_zero (hs : t.sender.isSome = true) (hd : (t.senderTakes s).sender = none) :
    ∃ id r rest, t.toSender = .pull id r :: rest ∧ r.length = 0 := by
  unfold Transit.senderTakes at hd
  split at hd
  · simp [hd] at hs
  · cases hd
  · rename_i id r rest hq
    split at hd
    · exact ⟨id, r, rest, hq, by assumption⟩
    · have hd' : t.sender = none := hd
      simp [hd'] at hs
  · have hd' : t.sender = none := hd
    simp [hd'] at hs

/-- The sender drops the transfer only on its end marker, the last event due to it, once the hub's
flow is gone. -/
theorem Good.senderTakes_drops (h : t.Good s) (hs : t.sender.isSome = true)
    (hd : (t.senderTakes s).sender = none) : t.toSender = [s.senderEnd] ∧ t.flow = none := by
  obtain ⟨id, r, rest, hq, hr⟩ := senderTakes_drops_on_zero hs hd
  obtain ⟨act, hact⟩ := Option.isSome_iff_exists.1 hs
  obtain ⟨mid, P, cs, hP, hcs, hdue, hch⟩ := h.sender.due
  cases act with
  | true =>
    rw [senderDue_active hact] at hdue
    cases P with
    | cons p P =>
      -- a request due has a length
      rw [hdue] at hq
      simp only [List.map_cons, List.cons_append, List.cons.injEq, FileEvent.pull.injEq] at hq
      have := (Tiles.cons_iff.1 hP).2.1
      rw [← hq.1.2] at hr
      omega
    | nil =>
      cases hf : t.flow with
      | none => simp [hdue, hf]
      | some fl => simp [hdue, hf] at hq
  | false =>
    rw [senderDue_paused hact] at hdue
    cases ha : t.accepted with
    | true => simp [hdue, ha] at hq
    | false =>
      obtain ⟨fl, hf, hreq, -⟩ := h.idle ha
      rw [hreq] at hP
      have hmid : mid = 0 := Nat.le_zero.1 hP.le
      subst hmid
      rw [hP.eq_nil] at hdue
      simp [hdue, ha, hf] at hq

@[simp] theorem receiverTakes_flow : t.receiverTakes.flow = t.flow := by
  unfold Transit.receiverTakes
  split <;> (try split) <;> rfl

/-- Handling an event drops the receiver's transfer only if the event is an empty chunk. -/
theorem receiverTakes_drops_on_empty (hr : t.receiver.isSome = true) (hd : t.receiverTakes.receiver = none) :
    ∃ id o data rest, t.toReceiver = .chunk id o data :: rest ∧ data.size = 0 := by
  unfold Transit.receiverTakes at hd
  split at hd
  · simp [hd] at hr
  · cases hd
  · rename_i id o data rest hq
    split at hd
    · exact ⟨id, o, data, rest, hq, by assumption⟩
    · have hd' : t.receiver.map (· ++ data) = none := hd
      rw [Option.map_eq_none_iff] at hd'
      simp [hd'] at hr
  · have hd' : t.receiver = none := hd
    simp [hd'] at hr

/-- The receiver drops the transfer only on its end marker, once the hub's flow is gone, and its
file then holds the whole file. -/
theorem Good.receiverTakes_drops (h : t.Good s) {b : ByteArray} (hr : t.receiver = some b)
    (hd : t.receiverTakes.receiver = none) :
    t.toReceiver = [s.receiverEnd] ∧ t.flow = none ∧ b = s.bytes := by
  obtain ⟨id, o, data, rest, hq, hz⟩ := receiverTakes_drops_on_empty (by simp [hr]) hd
  cases h.receiver with
  | offered absent => simp [hr] at absent
  | closed absent => simp [hr] at absent
  | «open» w C bytes tiles due asks =>
    cases C with
    | cons c C =>
      -- a chunk due is not empty
      obtain ⟨start, pos, rest⟩ := Tiles.cons_iff.1 tiles
      have hdn := h.marks
      have hle := rest.le
      have hfit : c.offset + c.length ≤ s.bytes.size := by simp only [Shipment.size] at hdn; omega
      rw [due] at hq
      simp only [receiverDue, List.map_cons, List.cons_append, List.cons.injEq, Shipment.arrival,
        FileEvent.chunk.injEq] at hq
      rw [← hq.1.2.2, ByteArray.size_extract] at hz
      omega
    | nil =>
      cases hf : t.flow with
      | some fl => simp [due, receiverDue, hf] at hq
      | none =>
        have hw : w = s.size := by
          rw [delivered_of_none hf] at tiles
          exact Tiles.nil_iff.1 tiles
        rw [hr, hw] at bytes
        refine ⟨by simp [due, receiverDue, hf], rfl, ?_⟩
        simpa [Shipment.size, ByteArray.extract_zero_size] using bytes

end Transit

end Courier.Transfer
