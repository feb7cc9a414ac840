-- A shipment from its offer to its end: along every run of moves that leave it alone, each side's
-- transfer ends only by its end marker and the receiver's file then holds the whole file.
import Courier.Proofs.ShipmentSteps

namespace Courier.Network

theorem offerFile_of_knows {net net' : Network} {me other : PublicKey} {peer : UInt32} {name : String}
    {size : Nat} {id : TransferId} (hk : net.Knows me other peer)
    (h : net.offerFile me peer name size = .ok (net', id)) :
    net' = (({ net with nextFile := net.nextFile + 1 } : Network).setFlow net.nextFile
        { sender := me, receiver := other, size }).post other me
          (fun p => .fileOffered ⟨p, net.nextFile⟩ name size) ∧ id = ⟨peer, net.nextFile⟩ := by
  obtain ⟨n, hn, hkn⟩ := hk
  have hnode : net.node me = .ok n := by simp [node, hn]
  unfold offerFile at h
  simp only [hnode, hkn.friend, bind, Except.bind] at h
  -- the friend is online and lists `me`, or the offer fails
  cases hfr : net.node? other with
  | none => simp [hfr, throw, throwThe, MonadExceptOf.throw] at h
  | some nf =>
    cases hp : nf.peerOf? me with
    | none => simp [hfr, hp, throw, throwThe, MonadExceptOf.throw] at h
    | some q =>
      simp only [hfr, hp, Option.isSome_some, Bool.not_true, Bool.false_eq_true, ↓reduceIte, pure,
        Except.pure, Except.ok.injEq, Prod.mk.injEq] at h
      obtain ⟨rfl, rfl⟩ := h
      exact ⟨rfl, rfl⟩

end Courier.Network

namespace Courier

theorem Bridge.offerFile_ok {b : Bridge} {net : Network} {me : PublicKey} {peer : UInt32} {name : String}
    {size : Nat} {id : TransferId} (h : (b.offerFile (Network.wire me) net peer name size).2 = .ok id) :
    net.offerFile me peer name size = .ok ((b.offerFile (Network.wire me) net peer name size).1, id) := by
  unfold Bridge.offerFile Bridge.ask at *
  by_cases hrun : b.running = true
  · simp only [hrun, ↓reduceIte, Network.wire_offerFile] at h ⊢
    cases hof : net.offerFile me peer name size with
    | error e => simp [hof, Except.mapError] at h
    | ok r =>
      obtain ⟨net', i⟩ := r
      rw [hof] at h
      simp only [Network.settle_ok, Except.mapError] at h
      rw [Except.ok.inj h]
      rfl
  · simp [hrun] at h

end Courier

namespace Courier.Transfer

open Network Files

/-- Nothing of a shipment under way: no transfer at either side, nothing due, nothing in flight,
and no flow at the hub. -/
def Transit.idle : Transit where
  sender := none
  opening := false
  toSender := []
  chunks := []
  flow := none
  receiver := none
  toReceiver := []
  controls := []

/-- Nothing under way fits: it is where a finished shipment stands. -/
theorem Transit.good_idle (s : Shipment) : Transit.idle.Good s where
  flow fl h := by cases h
  sender :=
    { opening := fun h => by cases h
      active := fun h => by cases h
      closed := fun _ => rfl
      due := ⟨s.size, [], [], by simp [requested, idle, Tiles.nil_iff], by simp [delivered, idle, Tiles.nil_iff],
        by simp [senderDue, idle, closed], rfl⟩ }
  receiver := .closed rfl rfl rfl rfl

namespace Course.Tracks

variable {c : Course} {q : Pair} {o : Offer}

/-- The hub takes the sender's offer of the shipment: the flow gets the hub's next number, which
is the shipment's, and the receiver is told. -/
theorem offered_net (before after : List Offer) (h : c.Tracks q)
    (hans : (q.sender.bridge.offerFile (Network.wire q.sender.key) q.net o.peer (offerName o.file.path)
      o.file.size).2 = .ok c.outbound) :
    c.file = q.net.nextFile ∧ (q.offer before after o).net =
      (({ q.net with nextFile := q.net.nextFile + 1 } : Network).setFlow q.net.nextFile
        { sender := q.sender.key, receiver := c.receiver, size := o.file.size }).post c.receiver q.sender.key
        (fun p => .fileOffered ⟨p, q.net.nextFile⟩ (offerName o.file.path) o.file.size) := by
  have hhub := Bridge.offerFile_ok hans
  obtain ⟨-, -, hid⟩ := offerFile_eq_ok hhub
  have hk : q.net.Knows q.sender.key c.receiver o.peer := by
    rw [h.sender_key, show o.peer = c.outbound.peer by rw [hid]]
    exact h.knows_sender
  exact ⟨by rw [Course.file, hid], (offerFile_of_knows hk hhub).1⟩

theorem offered_inboxes (before after : List Offer) (h : c.Tracks q)
    (hans : (q.sender.bridge.offerFile (Network.wire q.sender.key) q.net o.peer (offerName o.file.path)
      o.file.size).2 = .ok c.outbound) :
    (q.offer before after o).net.inbox q.sender.key = q.net.inbox q.sender.key ∧
      (q.offer before after o).net.inbox q.receiver.key =
        q.net.inbox q.receiver.key ++ [.fileOffered c.inbound (offerName o.file.path) o.file.size] := by
  obtain ⟨hno, hnet⟩ := offered_net before after h hans
  have hp : ({ q.net with nextFile := q.net.nextFile + 1 } : Network).peerAt c.receiver q.sender.key =
      some c.inbound.peer := by
    rw [h.sender_key]
    exact h.knows_receiver.peerAt
  constructor
  · rw [hnet, inbox_post, if_neg (by rw [h.sender_key]; exact h.apart.symm)]
    rfl
  · rw [hnet, h.receiver_key, inbox_post, if_pos rfl, peerAt_setFlow, hp]
    simp only [Option.toList_some, List.map_cons, List.map_nil]
    rw [← hno, show (⟨c.inbound.peer, c.file⟩ : TransferId) = c.inbound from Course.inbound_eta c h.same_file]
    rfl

theorem offered_openings {before after : List Offer} (hidle : c.transit q = Transit.idle)
    (ho : q.sender.offers = before ++ o :: after) (hw : o.answer = none)
    (hans : (q.sender.bridge.offerFile (Network.wire q.sender.key) q.net o.peer (offerName o.file.path)
      o.file.size).2 = .ok c.outbound) :
    (q.offer before after o).sender.openings c.outbound = 1 := by
  have h0 : q.sender.openings c.outbound = 0 := by
    have := congrArg Transit.opening hidle
    simpa [Course.transit, Transit.idle] using this
  have h1 : (q.offer before after o).sender.openings c.outbound = q.sender.openings c.outbound + 1 := by
    simp [Side.openings, Pair.offer, ho, List.filter_append, Offer.answers, hans, hw]
    omega
  rw [h1, h0]

/-- The sender's offer of the source file, answered with the shipment's transfer, turns a pair with
nothing of the shipment under way into the start of its transit. -/
theorem offered_transit {before after : List Offer} (h : c.Tracks q) (hidle : c.transit q = Transit.idle)
    (ho : q.sender.offers = before ++ o :: after) (hw : o.answer = none) (hfile : o.file = ⟨c.path, c.size⟩)
    (hname : c.name = offerName c.path)
    (hans : (q.sender.bridge.offerFile (Network.wire q.sender.key) q.net o.peer (offerName o.file.path)
      o.file.size).2 = .ok c.outbound) :
    c.transit (q.offer before after o) = Transit.start c.toShipment := by
  obtain ⟨hno, hnet⟩ := offered_net before after h hans
  obtain ⟨hinS, hinR⟩ := offered_inboxes before after h hans
  -- the sides' transfers, the chunks and the controls are untouched, and so still idle
  ext1
  · have := congrArg Transit.sender hidle
    exact this
  · simp [Course.transit, offered_openings hidle ho hw hans, Transit.start]
  · have := congrArg Transit.toSender hidle
    simp only [Course.transit, Side.stream, Side.queued] at this ⊢
    rw [show (q.offer before after o).sender.key = q.sender.key from rfl, hinS]
    exact this
  · have := congrArg Transit.chunks hidle
    exact this
  · simp only [Course.transit, Transit.start]
    rw [hnet, flow?_post, flow?_setFlow, if_pos hno, h.sender_key, hfile]
  · have := congrArg Transit.receiver hidle
    exact this
  · have := congrArg Transit.toReceiver hidle
    have hrecv : (q.offer before after o).receiver = q.receiver := rfl
    simp only [Course.transit, Side.stream, Side.queued] at this ⊢
    rw [hrecv, hinR]
    simp only [List.map_append, eventsFor_append, ← List.append_assoc] at this ⊢
    rw [this, hfile, ← hname]
    simp [eventsFor, Transit.start, Transit.idle]
  · have := congrArg Transit.controls hidle
    exact this

/-- The sender's offer of the source file, answered with the shipment's transfer, starts the
shipment: its transit is the start, and what holds along it holds. -/
theorem offered {before after : List Offer} (h : c.Tracks q) (hidle : c.transit q = Transit.idle)
    (ho : q.sender.offers = before ++ o :: after) (hw : o.answer = none) (hfile : o.file = ⟨c.path, c.size⟩)
    (hname : c.name = offerName c.path)
    (hans : (q.sender.bridge.offerFile (Network.wire q.sender.key) q.net o.peer (offerName o.file.path)
      o.file.size).2 = .ok c.outbound) :
    c.transit (q.offer before after o) = Transit.start c.toShipment ∧ c.Tracks (q.offer before after o) := by
  have ht := offered_transit h hidle ho hw hfile hname hans
  -- the hub only numbered a new flow and told the receiver
  have hkept : Kept c.file q.net (q.offer before after o).net := by
    rw [(offered_net before after h hans).2]
    exact ((⟨fun _ => rfl, id⟩ : Kept c.file q.net { q.net with nextFile := q.net.nextFile + 1 }).trans
      (kept_setFlow _ _ _ _)).trans (kept_post _ _ _ _ _)
  refine ⟨ht, { h with
    good := ht ▸ Transit.good_start
    knows_sender := hkept.knows h.knows_sender
    knows_receiver := hkept.knows h.knows_receiver
    single := hkept.single h.single
    serves_sender := h.serves_sender.of_bridge rfl
    once := (offered_openings hidle ho hw hans).le
    offers := ?_ }⟩
  intro o' ho' ha
  simp only [Pair.offer, List.mem_append, List.mem_cons] at ho'
  rcases ho' with ho' | rfl | ho'
  · exact h.offers o' (by rw [ho]; simp [ho']) ha
  · exact hfile
  · exact h.offers o' (by rw [ho]; simp [ho']) ha

end Course.Tracks

/-- A file offered from one node to a friend: along every run of moves that leave it alone, each
side's transfer ends only by its end marker, after the hub has let the flow go, and the receiver's
file then holds the whole file at its destination. The pair starts with both nodes online and
friends, their bridges serving and their engines sound, the source file on the volume, and nothing
of the shipment under way; the sender's offer of the file is answered with the shipment's transfer. -/
theorem transfers_end_only_by_end_markers {c : Course} {q p p' : Pair} {before after : List Offer} {o : Offer}
    {m : Move} (hq : c.Tracks q) (hidle : c.transit q = Transit.idle)
    (ho : q.sender.offers = before ++ o :: after) (hw : o.answer = none) (hfile : o.file = ⟨c.path, c.size⟩)
    (hname : c.name = offerName c.path)
    (hans : (q.sender.bridge.offerFile (Network.wire q.sender.key) q.net o.peer (offerName o.file.path)
      o.file.size).2 = .ok c.outbound)
    (hrun : PairRun c.Allowed (q.offer before after o) p) (hs : PairStep p m p') (hA : c.Allowed p m p') :
    c.Ends p m p' :=
  (((Course.Tracks.offered hq hidle ho hw hfile hname hans).2.run hrun).step hs hA).2

set_option maxRecDepth 20000 in
set_option maxHeartbeats 400000 in
/-- Two friends, the first offering a file of one byte to the second, which has a receive
directory: the pair starts as the law asks, and an allowed run of twenty moves delivers the byte.
It ends the sender's transfer on the sender's end marker and then the receiver's on its own, with
the byte in the received file. -/
theorem one_byte_offer_is_delivered :
    let kS := PublicKey.replicate 1
    let kR := PublicKey.replicate 2
    let b : Bridge := { address := ⟨kS, 0, 0⟩, windows := { config := {} }, fileSlot := some 0 }
    let e : Engine := { root := "/", receiveDir := "/r" }
    let o : Offer := { peer := 0, file := ⟨"/f", 1⟩ }
    let q : Pair :=
      { net := { nodes := [(kS, { name := "s", nospam := 0, friends := [kR] }),
                           (kR, { name := "r", nospam := 0, friends := [kS] })] }
        volume := { entries := [(["f"], .file 0), (["r"], .dir)], blobs := #[⟨#[97]⟩] }
        sender := { key := kS, bridge := b, engine := e, offers := [o] }
        receiver := { key := kR, bridge := b, engine := e } }
    let c : Course :=
      { bytes := ⟨#[97]⟩, name := "f", sender := kS, receiver := kR, outbound := ⟨0, 0⟩,
        inbound := ⟨0, 0⟩, path := "/f", inode := 0 }
    c.Tracks q ∧ c.transit q = Transit.idle ∧
      ∃ p, PairRun c.Allowed (q.offer [] [] o) p ∧
        let m : Move := .work .receiver (.event (.chunk c.inbound 1 ByteArray.empty))
        let p' := p.work .receiver (.event (.chunk c.inbound 1 ByteArray.empty)) []
        PairStep p m p' ∧ c.Allowed p m p' ∧ c.Ends p m p' ∧
          p'.sender.engine.transfers = [] ∧ p'.receiver.engine.transfers = [] ∧
          p'.volume.openFile "/r/f" = .ok 1 ∧ p'.volume.blob 1 = c.bytes := by
  intro kS kR b e o q c
  have hidle : c.transit q = Transit.idle := rfl
  have hq : c.Tracks q :=
    { good := hidle ▸ Transit.good_idle c.toShipment
      sender_key := rfl
      receiver_key := rfl
      apart := by decide
      same_file := rfl
      small := by decide
      knows_sender := ⟨_, rfl, by decide, rfl⟩
      knows_receiver := ⟨_, rfl, by decide, rfl⟩
      single := Nat.zero_le 1
      serves_sender := ⟨rfl, rfl, List.Pairwise.nil⟩
      serves_receiver := ⟨rfl, rfl, List.Pairwise.nil⟩
      calls_sender := fun _ h => by cases h
      calls_receiver := fun _ h => by cases h
      tagged_sender := fun _ h => by cases h
      tagged_receiver := fun _ h => by cases h
      holdable_sender := fun _ h => by cases h
      holdable_receiver := fun _ h => by cases h
      sender_file := fun _ h => by cases h
      sender_held := fun h => by cases h
      once := by decide
      creates := fun _ h => by cases h
      offers := fun _ h ha => by
        cases h with
        | head => exact absurd ha (by decide)
        | tail _ h => cases h
      receiver_opens := fun _ h => by cases h
      quiet_sender := rfl
      quiet_receiver := rfl
      receiver_sees :=
        { file := fun _ h => by cases h
          held := fun _ h => by cases h
          sound := fun _ _ h => by
            cases h with
            | head => decide
            | tail _ h => cases h with
              | tail _ h => cases h }
      source_path := by cbv
      source_bytes := rfl }
  have hname : c.name = offerName c.path := by cbv
  have hans : (q.sender.bridge.offerFile (Network.wire q.sender.key) q.net o.peer (offerName o.file.path)
      o.file.size).2 = .ok c.outbound := by cbv
  -- each move's end state is evaluated once, so the next move reads a value and not the moves
  -- before it
  have r₁ : PairRun c.Allowed (q.offer [] [] o) _ := PairRun.step (.refl _)
    (.settle _ [] [] { o with answer := some (.ok ⟨0, 0⟩) } (by cbv) rfl)
    (Course.allowed_of_volume (Pair.settle_volume ..) (by simp) (by simp) (by simp))
  conv at r₁ => arg 3; cbv
  have r₂ := r₁.step (.work _ .sender (.create ⟨0, 0⟩ "/f" 1) [] (by cbv))
    (Course.allowed_sender_work (by cbv) (by cbv))
  conv at r₂ => arg 3; cbv
  -- the receiver hears of the offer, makes its file and resumes the transfer
  have r₃ := r₂.step (.round _ .receiver)
    (Course.allowed_of_volume (Pair.round_volume ..) (by simp) (by simp) (by simp))
  conv at r₃ => arg 3; cbv
  have r₄ := r₃.step (.dispatch _ .receiver (.event (.fileOffered ⟨0, 0⟩ "f" 1)) [] (by cbv))
    (Course.allowed_of_volume (Pair.dispatch_volume ..) (by simp) (by simp) (by simp))
  conv at r₄ => arg 3; cbv
  have r₅ := r₄.step (.work _ .receiver (.event (.offered ⟨0, 0⟩ "f" 1)) [] (by cbv))
    (Course.allowed_receiver_work rfl (by cbv) (by cbv))
  conv at r₅ => arg 3; cbv
  have r₆ := r₅.step (.serve _ .receiver (.control ⟨0, 0⟩ .resume) [] (by cbv))
    (Course.allowed_of_volume (Pair.serve_control_volume ..) (by simp) (by simp) (by simp))
  conv at r₆ => arg 3; cbv
  -- the sender hears the resume and the first pull, and sends the byte
  have r₇ := r₆.step (.round _ .sender)
    (Course.allowed_sender_round (Pair.round_volume ..) (WindowTable.keeps_at_zero _ _))
  conv at r₇ => arg 3; cbv
  have r₈ := r₇.step (.dispatch _ .sender (.event (.fileControl ⟨0, 0⟩ .resume))
      [.event (.chunkRequested ⟨0, 0⟩ ⟨0, 1⟩)] (by cbv))
    (Course.allowed_of_volume (Pair.dispatch_volume ..) (by simp) (by simp) (by simp))
  conv at r₈ => arg 3; cbv
  have r₉ := r₈.step (.work _ .sender (.event (.control ⟨0, 0⟩ .resume)) [] (by cbv))
    (Course.allowed_sender_work (by cbv) (by cbv))
  conv at r₉ => arg 3; cbv
  have r₁₀ := r₉.step (.dispatch _ .sender (.event (.chunkRequested ⟨0, 0⟩ ⟨0, 1⟩)) [] (by cbv))
    (Course.allowed_of_volume (Pair.dispatch_volume ..) (by simp) (by simp) (by simp))
  conv at r₁₀ => arg 3; cbv
  have r₁₁ := r₁₀.step (.work _ .sender (.event (.pull ⟨0, 0⟩ ⟨0, 1⟩)) [] (by cbv))
    (Course.allowed_sender_work (by cbv) (by cbv))
  conv at r₁₁ => arg 3; cbv
  have r₁₂ := r₁₁.step (.serve _ .sender (.chunk ⟨0, 0⟩ 0 ⟨#[97]⟩) [] (by cbv))
    (Course.allowed_of_volume (Pair.serve_chunk_volume ..) (by simp) (by simp) (by simp))
  -- the hub takes a chunk's end modulo 2^64, a power that `cbv` would unfold factor by factor:
  -- it is written out as a number first
  conv at r₁₂ =>
    arg 3
    rw [Pair.serve_sender_chunk]
    simp only [Bridge.chunk, Network.wire, Network.sendChunk,
      show Nat.pow 2 64 = 18446744073709551616 from rfl]
    cbv
  -- the receiver writes the byte; the sender, asked for the end, ends its side
  have r₁₃ := r₁₂.step (.round _ .receiver)
    (Course.allowed_of_volume (Pair.round_volume ..) (by simp) (by simp) (by simp))
  conv at r₁₃ => arg 3; cbv
  have r₁₄ := r₁₃.step (.dispatch _ .receiver (.event (.chunkReceived ⟨0, 0⟩ 0 ⟨#[97]⟩))
      [.event (.chunkReceived ⟨0, 0⟩ 1 ByteArray.empty)] (by cbv))
    (Course.allowed_of_volume (Pair.dispatch_volume ..) (by simp) (by simp) (by simp))
  conv at r₁₄ => arg 3; cbv
  have r₁₅ := r₁₄.step (.work _ .receiver (.event (.chunk ⟨0, 0⟩ 0 ⟨#[97]⟩)) [] (by cbv))
    (Course.allowed_receiver_work rfl (by cbv) (by cbv))
  conv at r₁₅ => arg 3; cbv
  have r₁₆ := r₁₅.step (.round _ .sender)
    (Course.allowed_sender_round (Pair.round_volume ..) (WindowTable.keeps_at_zero _ _))
  conv at r₁₆ => arg 3; cbv
  have r₁₇ := r₁₆.step (.dispatch _ .sender (.event (.chunkRequested ⟨0, 0⟩ ⟨1, 0⟩)) [] (by cbv))
    (Course.allowed_of_volume (Pair.dispatch_volume ..) (by simp) (by simp) (by simp))
  conv at r₁₇ => arg 3; cbv
  have r₁₈ := r₁₇.step (.work _ .sender (.event (.pull ⟨0, 0⟩ ⟨1, 0⟩)) [] (by cbv))
    (Course.allowed_sender_work (by cbv) (by cbv))
  conv at r₁₈ => arg 3; cbv
  have r₁₉ := r₁₈.step (.dispatch _ .receiver (.event (.chunkReceived ⟨0, 0⟩ 1 ByteArray.empty))
      [] (by cbv))
    (Course.allowed_of_volume (Pair.dispatch_volume ..) (by simp) (by simp) (by simp))
  conv at r₁₉ => arg 3; cbv
  refine ⟨hq, hidle, _, r₁₉, ?_⟩
  dsimp only
  -- the last move: the receiver's worker takes the empty chunk that marks the end
  refine ⟨?hs, ?hA, transfers_end_only_by_end_markers hq hidle
    (show q.sender.offers = [] ++ o :: [] from rfl) rfl rfl hname hans r₁₉ ?hs ?hA,
    by cbv, by cbv, by cbv, by cbv⟩
  case hs => exact .work _ .receiver _ [] (by cbv)
  case hA => exact Course.allowed_receiver_work rfl (by cbv) (by cbv)

end Courier.Transfer
