-- The pulls of a flow along a run: a round asks for chunks only after the receiver's last resume,
-- with no pause since, and the requests since that resume tile the file from its mark.
import Courier.Proofs.FlowNotices
import Courier.Proofs.ShipmentSteps
import Mathlib

namespace Courier

/-- The chunk request an event makes of file number `file`, if it is one. -/
def Event.pullOf? (file : UInt32) : Event → Option ChunkRequest
  | .chunkRequested id r => if id.file = file then some r else none
  | _ => none

theorem Event.pullOf?_of_fileId? {file : UInt32} {e : Event} {id : TransferId} (h : e.fileId? = some id)
    (hne : id.file ≠ file) : e.pullOf? file = none := by
  cases e <;> simp_all [Event.fileId?, Event.pullOf?]

namespace Network

/-! ## What an observer logs -/

/-- The requests a round of `me` makes for a file: what the round hands on past the inbox. -/
def madePulls (net : Network) (me : PublicKey) (file : UInt32) : List ChunkRequest :=
  ((net.pump me).2.drop (net.inbox me).length).filterMap (Event.pullOf? file)

/-- What an observer of the operations knows of the flow of one file number since it was last
offered. -/
structure PullLog where
  /-- The size offered. -/
  size : Nat := 0
  /-- Whether the receiver has resumed the flow. -/
  accepted : Bool := false
  /-- Whether a pause came after the last resume. -/
  paused : Bool := false
  /-- The flow's delivered mark at the last resume. -/
  start : Nat := 0
  /-- The requests the rounds made since the last resume, in order. -/
  pulls : List ChunkRequest := []
  /-- The chunks the network took since the last resume. -/
  sent : Nat := 0
deriving DecidableEq

/-- The log after one more operation. An offer of the file number starts it again. A resume that
goes through starts the requests and the chunks again from the flow's delivered mark, and accepts
the flow when its receiver sends it; a pause marks it paused. A chunk the network takes is
counted, and a round adds the requests it makes. -/
def logOp (net : Network) (file : UInt32) (L : PullLog) : Op → PullLog
  | .offerFile me peer name size =>
    if net.opensFile file (.offerFile me peer name size) then { size } else L
  | .setControl me id c =>
    match net.setControl me id c with
    | .error _ => L
    | .ok _ =>
      if id.file ≠ file then L
      else match c with
        | .resume =>
          { L with
            accepted := L.accepted || (net.flow? file).any (·.receiver == me)
            paused := false
            start := ((net.flow? file).map (·.delivered)).getD 0
            pulls := []
            sent := 0 }
        | .pause => { L with paused := true }
        | .cancel => L
  | .sendChunk me id offset data =>
    if (net.chunkFor file (.sendChunk me id offset data)).isSome then { L with sent := L.sent + 1 } else L
  | .pump me => { L with pulls := L.pulls ++ net.madePulls me file }
  | _ => L

/-- The log of a file number along operations. -/
def pullLog (file : UInt32) : Network → PullLog → List Op → PullLog
  | _, L, [] => L
  | net, L, op :: ops => pullLog file (net.apply op) (net.logOp file L op) ops

/-! ## The laws of the log -/

/-- What the log of a flow says: the requests since the last resume tile the file from the mark
delivered then, within the file, each a chunk long or the rest of the file; and they are at most
32 more than the chunks sent since. -/
structure PullLog.Sound (L : PullLog) : Prop where
  tiles : ∃ stop, Tiles L.start stop L.pulls ∧ stop ≤ L.size
  lengths : ∀ r ∈ L.pulls, r.length = min (L.size - r.offset) chunkSize
  count : L.pulls.length ≤ maxOutstanding + L.sent

/-- The log agrees with the live flow `f`: the same size, acceptance and pause, requests that
tile the file from the log's start to the flow's `requested` mark, and no more of them than are
outstanding or were answered by a chunk. -/
structure PullLog.Tracks (L : PullLog) (f : Flow) : Prop where
  size : f.size = L.size
  accepted : f.accepted = L.accepted
  paused : f.paused = L.paused
  tiles : Tiles L.start f.requested L.pulls
  count : L.pulls.length ≤ f.outstanding + L.sent

/-- The invariant of a file number along a run: the flow table has one entry for it at most, the
log is sound, and it agrees with the flow while the flow lives. -/
structure Follows (file : UInt32) (net : Network) (L : PullLog) : Prop where
  single : net.Single file
  sound : L.Sound
  live : ∀ f, net.flow? file = some f → L.Tracks f

variable {net net' : Network} {file : UInt32} {L : PullLog} {f : Flow}

theorem marks_of_flow? (hs : net.Sound) (hf : net.flow? file = some f) : f.Marks :=
  (hs _ (mem_of_flow? hf)).marks

theorem PullLog.Sound.keep {L' : PullLog} (h : L.Sound) (hsize : L'.size = L.size)
    (hstart : L'.start = L.start) (hpulls : L'.pulls = L.pulls) (hsent : L.sent ≤ L'.sent) : L'.Sound := by
  obtain ⟨⟨stop, htiles, hstop⟩, hlen, hcount⟩ := h
  refine ⟨⟨stop, by rw [hstart, hpulls]; exact htiles, by omega⟩, ?_, by rw [hpulls]; omega⟩
  rw [hpulls, hsize]
  exact hlen

theorem PullLog.sound_of_nil (hp : L.pulls = []) (hle : L.start ≤ L.size) : L.Sound :=
  ⟨⟨L.start, hp ▸ .nil _, hle⟩, by simp [hp], by simp [hp]⟩

/-- The log of a live flow that it agrees with is sound: the flow asks for nothing past its end,
and has at most 32 requests outstanding. -/
theorem Follows.of_live (hsingle : net.Single file)
    (hlen : ∀ r ∈ L.pulls, r.length = min (L.size - r.offset) chunkSize)
    (hf : net.flow? file = some f) (ht : L.Tracks f) (hm : f.Marks) : Follows file net L := by
  refine ⟨hsingle, ⟨⟨f.requested, ht.tiles, ht.size ▸ hm.requested_le⟩, hlen, ?_⟩, fun g hg => ?_⟩
  · have := ht.count
    have := hm.outstanding_le
    omega
  · rw [hf, Option.some.injEq] at hg
    exact hg ▸ ht

theorem Follows.of_gone (hsingle : net.Single file) (hsound : L.Sound) (hf : net.flow? file = none) :
    Follows file net L :=
  ⟨hsingle, hsound, fun g hg => by rw [hf] at hg; cases hg⟩

theorem Follows.of_aside (h : Follows file net L) (ha : Aside file net net') : Follows file net' L :=
  ⟨ha.single h.single, h.sound, fun g hg => h.live g (ha.flow? ▸ hg)⟩

theorem Follows.of_chats (h : Follows file net L) (hc : Chats net net') : Follows file net' L := by
  have hflow : net'.flow? file = net.flow? file := by simp only [Network.flow?, hc.flows]
  refine ⟨?_, h.sound, fun g hg => h.live g (hflow ▸ hg)⟩
  unfold Single entries
  rw [hc.flows]
  exact h.single

theorem follows_empty (file : UInt32) : Follows file {} {} :=
  Follows.of_gone (Nat.zero_le 1) (PullLog.sound_of_nil rfl (Nat.le_refl 0)) rfl

/-! ## A round -/

theorem pullsOf_counted (id : TransferId) (fl : Flow) (fuel : Nat) :
    (pullsOf id fl fuel).1.outstanding = fl.outstanding + (pullsOf id fl fuel).2.length ∧
      ∀ ev ∈ (pullsOf id fl fuel).2, ∃ r, ev = .chunkRequested id r ∧ r.length = min (fl.size - r.offset) chunkSize := by
  induction fuel generalizing fl with
  | zero => simp [pullsOf]
  | succ fuel ih =>
    simp only [pullsOf]
    split
    · obtain ⟨hout, hevs⟩ := ih { fl with requested := fl.requested + min (fl.size - fl.requested) chunkSize,
                                            outstanding := fl.outstanding + 1 }
      refine ⟨?_, fun ev hev => ?_⟩
      · simp only [List.length_cons] at hout ⊢
        omega
      · rcases List.mem_cons.1 hev with rfl | hev
        · exact ⟨_, rfl, rfl⟩
        · exact hevs ev hev
    · simp

/-- The pulls of a flow, as requests: they tile the file from the `requested` mark on, each a
chunk long or the rest of the file, and each adds one to the count outstanding. -/
theorem pullsOf_requests (id : TransferId) (fl : Flow) (fuel : Nat) (h : fl.requested ≤ fl.size) :
    ∃ rs, (pullsOf id fl fuel).2 = rs.map (.chunkRequested id) ∧
      Tiles fl.requested (pullsOf id fl fuel).1.requested rs ∧
      (pullsOf id fl fuel).1 = { fl with requested := (pullsOf id fl fuel).1.requested,
                                         outstanding := (pullsOf id fl fuel).1.outstanding } ∧
      (pullsOf id fl fuel).1.outstanding = fl.outstanding + rs.length ∧
      ∀ r ∈ rs, r.length = min (fl.size - r.offset) chunkSize := by
  obtain ⟨rs, hevs, htiles, -, hkeep⟩ := pullsOf_tiles id fl fuel h
  obtain ⟨hout, hlen⟩ := pullsOf_counted id fl fuel
  refine ⟨rs, hevs, htiles, hkeep, by rw [hout, hevs, List.length_map], fun r hr => ?_⟩
  obtain ⟨r', hr', hlen'⟩ := hlen _ (hevs ▸ List.mem_map_of_mem hr)
  cases hr'
  exact hlen'

@[simp] theorem filterMap_pullOf?_requests (peer file : UInt32) (rs : List ChunkRequest) :
    (rs.map (Event.chunkRequested ⟨peer, file⟩)).filterMap (Event.pullOf? file) = rs := by
  simp [List.filterMap_map, Function.comp_def, Event.pullOf?]

/-- A round on the flow of `file`: the flow stays and makes no request, or the round is its
sender's, the flow is accepted and running, and it makes its pulls. -/
theorem roundEntry_cases (n : Node) (me : PublicKey) (file : UInt32) (f : Flow) :
    roundEntry n me (file, f) = ((file, f), []) ∨
      ∃ peer, f.sender = me ∧ f.accepted = true ∧ f.paused = false ∧
        roundEntry n me (file, f) = ((file, (pullsOf ⟨peer, file⟩ f (maxOutstanding + 1)).1),
          (pullsOf ⟨peer, file⟩ f (maxOutstanding + 1)).2) := by
  unfold roundEntry
  split
  · rename_i hgo
    simp only [Bool.and_eq_true, beq_iff_eq, Bool.not_eq_true'] at hgo
    split
    · rename_i peer _
      exact .inr ⟨peer, hgo.1.1, hgo.1.2, hgo.2, rfl⟩
    · exact .inl rfl
  · exact .inl rfl

theorem filterMap_pullOf?_round (n : Node) (me : PublicKey) (file : UInt32) :
    ∀ l : List (UInt32 × Flow),
      (l.flatMap fun e => (roundEntry n me e).2).filterMap (Event.pullOf? file) =
        ((l.filter (·.1 == file)).flatMap fun e => (roundEntry n me e).2).filterMap (Event.pullOf? file)
  | [] => rfl
  | e :: l => by
    rw [List.flatMap_cons, List.filter_cons, List.filterMap_append, filterMap_pullOf?_round n me file l]
    split
    · rw [List.flatMap_cons, List.filterMap_append]
    · -- an entry of another file makes no request of this one
      rename_i hne
      have hnone : (roundEntry n me e).2.filterMap (Event.pullOf? file) = [] := by
        refine List.filterMap_eq_nil_iff.2 fun ev hev => ?_
        obtain ⟨peer, hid⟩ := roundEntry_events n me e ev hev
        exact Event.pullOf?_of_fileId? hid (by simpa using hne)
      rw [hnone, List.nil_append]

theorem madePulls_eq {me : PublicKey} {n : Node} (hn : net.node? me = some n) (hs : net.Single file) :
    net.madePulls me file =
      ((net.flow? file).toList.flatMap fun f => (roundEntry n me (file, f)).2).filterMap (Event.pullOf? file) := by
  have hin : net.inbox me = n.inbox := by simp [inbox, hn]
  rw [madePulls, pump_eq hn, hin, List.drop_left, filterMap_pullOf?_round,
    show net.flows.filter (·.1 == file) = net.entries file from rfl, entries_of_single hs]
  simp [List.flatMap_map]

theorem madePulls_of_offline {me : PublicKey} (hn : net.node? me = none) : net.madePulls me file = [] := by
  simp [madePulls, pump, hn]

theorem flow?_pump {me : PublicKey} {n : Node} (hn : net.node? me = some n) (hs : net.Single file) :
    (net.pump me).1.flow? file = (net.flow? file).map fun f => (roundEntry n me (file, f)).1.2 := by
  rw [flow?_eq_entries, entries_pump hn, entries_of_single hs]
  cases net.flow? file <;> simp

/-- A round makes requests of a flow only if it is the flow's sender's, and the flow is accepted
and running. -/
theorem madePulls_of_ne_nil {me : PublicKey} (hs : net.Single file) (h : net.madePulls me file ≠ []) :
    ∃ f, net.flow? file = some f ∧ f.sender = me ∧ f.accepted = true ∧ f.paused = false := by
  cases hn : net.node? me with
  | none => exact absurd (madePulls_of_offline hn) h
  | some n =>
    rw [madePulls_eq hn hs] at h
    cases hf : net.flow? file with
    | none => simp [hf] at h
    | some f =>
      rcases roundEntry_cases n me file f with heq | ⟨peer, hsnd, hacc, hp, -⟩
      · simp [hf, heq] at h
      · exact ⟨f, rfl, hsnd, hacc, hp⟩

/-! ## One operation -/

/-- An offer of the file number makes a new flow, which the new log agrees with; an offer of
another number keeps the flow and the log. -/
theorem Follows.offerFile (hs : net.Sound) (h : Follows file net L) (me : PublicKey) (peer : UInt32)
    (name : String) (size : Nat) :
    Follows file (net.apply (.offerFile me peer name size)) (net.logOp file L (.offerFile me peer name size)) := by
  have hs' := hs.apply (.offerFile me peer name size)
  cases ho : net.offerFile me peer name size with
  | error e =>
    have happ : net.apply (.offerFile me peer name size) = net := by simp [apply, orStay, ho, Except.map]
    have hlog : net.logOp file L (.offerFile me peer name size) = L := by simp [logOp, opensFile, ho]
    rw [happ, hlog]
    exact h
  | ok r =>
    obtain ⟨net', id⟩ := r
    have happ : net.apply (.offerFile me peer name size) = net' := by simp [apply, orStay, ho, Except.map]
    rw [happ] at hs' ⊢
    obtain ⟨friend, hnet, hid⟩ := offerFile_eq_ok ho
    by_cases hnext : net.nextFile = file
    · have hlog : net.logOp file L (.offerFile me peer name size) = { size } := by
        simp [logOp, opensFile, ho, hid, hnext]
      rw [hlog]
      subst hnext
      have hf : net'.flow? net.nextFile = some { sender := me, receiver := friend, size } := by
        rw [hnet, flow?_post, flow?_setFlow, if_pos rfl]
      have hsingle : net'.Single net.nextFile := by
        rw [hnet]
        exact single_post _ _ _ _ (single_setFlow _ _ _ _ h.single)
      exact Follows.of_live hsingle (by simp) hf ⟨rfl, rfl, rfl, .nil 0, by simp⟩ (marks_of_flow? hs' hf)
    · have hlog : net.logOp file L (.offerFile me peer name size) = L := by
        simp [logOp, opensFile, ho, hid, hnext]
      rw [hlog]
      exact h.of_aside (aside_offerFile ho hnext).1

/-- A resume of the flow that goes through starts the log again from the flow's delivered mark,
where the flow pulls from again; an accepted empty flow completes at once. -/
theorem Follows.resume (hs : net.Sound) {me : PublicKey} {id : TransferId} (h : Follows id.file net L)
    (hc : net.setControl me id .resume = .ok net') :
    Follows id.file net' (net.logOp id.file L (.setControl me id .resume)) := by
  obtain ⟨f, o, hf, -, hnet⟩ := setControl_eq hc
  have ht := h.live f hf
  have hsingle : net'.Single id.file := (kept_setControl hc id.file).single h.single
  have hlog : net.logOp id.file L (.setControl me id .resume) =
      { L with
        accepted := L.accepted || f.receiver == me
        paused := false
        start := f.delivered
        pulls := []
        sent := 0 } := by
    simp [logOp, hc, hf]
  rw [hlog]
  -- nothing has been asked since the resume, which starts at a mark within the file
  have hsound : PullLog.Sound
      { L with
        accepted := L.accepted || f.receiver == me
        paused := false
        start := f.delivered
        pulls := []
        sent := 0 } :=
    PullLog.sound_of_nil rfl (ht.size ▸ (marks_of_flow? hs hf).delivered_le)
  dsimp only at hnet
  split at hnet
  · -- an accepted empty flow completes at once
    refine Follows.of_gone hsingle hsound ?_
    rw [hnet, flow?_complete, if_pos rfl]
  · have hf' : net'.flow? id.file = some
        { f with
          accepted := f.accepted || f.receiver == me
          paused := false
          requested := f.delivered
          outstanding := 0 } := by
      rw [hnet, flow?_post, flow?_setFlow, if_pos rfl]
    refine Follows.of_live hsingle (by simp) hf' ⟨ht.size, ?_, rfl, .nil _, by simp⟩
      (marks_of_flow? (hs.tidy (tidy_setControl hs hc)) hf')
    simp only [ht.accepted]

/-- A control of the flow: a resume starts the log again, a pause marks it paused, a cancel ends
the flow and keeps the log. A control of another flow, or one refused, keeps both. -/
theorem Follows.setControl (hs : net.Sound) (h : Follows file net L) (me : PublicKey) (id : TransferId)
    (c : FileControl) :
    Follows file (net.apply (.setControl me id c)) (net.logOp file L (.setControl me id c)) := by
  cases hc : net.setControl me id c with
  | error e =>
    have happ : net.apply (.setControl me id c) = net := by simp [apply, orStay, hc]
    have hlog : net.logOp file L (.setControl me id c) = L := by simp [logOp, hc]
    rw [happ, hlog]
    exact h
  | ok net' =>
    have happ : net.apply (.setControl me id c) = net' := by simp [apply, orStay, hc]
    rw [happ]
    by_cases hid : id.file = file
    swap
    · have hlog : net.logOp file L (.setControl me id c) = L := by simp [logOp, hc, hid]
      rw [hlog]
      exact h.of_aside (aside_setControl hc hid)
    subst hid
    have hs' : net'.Sound := hs.tidy (tidy_setControl hs hc)
    have hsingle : net'.Single id.file := (kept_setControl hc id.file).single h.single
    obtain ⟨f, o, hf, -, hnet⟩ := setControl_eq hc
    have ht := h.live f hf
    cases c with
    | resume => exact h.resume hs hc
    | pause =>
      have hlog : net.logOp id.file L (.setControl me id .pause) = { L with paused := true } := by
        simp [logOp, hc]
      rw [hlog]
      have hf' : net'.flow? id.file = some { f with paused := true } := by
        rw [hnet, flow?_post, flow?_setFlow, if_pos rfl]
      exact Follows.of_live hsingle h.sound.lengths hf' ⟨ht.size, ht.accepted, rfl, ht.tiles, ht.count⟩
        (marks_of_flow? hs' hf')
    | cancel =>
      have hlog : net.logOp id.file L (.setControl me id .cancel) = L := by simp [logOp, hc]
      rw [hlog]
      refine Follows.of_gone hsingle h.sound ?_
      rw [hnet, flow?_post, flow?_dropFlow, if_pos rfl]

/-- A chunk of the flow that the network takes is counted, and takes one request off the count
outstanding; a chunk of another flow, or one refused, keeps the flow and the log. -/
theorem Follows.sendChunk (hs : net.Sound) (h : Follows file net L) (me : PublicKey) (id : TransferId)
    (offset : Nat) (data : ByteArray) :
    Follows file (net.apply (.sendChunk me id offset data)) (net.logOp file L (.sendChunk me id offset data)) := by
  have hs' := hs.apply (.sendChunk me id offset data)
  cases hc : net.sendChunk me id offset data with
  | error e =>
    have happ : net.apply (.sendChunk me id offset data) = net := by simp [apply, orStay, hc]
    have hlog : net.logOp file L (.sendChunk me id offset data) = L := by simp [logOp, chunkFor, hc]
    rw [happ, hlog]
    exact h
  | ok net' =>
    have happ : net.apply (.sendChunk me id offset data) = net' := by simp [apply, orStay, hc]
    rw [happ] at hs' ⊢
    by_cases hid : id.file = file
    swap
    · have hlog : net.logOp file L (.sendChunk me id offset data) = L := by simp [logOp, chunkFor, hc, hid]
      rw [hlog]
      exact h.of_aside (aside_sendChunk hc hid)
    subst hid
    have hlog : net.logOp id.file L (.sendChunk me id offset data) = { L with sent := L.sent + 1 } := by
      simp [logOp, chunkFor, hc]
    rw [hlog]
    obtain ⟨f, hflow, -, -, -, hnet⟩ := sendChunk_ok hc
    have hf := flow?_of_flowOf hflow
    have ht := h.live f hf
    have hsingle : net'.Single id.file := (kept_sendChunk hc id.file).single h.single
    have hsound : PullLog.Sound { L with sent := L.sent + 1 } := h.sound.keep rfl rfl rfl (Nat.le_succ _)
    dsimp only at hnet
    split at hnet
    · -- the last byte arrived: the flow completes
      refine Follows.of_gone hsingle hsound ?_
      rw [hnet, flow?_complete, if_pos rfl]
    · have hf' : net'.flow? id.file = some
          { f with
            outstanding := f.outstanding - 1
            delivered := max f.delivered ((offset + data.size) % Nat.pow 2 64) } := by
        rw [hnet, flow?_post, flow?_setFlow, if_pos rfl]
      refine Follows.of_live hsingle h.sound.lengths hf' ⟨ht.size, ht.accepted, ht.paused, ht.tiles, ?_⟩
        (marks_of_flow? hs' hf')
      -- a chunk answers one request, or none once the count is down to zero
      have := ht.count
      dsimp only
      omega

/-- A round of the flow's sender adds the requests it makes, which continue the tiling from the
flow's `requested` mark; any other round makes none and keeps the flow. -/
theorem Follows.pump (hs : net.Sound) (h : Follows file net L) (me : PublicKey) :
    Follows file (net.pump me).1 { L with pulls := L.pulls ++ net.madePulls me file } := by
  have hs' : (net.pump me).1.Sound := hs.apply (.pump me)
  have hsingle : (net.pump me).1.Single file := single_pump h.single
  cases hn : net.node? me with
  | none =>
    have hsame : net.pump me = (net, []) := by simp [Network.pump, hn]
    rw [madePulls_of_offline hn, List.append_nil, hsame]
    exact h
  | some n =>
    have hflow : (net.pump me).1.flow? file = _ := flow?_pump hn h.single
    rw [madePulls_eq hn h.single]
    cases hf : net.flow? file with
    | none =>
      rw [hf, Option.map_none] at hflow
      simp only [Option.toList_none, List.flatMap_nil, List.filterMap_nil, List.append_nil]
      exact Follows.of_gone hsingle h.sound hflow
    | some f =>
      have ht := h.live f hf
      rw [hf, Option.map_some] at hflow
      simp only [Option.toList_some, List.flatMap_cons, List.flatMap_nil, List.append_nil]
      rcases roundEntry_cases n me file f with heq | ⟨peer, -, -, -, heq⟩
      · -- the flow is not the node's, or waits: nothing is asked
        rw [heq] at hflow ⊢
        simp only [List.filterMap_nil, List.append_nil]
        exact Follows.of_live hsingle h.sound.lengths hflow ht (marks_of_flow? hs hf)
      · rw [heq] at hflow ⊢
        obtain ⟨rs, hevs, htiles, hkeep, hout, hlen⟩ :=
          pullsOf_requests ⟨peer, file⟩ f (maxOutstanding + 1) (marks_of_flow? hs hf).requested_le
        rw [hevs, filterMap_pullOf?_requests]
        have ht' : PullLog.Tracks { L with pulls := L.pulls ++ rs } (pullsOf ⟨peer, file⟩ f (maxOutstanding + 1)).1 := by
          rw [hkeep]
          refine ⟨ht.size, ht.accepted, ht.paused, ht.tiles.append htiles, ?_⟩
          have := ht.count
          simp only [List.length_append, hout] at this ⊢
          omega
        refine Follows.of_live hsingle (fun r hr => ?_) hflow ht' (marks_of_flow? hs' hflow)
        rcases List.mem_append.1 hr with hr | hr
        · exact h.sound.lengths r hr
        · rw [hlen r hr, ht.size]

/-- A node going offline ends its flows and keeps the log. -/
theorem Follows.leave (h : Follows file net L) (me : PublicKey) : Follows file (net.leave me) L := by
  cases hn : net.node? me with
  | none =>
    simp only [Network.leave, hn]
    exact h
  | some n =>
    have hflow := flow?_cancelSteps me file (net.partings me) (net.withoutNode me)
    rw [← leave_eq hn, flow?_withoutNode] at hflow
    have hsingle : (net.leave me).Single file := by
      rw [leave_eq hn]
      exact single_cancelSteps me _ _ h.single
    refine ⟨hsingle, h.sound, fun g hg => ?_⟩
    rw [hflow] at hg
    split at hg
    · cases hg
    · exact h.live g hg

/-- Every operation keeps the log in step with the flow. -/
theorem Follows.apply (hs : net.Sound) (h : Follows file net L) (op : Op) :
    Follows file (net.apply op) (net.logOp file L op) := by
  cases op with
  | fresh name => exact h.of_chats (chats_append _ rfl _)
  | restore name state =>
    exact @orStay_map_cases _ (Follows file · L) net _ h fun _ hr => h.of_chats (chats_restore hr)
  | befriend a b => exact orStay_cases net h fun _ hb => h.of_chats (chats_befriend hb)
  | requestFriend src dest message =>
    exact orStay_cases net h fun _ hr => h.of_chats (chats_requestFriend hr)
  | addFriend me k =>
    exact @orStay_map_cases _ (Follows file · L) net _ h fun _ ha => h.of_chats (chats_addFriend ha)
  | sendText me peer text =>
    exact @orStay_map_cases _ (Follows file · L) net _ h fun _ ht => h.of_chats (chats_sendText ht)
  | offerFile me peer name size => exact h.offerFile hs me peer name size
  | setControl me id c => exact h.setControl hs me id c
  | sendChunk me id offset data => exact h.sendChunk hs me id offset data
  | pump me => exact h.pump hs me
  | saveState _ => exact h
  | leave me => exact h.leave me

theorem Follows.run (hs : net.Sound) (h : Follows file net L) (ops : List Op) :
    Follows file (net.run ops) (pullLog file net L ops) := by
  -- the network's soundness and the log's agreement are carried together, step by step
  induction ops generalizing net L with
  | nil => exact h
  | cons op ops ih => exact ih (hs.apply op) (h.apply hs op)

/-! ## Every run -/

/-- Along any run from the empty network, for every file number, with the log `L` of what has
happened to its flow since it was last offered: a round makes requests of the flow only if it is
the sender's round, the receiver has resumed the flow, and no pause came after the last resume.
The requests made since the last resume, by all the rounds since in order, tile the file from the
mark delivered at that resume up to a point within the file, with no gap or overlap; each asks for
a chunk, or the rest of the file when less is left; and there are at most 32 more of them than
chunks the network took since. -/
theorem pulls_follow_the_last_resume (file : UInt32) (ops : List Op) :
    let L := pullLog file {} {} ops
    (∀ me, (run {} ops).madePulls me file ≠ [] →
      L.accepted = true ∧ L.paused = false ∧ ∃ f, (run {} ops).flow? file = some f ∧ f.sender = me) ∧
    (∃ stop, Tiles L.start stop L.pulls ∧ stop ≤ L.size) ∧
    (∀ r ∈ L.pulls, r.length = min (L.size - r.offset) chunkSize) ∧
    L.pulls.length ≤ maxOutstanding + L.sent := by
  intro L
  have h : Follows file (run {} ops) L := (follows_empty file).run sound_empty ops
  refine ⟨fun me hm => ?_, h.sound.tiles, h.sound.lengths, h.sound.count⟩
  obtain ⟨f, hf, hsnd, hacc, hp⟩ := madePulls_of_ne_nil h.single hm
  have ht := h.live f hf
  exact ⟨ht.accepted ▸ hacc, ht.paused ▸ hp, f, hf, hsnd⟩

/-- Two friends; the first offers a file of 3000 bytes and the second resumes it. The sender's
next round asks for two whole chunks and the 258 bytes left, and the log saw the receiver resume
the flow and no pause since. -/
theorem sender_pulls_three_chunks_after_the_resume :
    let alice := freshKey ({} : Network)
    let bob := freshKey ({ made := 1 } : Network)
    let ops : List Op := [.fresh "alice", .fresh "bob", .befriend alice bob,
      .offerFile alice 0 "f.bin" 3000, .setControl bob ⟨0, 0⟩ .resume]
    (run {} ops).madePulls alice 0 = [⟨0, 1371⟩, ⟨1371, 1371⟩, ⟨2742, 258⟩] ∧
      (pullLog 0 {} {} ops).accepted = true ∧ (pullLog 0 {} {} ops).paused = false ∧
      (pullLog 0 {} {} (ops ++ [.pump alice])).pulls = [⟨0, 1371⟩, ⟨1371, 1371⟩, ⟨2742, 258⟩] := by
  intro alice bob ops
  have hm : (run {} ops).madePulls alice 0 = [⟨0, 1371⟩, ⟨1371, 1371⟩, ⟨2742, 258⟩] := by decide +kernel
  obtain ⟨hround, -⟩ := pulls_follow_the_last_resume 0 ops
  obtain ⟨hacc, hp, -⟩ := hround alice (by rw [hm]; simp)
  exact ⟨hm, hacc, hp, by decide +kernel⟩

end Network

end Courier
