-- Every end of a flow between two nodes is announced once to each party that did not end it, and
-- nothing about its file number is posted afterwards, along runs in which the file counter does not
-- wrap.
import Courier.Proofs.FlowNotices
import Courier.Proofs.ShipmentSteps
import Mathlib

namespace Courier.Network

variable {net net' : Network} {file : UInt32}

/-! ## The file counter -/

/-- Along the operations the file counter never wraps: no step takes it lower. From the empty
network this says that fewer than 2^32 files are offered. -/
def Unwrapped : Network → List Op → Prop
  | _, [] => True
  | net, op :: ops => net.nextFile ≤ (net.apply op).nextFile ∧ Unwrapped (net.apply op) ops

instance decUnwrapped : (net : Network) → (ops : List Op) → Decidable (Unwrapped net ops)
  | _, [] => isTrue trivial
  | net, op :: ops =>
    have := decUnwrapped (net.apply op) ops
    inferInstanceAs (Decidable (net.nextFile ≤ (net.apply op).nextFile ∧ Unwrapped (net.apply op) ops))

theorem Unwrapped.of_append {ops more : List Op} (h : Unwrapped net (ops ++ more)) :
    Unwrapped net ops ∧ Unwrapped (net.run ops) more := by
  induction ops generalizing net with
  | nil => exact ⟨trivial, h⟩
  | cons op ops ih =>
    obtain ⟨hop, hrest⟩ := h
    obtain ⟨hops, hmore⟩ := ih hrest
    exact ⟨⟨hop, hops⟩, hmore⟩

theorem lt_succ_of_le {a : UInt32} (h : a ≤ a + 1) : a < a + 1 := by
  rw [UInt32.le_iff_toNat_le] at h
  rw [UInt32.lt_iff_toNat_lt]
  have hsucc : (a + 1).toNat = (a.toNat + 1) % 2 ^ 32 := by simp [UInt32.toNat_add]
  have hbound := a.toNat_lt
  rw [hsucc] at h ⊢
  by_cases hwrap : a.toNat + 1 = 2 ^ 32
  · rw [hwrap, Nat.mod_self] at h
    omega
  · rw [Nat.mod_eq_of_lt (by omega)]
    omega

@[simp] theorem nextFile_complete (net : Network) (file : UInt32) : (net.complete file).nextFile = net.nextFile := by
  unfold complete
  split <;> simp

theorem nextFile_setControl {me : PublicKey} {id : TransferId} {c : FileControl}
    (h : net.setControl me id c = .ok net') : net'.nextFile = net.nextFile := by
  obtain ⟨f, o, -, -, hnet⟩ := setControl_eq h
  cases c with
  | resume =>
    dsimp only at hnet
    rw [hnet]
    split <;> simp
  | pause =>
    dsimp only at hnet
    simp [hnet]
  | cancel =>
    dsimp only at hnet
    simp [hnet]

theorem nextFile_sendChunk {me : PublicKey} {id : TransferId} {offset : Nat} {data : ByteArray}
    (h : net.sendChunk me id offset data = .ok net') : net'.nextFile = net.nextFile := by
  obtain ⟨f, -, -, -, -, rfl⟩ := sendChunk_ok h
  dsimp only
  split <;> simp

theorem nextFile_cancelSteps (me : PublicKey) :
    ∀ (l : List (UInt32 × PublicKey)) (n : Network), (l.foldl (cancelStep me) n).nextFile = n.nextFile
  | [], _ => rfl
  | g :: l, n => by rw [List.foldl_cons, nextFile_cancelSteps me l, cancelStep, nextFile_post, nextFile_dropFlow]

theorem nextFile_leave (net : Network) (me : PublicKey) : (net.leave me).nextFile = net.nextFile := by
  cases hn : net.node? me with
  | none => simp [leave, hn]
  | some n =>
    rw [leave_eq hn, nextFile_cancelSteps]
    rfl

/-! ## Settled file numbers -/

theorem pullsOf_keeps (id : TransferId) (f : Flow) (fuel : Nat) :
    (pullsOf id f fuel).1.accepted = f.accepted ∧ (pullsOf id f fuel).1.size = f.size := by
  induction fuel generalizing f with
  | zero => exact ⟨rfl, rfl⟩
  | succ fuel ih =>
    simp only [pullsOf]
    split
    · exact ih _
    · exact ⟨rfl, rfl⟩

theorem roundEntry_keeps (n : Node) (me : PublicKey) (e : UInt32 × Flow) :
    (roundEntry n me e).1.2.accepted = e.2.accepted ∧ (roundEntry n me e).1.2.size = e.2.size := by
  unfold roundEntry
  split
  · split
    · exact pullsOf_keeps _ _ _
    · exact ⟨rfl, rfl⟩
  · exact ⟨rfl, rfl⟩

theorem settled_empty (file : UInt32) : Settled file {} :=
  ⟨Nat.zero_le 1, fun _ => rfl, fun _ h => by cases h⟩

theorem Settled.of_step (h : Settled file net) (hsingle : net'.Single file)
    (hnext : net'.nextFile = net.nextFile) (hborn : net.flow? file = none → net'.flow? file = none)
    (hacc : ∀ g, net'.flow? file = some g → g.accepted = true → 0 < g.size) : Settled file net' :=
  ⟨hsingle, fun hle => hborn (h.unused (hnext ▸ hle)), hacc⟩

theorem Settled.of_live {f : Flow} (h : Settled file net) (hf : net.flow? file = some f)
    (hsingle : net'.Single file) (hnext : net'.nextFile = net.nextFile)
    (hacc : ∀ g, net'.flow? file = some g → g.accepted = true → 0 < g.size) : Settled file net' :=
  h.of_step hsingle hnext (fun hn => by rw [hf] at hn; cases hn) hacc

theorem Settled.of_flows (h : Settled file net) (hflows : net'.flows = net.flows)
    (hnext : net'.nextFile = net.nextFile) : Settled file net' := by
  have hflow : net'.flow? file = net.flow? file := by simp only [Network.flow?, hflows]
  refine h.of_step ?_ hnext (fun hn => hflow.trans hn) fun g hg => h.accepted g (hflow ▸ hg)
  unfold Single entries
  rw [hflows]
  exact h.single

theorem Settled.of_aside (h : Settled file net) (ha : Aside file net net')
    (hnext : net'.nextFile = net.nextFile) : Settled file net' :=
  h.of_step (ha.single h.single) hnext (fun hn => ha.flow?.trans hn) fun g hg => h.accepted g (ha.flow? ▸ hg)

/-- An offer makes the flow of the counter's number, not accepted, and moves the counter past it. -/
theorem Settled.offerFile (h : Settled file net) {me : PublicKey} {peer : UInt32} {name : String}
    {size : Nat} {r : Network × TransferId} (hs : net.offerFile me peer name size = .ok r)
    (hnext : net.nextFile ≤ r.1.nextFile) : Settled file r.1 := by
  obtain ⟨friend, hnet, -⟩ := offerFile_eq_ok hs
  rw [hnet] at hnext ⊢
  have hlt : net.nextFile < net.nextFile + 1 := lt_succ_of_le (by simpa using hnext)
  have hflow : ∀ file', (({ net with nextFile := net.nextFile + 1 } : Network).setFlow net.nextFile
      { sender := me, receiver := friend, size }).flow? file' =
        if file' = net.nextFile then some { sender := me, receiver := friend, size } else net.flow? file' :=
    fun file' => flow?_setFlow _ _ _ _
  refine ⟨single_post _ _ _ _ (single_setFlow _ _ _ _ h.single), fun hle => ?_, fun g hg hacc => ?_⟩
  · -- the new number lies below the counter, so `file` is past it too
    have hne : file ≠ net.nextFile := by
      rintro rfl
      exact UInt32.lt_irrefl _ (UInt32.lt_of_lt_of_le hlt (by simpa using hle))
    have hold : net.nextFile ≤ file :=
      UInt32.le_of_lt (UInt32.lt_of_lt_of_le hlt (by simpa using hle))
    rw [flow?_post, hflow, if_neg hne, h.unused hold]
  · rw [flow?_post, hflow] at hg
    split at hg
    · cases hg
      cases hacc
    · exact h.accepted g hg hacc

/-- A control keeps `file` settled: a resume that accepts an empty flow completes it. -/
theorem Settled.setControl (h : Settled file net) {me : PublicKey} {id : TransferId} {c : FileControl}
    (hs : net.setControl me id c = .ok net') : Settled file net' := by
  by_cases hid : id.file = file
  swap
  · exact h.of_aside (aside_setControl hs hid) (nextFile_setControl hs)
  subst hid
  obtain ⟨f, o, hf, -, hnet⟩ := setControl_eq hs
  refine h.of_live hf ((kept_setControl hs id.file).single h.single) (nextFile_setControl hs)
    fun g hg hacc => ?_
  cases c with
  | resume =>
    dsimp only at hnet
    rw [hnet] at hg
    split at hg
    · rw [flow?_complete, if_pos rfl] at hg
      cases hg
    · rename_i hfin
      rw [flow?_post, flow?_setFlow, if_pos rfl, Option.some.injEq] at hg
      subst hg
      simp only [Bool.and_eq_true, beq_iff_eq, not_and] at hfin
      exact Nat.pos_of_ne_zero (hfin hacc)
  | pause =>
    dsimp only at hnet
    rw [hnet, flow?_post, flow?_setFlow, if_pos rfl, Option.some.injEq] at hg
    subst hg
    exact h.accepted f hf hacc
  | cancel =>
    dsimp only at hnet
    rw [hnet, flow?_post, flow?_dropFlow, if_pos rfl] at hg
    cases hg

/-- A chunk keeps `file` settled: it changes neither the size nor the acceptance of a flow. -/
theorem Settled.sendChunk (h : Settled file net) {me : PublicKey} {id : TransferId} {offset : Nat}
    {data : ByteArray} (hs : net.sendChunk me id offset data = .ok net') : Settled file net' := by
  by_cases hid : id.file = file
  swap
  · exact h.of_aside (aside_sendChunk hs hid) (nextFile_sendChunk hs)
  subst hid
  obtain ⟨f, hflow, -, -, -, hnet⟩ := sendChunk_ok hs
  have hf := flow?_of_flowOf hflow
  refine h.of_live hf ((kept_sendChunk hs id.file).single h.single) (nextFile_sendChunk hs)
    fun g hg hacc => ?_
  subst hnet
  dsimp only at hg
  split at hg
  · rw [flow?_complete, if_pos rfl] at hg
    cases hg
  · rw [flow?_post, flow?_setFlow, if_pos rfl, Option.some.injEq] at hg
    subst hg
    exact h.accepted f hf hacc

/-- A round keeps `file` settled. -/
theorem Settled.pump (h : Settled file net) (me : PublicKey) : Settled file (net.pump me).1 := by
  refine h.of_step (single_pump h.single) (nextFile_pump net me) (flow?_pump_eq_none me).2
    fun g hg hacc => ?_
  cases hn : net.node? me with
  | none =>
    have hsame : (net.pump me).1 = net := by simp [Network.pump, hn]
    rw [hsame] at hg
    exact h.accepted g hg hacc
  | some n =>
    rw [flow?_eq_entries, entries_pump hn, List.head?_map, Option.map_map] at hg
    obtain ⟨e, he, rfl⟩ := Option.map_eq_some_iff.1 hg
    obtain ⟨hacc', hsize⟩ := roundEntry_keeps n me e
    have hold : net.flow? file = some e.2 := by rw [flow?_eq_entries, he]; rfl
    simp only [Function.comp_apply] at hacc ⊢
    rw [hsize]
    exact h.accepted e.2 hold (hacc' ▸ hacc)

/-- Going offline keeps `file` settled: it only ends flows. -/
theorem Settled.leave (h : Settled file net) (me : PublicKey) : Settled file (net.leave me) := by
  cases hn : net.node? me with
  | none =>
    simp only [Network.leave, hn]
    exact h
  | some n =>
    have hflow := flow?_cancelSteps me file (net.partings me) (net.withoutNode me)
    rw [← leave_eq hn, flow?_withoutNode] at hflow
    refine h.of_step ?_ (nextFile_leave net me) (fun hnone => by rw [hflow, hnone]; split <;> rfl)
      fun g hg hacc => ?_
    · rw [leave_eq hn]
      exact single_cancelSteps me _ _ h.single
    · rw [hflow] at hg
      split at hg
      · cases hg
      · exact h.accepted g hg hacc

/-- Every operation keeps a file number settled, while the counter does not wrap. -/
theorem Settled.apply (h : Settled file net) (op : Op) (hnext : net.nextFile ≤ (net.apply op).nextFile) :
    Settled file (net.apply op) := by
  rcases chats_or_file net op with hc | ⟨me, peer, name, size, rfl⟩ | ⟨me, id, c, rfl⟩ | ⟨me, id, o, d, rfl⟩ |
    ⟨me, rfl⟩ | ⟨me, rfl⟩
  · exact h.of_flows hc.flows hc.nextFile
  · revert hnext
    exact @orStay_map_cases TransferId (fun n => net.nextFile ≤ n.nextFile → Settled file n) net _
      (fun _ => h) fun _ hs hnext => h.offerFile hs hnext
  · exact orStay_cases net h fun _ hs => h.setControl hs
  · exact orStay_cases net h fun _ hs => h.sendChunk hs
  · exact h.pump me
  · exact h.leave me

theorem Settled.run {ops : List Op} (h : Settled file net) (hw : Unwrapped net ops) : Settled file (net.run ops) := by
  induction ops generalizing net with
  | nil => exact h
  | cons op ops ih => exact ih (h.apply op hw.1) hw.2

/-! ## After the end -/

/-- Along the operations, no step posts anything about `file`. -/
def Silent (file : UInt32) : Network → List Op → Prop
  | _, [] => True
  | net, op :: ops => (∀ k, ∀ e ∈ posted net (net.apply op) k, e.Apart file) ∧ Silent file (net.apply op) ops

/-- A file number that has been offered and whose flow has ended. -/
structure Ended (file : UInt32) (net : Network) : Prop where
  offered : file < net.nextFile
  gone : net.flow? file = none

theorem setControl_of_gone {me : PublicKey} {id : TransferId} {c : FileControl} (h : net.flow? id.file = none) :
    ∀ net', net.setControl me id c ≠ .ok net' := by
  obtain ⟨e, he⟩ := @flowOf_of_none _ me _ h
  intro net' hs
  simp [Network.setControl, he, bind, Except.bind] at hs

theorem sendChunk_of_gone {me : PublicKey} {id : TransferId} {offset : Nat} {data : ByteArray}
    (h : net.flow? id.file = none) : ∀ net', net.sendChunk me id offset data ≠ .ok net' := by
  obtain ⟨e, he⟩ := @flowOf_of_none _ me _ h
  intro net' hs
  simp [Network.sendChunk, he, bind, Except.bind] at hs

theorem cancelNotice_apart {file file' : UInt32} (h : file' ≠ file) (net : Network) (c o k : PublicKey) :
    ∀ e ∈ cancelNotice net file' c o k, e.Apart file := by
  intro e he
  unfold cancelNotice at he
  split at he
  · obtain ⟨p, -, rfl⟩ := List.mem_map.1 he
    intro id hid
    cases hid
    exact h
  · cases he

theorem partings_ne {me : PublicKey} (hs : net.Single file) (hg : net.flow? file = none) :
    ∀ g ∈ net.partings me, g.1 ≠ file := by
  have hnil := partings_filter hs me
  rw [hg] at hnil
  intro g hg' hfile
  exact List.filter_eq_nil_iff.1 hnil g hg' (by simp [hfile])

/-- A step after the end of a flow makes no flow for its number and posts nothing about it: a
control or a chunk for it fails, an offer is of the counter's number, and a node going offline
cancels only its live flows. -/
theorem Ended.step (h : Ended file net) (hset : Settled file net) (op : Op) :
    (net.apply op).flow? file = none ∧ ∀ k, ∀ e ∈ posted net (net.apply op) k, e.Apart file := by
  have hnext : net.nextFile ≠ file := fun he => UInt32.lt_irrefl _ (he ▸ h.offered)
  have of_aside : Aside file net (net.apply op) →
      (net.apply op).flow? file = none ∧ ∀ k, ∀ e ∈ posted net (net.apply op) k, e.Apart file :=
    fun ha => ⟨ha.flow?.trans h.gone, ha.posted_apart⟩
  rcases chats_or_file net op with hc | ⟨me, peer, name, size, rfl⟩ | ⟨me, id, c, rfl⟩ | ⟨me, id, o, d, rfl⟩ |
    ⟨me, rfl⟩ | ⟨me, rfl⟩
  · exact ⟨(hc.flow? file).trans h.gone, hc.apart file⟩
  · exact of_aside (orStay_map_cases net (Aside.refl net) fun _ hs => (aside_offerFile hs hnext).1)
  · refine of_aside (orStay_cases net (Aside.refl net) fun net' hs => aside_setControl hs fun hid => ?_)
    exact setControl_of_gone (hid ▸ h.gone) net' hs
  · refine of_aside (orStay_cases net (Aside.refl net) fun net' hs => aside_sendChunk hs fun hid => ?_)
    exact sendChunk_of_gone (hid ▸ h.gone) net' hs
  · exact ⟨(flow?_pump_eq_none me).2 h.gone, fun k e he => by simp [apply, posted_pump] at he⟩
  · cases hn : net.node? me with
    | none => exact of_aside (by simp only [apply, Network.leave, hn]; exact Aside.refl net)
    | some n =>
      refine ⟨?_, fun k e he => ?_⟩
      · rw [apply_leave, leave_eq hn, flow?_cancelSteps, flow?_withoutNode, h.gone]
        split <;> rfl
      · rw [apply_leave, posted_leave hn] at he
        split at he
        · cases he
        · obtain ⟨g, hg, he⟩ := List.mem_flatMap.1 he
          exact cancelNotice_apart (partings_ne hset.single h.gone g hg) net me g.2 k e he

/-- Once a flow has ended, no step of a run that does not wrap the counter posts anything about
its number. -/
theorem Ended.silent {ops : List Op} (h : Ended file net) (hset : Settled file net) (hw : Unwrapped net ops) :
    Silent file net ops := by
  induction ops generalizing net with
  | nil => trivial
  | cons op ops ih =>
    obtain ⟨hgone, hquiet⟩ := h.step hset op
    exact ⟨hquiet, ih ⟨UInt32.lt_of_lt_of_le h.offered hw.1, hgone⟩ (hset.apply op hw.1) hw.2⟩

/-! ## Counting the closing events -/

/-- The party that ends a flow of `file` by its own act, if the operation is one: its cancel of
the flow, or its going offline. -/
def Op.quitter (file : UInt32) : Op → Option PublicKey
  | .setControl c id .cancel => if id.file = file then some c else none
  | .leave c => some c
  | _ => none

theorem Flow.counterpart?_eq_some {f : Flow} {c o : PublicKey} (h : f.counterpart? c = some o) :
    (c = f.sender ∧ o = f.receiver) ∨ (c = f.receiver ∧ o = f.sender) := by
  unfold Flow.counterpart? at h
  by_cases hs : c = f.sender
  · subst hs
    simp only [beq_self_eq_true, if_true, Option.some.injEq] at h
    exact .inl ⟨rfl, h.symm⟩
  · by_cases hr : c = f.receiver
    · subst hr
      simp only [beq_iff_eq, hs, if_false, beq_self_eq_true, if_true, Option.some.injEq] at h
      exact .inr ⟨rfl, h.symm⟩
    · simp [hs, hr] at h

theorem Flow.party_ne_iff {f : Flow} {c o : PublicKey} (hne : f.sender ≠ f.receiver)
    (h : f.counterpart? c = some o) (k : PublicKey) : (f.counterpart? k ≠ none ∧ some c ≠ some k) ↔ k = o := by
  simp only [Ne, Flow.counterpart?_eq_none, Option.some.injEq]
  rcases Flow.counterpart?_eq_some h with ⟨rfl, rfl⟩ | ⟨rfl, rfl⟩
  · constructor
    · rintro ⟨hk, hc⟩
      by_contra ho
      exact hk ⟨Ne.symm hc, ho⟩
    · rintro rfl
      exact ⟨fun hk => hk.2 rfl, hne⟩
  · constructor
    · rintro ⟨hk, hc⟩
      by_contra ho
      exact hk ⟨ho, Ne.symm hc⟩
    · rintro rfl
      exact ⟨fun hk => hk.1 rfl, Ne.symm hne⟩

theorem Lists.peerAt {a b : PublicKey} (h : net.Lists a b) : ∃ p, net.peerAt a b = some p := by
  obtain ⟨n, hn, hb⟩ := h
  obtain ⟨i, hi⟩ := Option.isSome_iff_exists.1 (List.isSome_idxOf?.2 hb)
  exact ⟨i.toUInt32, by simp [Network.peerAt, hn, Node.peerOf?, hi]⟩

/-- Completing a sound flow between two different nodes tells each party once. -/
theorem endMarkers_length {f : Flow} (hs : net.FlowSound f) (hne : f.sender ≠ f.receiver) (k : PublicKey) :
    (endMarkers net file f k).length = if f.counterpart? k ≠ none then 1 else 0 := by
  obtain ⟨ps, hps⟩ := hs.sender.peerAt
  obtain ⟨pr, hpr⟩ := hs.receiver.peerAt
  unfold endMarkers
  rw [hps, hpr]
  by_cases hks : k = f.sender
  · subst hks
    simp [Flow.counterpart?_eq_none, hne]
  · by_cases hkr : k = f.receiver
    · subst hkr
      simp [Flow.counterpart?_eq_none, hks]
    · simp [Flow.counterpart?_eq_none, hks, hkr]

theorem cancelNotice_length {c o : PublicKey} (hl : net.Lists o c) (k : PublicKey) :
    (cancelNotice net file c o k).length = if k = o then 1 else 0 := by
  obtain ⟨p, hp⟩ := hl.peerAt
  unfold cancelNotice
  split <;> simp [hp]

theorem FlowSound.lists_other {f : Flow} {c o : PublicKey} (hs : net.FlowSound f) (h : f.counterpart? c = some o) :
    net.Lists o c := by
  rcases Flow.counterpart?_eq_some h with ⟨rfl, rfl⟩ | ⟨rfl, rfl⟩
  · exact hs.receiver
  · exact hs.sender

/-- A cancel by the party `c` of a sound flow between two different nodes tells each party once,
but `c`. -/
theorem cancelNotice_length_party {f : Flow} {c o : PublicKey} (hs : net.FlowSound f) (hne : f.sender ≠ f.receiver)
    (other : f.counterpart? c = some o) (k : PublicKey) :
    (cancelNotice net file c o k).length = if f.counterpart? k ≠ none ∧ some c ≠ some k then 1 else 0 := by
  rw [cancelNotice_length (hs.lists_other other)]
  exact if_congr (Flow.party_ne_iff hne other k).symm rfl rfl

/-- When a step ends a sound flow between two different nodes, each party is posted exactly one
closing event, except the party that ended it by its own act, which is posted none. -/
theorem Fate.announces_once {f : Flow} {op : Op} (hfate : Fate net file f op) (hs : net.FlowSound f)
    (hne : f.sender ≠ f.receiver) (hgone : (net.apply op).flow? file = none) (k : PublicKey) :
    ((posted net (net.apply op) k).filter (Event.closes file)).length =
      if f.counterpart? k ≠ none ∧ op.quitter file ≠ some k then 1 else 0 := by
  cases hfate with
  | stays live _ => exact absurd hgone live
  | completes _ cause notices =>
    have hq : op.quitter file = none := by
      rcases cause with ⟨p, o, d, rfl⟩ | ⟨p, rfl, -⟩ <;> rfl
    rw [notices, endMarkers_length hs hne, hq]
    simp
  | cancels c o p cause other _ notices =>
    subst cause
    have hq : (Op.setControl c ⟨p, file⟩ .cancel).quitter file = some c := by simp [Op.quitter]
    rw [notices, cancelNotice_length_party hs hne other, hq]
  | leaves c o cause other _ notices =>
    subst cause
    rw [notices, show (Op.leave c).quitter file = some c from rfl]
    split
    · rename_i hk
      subst hk
      simp
    · rw [cancelNotice_length_party hs hne other]

/-! ## Every end is announced once -/

/-- Along a run from the empty network that does not wrap the file counter, take the flow `f` of
`file` before some step, between two different nodes. The step keeps it and posts nothing that
closes it, or completes it, or is the cancel or the going offline of one of its parties
(`Network.Fate`, which also names the closing events each party is posted). If the step ends the
flow, each party is posted exactly one closing event, except the party that ended it by its own
act, which is posted none; and no later step posts anything about `file`. -/
theorem flow_ends_are_announced_once {pre rest : List Op} {op : Op} {file : UInt32} {f : Flow}
    (hw : Unwrapped {} (pre ++ op :: rest)) (hf : (run {} pre).flow? file = some f)
    (hne : f.sender ≠ f.receiver) :
    Fate (run {} pre) file f op ∧
      (((run {} pre).apply op).flow? file = none →
        (∀ k, ((posted (run {} pre) ((run {} pre).apply op) k).filter (Event.closes file)).length =
          if f.counterpart? k ≠ none ∧ op.quitter file ≠ some k then 1 else 0) ∧
        Silent file ((run {} pre).apply op) rest) := by
  obtain ⟨hpre, hnext, hrest⟩ := hw.of_append
  have hset : Settled file (run {} pre) := (settled_empty file).run hpre
  have hsound : (run {} pre).FlowSound f := sound_empty.run pre _ (mem_of_flow? hf)
  have hfate := fate hset hf op
  refine ⟨hfate, fun hgone => ⟨hfate.announces_once hsound hne hgone, ?_⟩⟩
  exact Ended.silent ⟨UInt32.lt_of_lt_of_le (hset.offered hf) hnext, hgone⟩ (hset.apply op hnext) hrest

/-- Two friends; the first offers a file of two bytes and cancels it. The receiver is told once,
the canceller not at all, and the receiver's next round posts nothing about the file. -/
theorem cancelled_offer_is_announced_once :
    let alice := freshKey ({} : Network)
    let bob := freshKey ({ made := 1 } : Network)
    let pre : List Op := [.fresh "alice", .fresh "bob", .befriend alice bob, .offerFile alice 0 "f.bin" 2]
    let op : Op := .setControl alice ⟨0, 0⟩ .cancel
    let rest : List Op := [.pump bob]
    let f : Flow := { sender := alice, receiver := bob, size := 2 }
    Unwrapped {} (pre ++ op :: rest) ∧ (run {} pre).flow? 0 = some f ∧ f.sender ≠ f.receiver ∧
      Fate (run {} pre) 0 f op ∧
        (((run {} pre).apply op).flow? 0 = none →
          (∀ k, ((posted (run {} pre) ((run {} pre).apply op) k).filter (Event.closes 0)).length =
            if f.counterpart? k ≠ none ∧ op.quitter 0 ≠ some k then 1 else 0) ∧
          Silent 0 ((run {} pre).apply op) rest) :=
  ⟨by decide +kernel, by decide +kernel, by decide +kernel,
    flow_ends_are_announced_once (by decide +kernel) (by decide +kernel) (by decide +kernel)⟩

/-- A node that is its own friend offers a file to itself and cancels it: the flow ends, and the
node that cancelled it is posted the cancel. -/
theorem self_flow_cancel_reaches_its_canceller :
    let alice := freshKey ({} : Network)
    let pre : List Op := [.fresh "alice", .befriend alice alice, .offerFile alice 0 "f.bin" 2]
    let op : Op := .setControl alice ⟨0, 0⟩ .cancel
    (run {} pre).flow? 0 = some { sender := alice, receiver := alice, size := 2 } ∧
      ((run {} pre).apply op).flow? 0 = none ∧ op.quitter 0 = some alice ∧
      ((posted (run {} pre) ((run {} pre).apply op) alice).filter (Event.closes 0)).length = 1 := by
  decide +kernel

end Courier.Network
