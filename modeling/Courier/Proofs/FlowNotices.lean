-- How the end of a flow is announced: every operation leaves a settled flow alone, completes it,
-- cancels it for one party, or takes a party offline, and posts the closing events that way says.
import Courier.Proofs.FlowCompletion
import Courier.Proofs.PairNetwork
import Mathlib

namespace Courier

/-- An event that closes the flow `file` for the node it reaches: a request of length zero, an
empty chunk, or a cancel. -/
def Event.closes (file : UInt32) : Event → Bool
  | .chunkRequested id r => id.file == file && r.length == 0
  | .chunkReceived id _ data => id.file == file && data.size == 0
  | .fileControl id c => id.file == file && c == .cancel
  | _ => false

theorem Event.closes_of_apart {file : UInt32} {e : Event} (h : e.Apart file) : e.closes file = false := by
  cases e <;> simp_all [Event.closes, Event.Apart, Event.fileId?]

theorem Event.apart_of_fileId? {file : UInt32} {e : Event} (h : e.fileId? = none) : e.Apart file := by
  intro id hid
  rw [h] at hid
  cases hid

namespace Network

variable {net net' net'' : Network}

/-! ## What a step posts -/

/-- The events a step posted to node `k`: what its inbox gained. A node whose inbox a pump round
handed on, or that went offline, was posted nothing. -/
def posted (net net' : Network) (k : PublicKey) : List Event := (net'.inbox k).drop (net.inbox k).length

/-- `net'` only adds to the inboxes of `net`: the events `news k` to node `k`. -/
def Adds (net net' : Network) (news : PublicKey → List Event) : Prop :=
  ∀ k, net'.inbox k = net.inbox k ++ news k

theorem Adds.posted {news : PublicKey → List Event} (h : Adds net net' news) (k : PublicKey) :
    posted net net' k = news k := by
  simp [Network.posted, h k]

theorem posted_of_inbox_nil {k : PublicKey} (h : net'.inbox k = []) : posted net net' k = [] := by
  simp [Network.posted, h]

theorem posted_self (net : Network) (k : PublicKey) : posted net net k = [] := by
  simp [Network.posted]

theorem adds_refl (net : Network) : Adds net net fun _ => [] := fun _ => by simp

theorem Adds.trans {n₁ n₂ : PublicKey → List Event} (h₁ : Adds net net' n₁) (h₂ : Adds net' net'' n₂) :
    Adds net net'' fun k => n₁ k ++ n₂ k := fun k => by rw [h₂ k, h₁ k, List.append_assoc]

theorem adds_post (net : Network) (dest src : PublicKey) (make : UInt32 → Event) :
    Adds net (net.post dest src make)
      fun k => if k = dest then (net.peerAt dest src).toList.map make else [] := by
  intro k
  rw [inbox_post]
  by_cases hk : k = dest <;> simp [hk]

theorem adds_setFlow (net : Network) (file : UInt32) (f : Flow) : Adds net (net.setFlow file f) fun _ => [] :=
  fun _ => by simp

theorem adds_dropFlow (net : Network) (file : UInt32) : Adds net (net.dropFlow file) fun _ => [] :=
  fun _ => by simp

theorem inbox_setNode {k : PublicKey} {n : Node} (hn : net.node? k = some n) (m : Node) (k' : PublicKey) :
    (net.setNode k m).inbox k' = if k' = k then m.inbox else net.inbox k' := by
  unfold inbox
  rw [node?_setNode]
  split
  · subst_vars
    simp [hn]
  · rfl

/-! ## Friend operations -/

/-- A step that changes no flow and no file number, and posts only friend events. -/
structure Chats (net net' : Network) : Prop where
  flows : net'.flows = net.flows
  nextFile : net'.nextFile = net.nextFile
  news : ∃ news, Adds net net' news ∧ ∀ k, ∀ e ∈ news k, e.fileId? = none

theorem Chats.refl (net : Network) : Chats net net := ⟨rfl, rfl, _, adds_refl net, by simp⟩

theorem Chats.trans (h₁ : Chats net net') (h₂ : Chats net' net'') : Chats net net'' := by
  obtain ⟨n₁, ha₁, he₁⟩ := h₁.news
  obtain ⟨n₂, ha₂, he₂⟩ := h₂.news
  refine ⟨h₂.flows.trans h₁.flows, h₂.nextFile.trans h₁.nextFile, _, ha₁.trans ha₂, fun k e he => ?_⟩
  rcases List.mem_append.1 he with he | he
  · exact he₁ k e he
  · exact he₂ k e he

theorem Chats.apart (h : Chats net net') (file : UInt32) (k : PublicKey) :
    ∀ e ∈ posted net net' k, e.Apart file := by
  obtain ⟨news, ha, he⟩ := h.news
  rw [ha.posted]
  exact fun e hx => Event.apart_of_fileId? (he k e hx)

theorem Chats.flow? (h : Chats net net') (file : UInt32) : net'.flow? file = net.flow? file := by
  simp only [Network.flow?, h.flows]

theorem chats_post (net : Network) (dest src : PublicKey) {make : UInt32 → Event}
    (hm : ∀ p, (make p).fileId? = none) : Chats net (net.post dest src make) := by
  refine ⟨flows_post _ _ _ _, nextFile_post _ _ _ _, _, adds_post net dest src make, fun k e he => ?_⟩
  split at he
  · obtain ⟨p, -, rfl⟩ := List.mem_map.1 he
    exact hm p
  · cases he

theorem chats_setNode {k : PublicKey} {n m : Node} (hn : net.node? k = some n) {extra : List Event}
    (hm : m.inbox = n.inbox ++ extra) (he : ∀ e ∈ extra, e.fileId? = none) :
    Chats net (net.setNode k m) := by
  refine ⟨rfl, rfl, fun k' => if k' = k then extra else [], fun k' => ?_, fun k' e hx => ?_⟩
  · rw [inbox_setNode hn]
    by_cases hk : k' = k
    · subst hk
      simp [inbox, hn, hm]
    · simp [hk]
  · by_cases hk : k' = k
    · simp only [hk, if_true] at hx
      exact he e hx
    · simp [hk] at hx

theorem chats_append (x : PublicKey × Node) (hx : x.2.inbox = []) (made : Nat) :
    Chats net { net with nodes := net.nodes ++ [x], made } := by
  refine ⟨rfl, rfl, fun _ => [], fun k => ?_, by simp⟩
  cases hn : net.node? k with
  | some n =>
    obtain ⟨p, hp, rfl⟩ := Option.map_eq_some_iff.1 hn
    simp [inbox, node?, List.find?_append, hp]
  | none =>
    have hfind : net.nodes.find? (·.1 == k) = none := Option.map_eq_none_iff.1 hn
    by_cases hk : x.1 = k <;> simp [inbox, node?, List.find?_append, hfind, hk, hx]

theorem chats_announce (net : Network) (a b : PublicKey) : Chats net (net.announce a b) := by
  unfold announce
  split
  · exact (chats_post _ _ _ fun _ => rfl).trans (chats_post _ _ _ fun _ => rfl)
  · exact Chats.refl net

theorem foldl_chats {β : Type} (f : Network → β → Network) (hf : ∀ n b, Chats n (f n b))
    (l : List β) (n : Network) : Chats n (l.foldl f n) := by
  induction l generalizing n with
  | nil => exact Chats.refl n
  | cons b l ih => exact (hf n b).trans (ih (f n b))

theorem chats_link {a b : PublicKey} {r : Network × UInt32} (h : net.link a b = .ok r) : Chats net r.1 := by
  unfold link at h
  cases ha : net.node a with
  | error e => simp [ha, bind, Except.bind] at h
  | ok na =>
    simp only [ha, bind, Except.bind] at h
    split at h
    · cases h
    · simp only [pure, Except.pure, Except.ok.injEq] at h
      subst h
      -- the friend lists grow, the inboxes stay, and both sides hear the other's name
      have hadd : Chats net (net.setNode a { na with friends := na.friends ++ [b] }) :=
        chats_setNode (node?_of_node ha) (List.append_nil _).symm (by simp)
      refine (hadd.trans ?_).trans (chats_announce _ _ _)
      split
      · rename_i nb hnb
        split
        · exact Chats.refl _
        · exact chats_setNode hnb (List.append_nil _).symm (by simp)
      · exact Chats.refl _

theorem chats_restore {name state : String} {r : Network × PublicKey} (h : net.restore name state = .ok r) :
    Chats net r.1 := by
  unfold restore at h
  cases hs : SavedNode.read state with
  | error e => simp [hs, bind, Except.bind, throw, throwThe, MonadExceptOf.throw] at h
  | ok s =>
    simp only [hs, pure, Except.pure, bind, Except.bind] at h
    split at h
    · cases h
    · simp only [Except.ok.injEq] at h
      subst h
      -- a new node with an empty inbox, then each friend online that lists it learns its name
      refine (chats_append _ rfl net.made).trans (foldl_chats _ ?_ _ _)
      intro n f
      split
      · split
        · exact chats_announce _ _ _
        · exact Chats.refl _
      · exact Chats.refl _

theorem chats_befriend {a b : PublicKey} (h : net.befriend a b = .ok net') : Chats net net' := by
  unfold befriend at h
  cases hb : net.node b with
  | error e => simp [hb, bind, Except.bind] at h
  | ok nb =>
    simp only [hb, bind, Except.bind] at h
    cases hl : net.link a b with
    | error e => simp [hl] at h
    | ok r =>
      simp only [hl, pure, Except.pure, Except.ok.injEq] at h
      subst h
      exact chats_link hl

theorem chats_requestFriend {src : PublicKey} {dest : Address} {message : String}
    (h : net.requestFriend src dest message = .ok net') : Chats net net' := by
  unfold requestFriend at h
  split at h
  · cases h
  simp only [bind, Except.bind] at h
  cases hs : net.node src with
  | error e => simp [hs] at h
  | ok ns =>
    cases ht : net.node dest.key with
    | error e => simp [hs, ht] at h
    | ok nt =>
      simp only [hs, ht] at h
      split at h
      · cases h
      split at h
      · cases h
      simp only [pure, Except.pure, Except.ok.injEq] at h
      subst h
      exact chats_setNode (node?_of_node ht) rfl (by simp [Event.fileId?])

theorem chats_addFriend {me k : PublicKey} {r : Network × UInt32} (h : net.addFriend me k = .ok r) :
    Chats net r.1 := by
  unfold addFriend at h
  split at h
  · cases h
  · exact chats_link h

theorem chats_sendText {me : PublicKey} {peer : UInt32} {text : String} {r : Network × UInt32}
    (h : net.sendText me peer text = .ok r) : Chats net r.1 := by
  unfold sendText at h
  split at h
  · cases h
  simp only [bind, Except.bind] at h
  cases hn : net.node me with
  | error e => simp [hn] at h
  | ok n =>
    cases hf : n.friend peer with
    | error e => simp [hn, hf] at h
    | ok friend =>
      simp only [hn, hf, pure, Except.pure, Except.ok.injEq] at h
      subst h
      have hcount : Chats net (net.setNode me { n with nextMessage := n.nextMessage + 1 }) :=
        chats_setNode (node?_of_node hn) (List.append_nil _).symm (by simp)
      exact hcount.trans (chats_post _ _ _ fun _ => rfl)

/-! ## The notices of an end -/

/-- The end markers of a completed flow: a request of length zero to the sender and an empty
chunk to the receiver, each made with the number it knows the other party by. -/
def endMarkers (net : Network) (file : UInt32) (f : Flow) (k : PublicKey) : List Event :=
  (if k = f.sender then
    (net.peerAt f.sender f.receiver).toList.map fun p => .chunkRequested ⟨p, file⟩ ⟨f.size, 0⟩
  else []) ++
  (if k = f.receiver then
    (net.peerAt f.receiver f.sender).toList.map fun p => .chunkReceived ⟨p, file⟩ f.size .empty
  else [])

/-- The cancel that `c` sends the other party `o`, made with the number `o` knows `c` by. -/
def cancelNotice (net : Network) (file : UInt32) (c o k : PublicKey) : List Event :=
  if k = o then (net.peerAt o c).toList.map fun p => .fileControl ⟨p, file⟩ .cancel else []

theorem endMarkers_closes (net : Network) (file : UInt32) (f : Flow) (k : PublicKey) :
    (endMarkers net file f k).filter (Event.closes file) = endMarkers net file f k := by
  unfold endMarkers
  rw [List.filter_append]
  congr 1 <;> split <;> simp [Event.closes, ByteArray.size_empty]

theorem cancelNotice_closes (net : Network) (file : UInt32) (c o k : PublicKey) :
    (cancelNotice net file c o k).filter (Event.closes file) = cancelNotice net file c o k := by
  unfold cancelNotice
  split <;> simp [Event.closes]

theorem post_closes_nil {file : UInt32} (net : Network) (dest src : PublicKey) {make : UInt32 → Event}
    (hm : ∀ p, (make p).closes file = false) (k : PublicKey) :
    (if k = dest then (net.peerAt dest src).toList.map make else []).filter (Event.closes file) = [] := by
  split
  · simp [List.filter_map, Function.comp_def, hm]
  · rfl

/-- A completion drops the flow and posts its end markers. -/
theorem adds_complete {file : UInt32} {f : Flow} (hf : net.flow? file = some f) :
    Adds net (net.complete file) (endMarkers net file f) := by
  rw [complete_of_flow hf]
  have h := ((adds_dropFlow net file).trans
    (adds_post _ f.sender f.receiver fun p => .chunkRequested ⟨p, file⟩ ⟨f.size, 0⟩)).trans
    (adds_post _ f.receiver f.sender fun p => .chunkReceived ⟨p, file⟩ f.size .empty)
  intro k
  rw [h k]
  simp [endMarkers]

theorem endMarkers_post_setFlow (net : Network) (file : UInt32) (g f : Flow) (dest src : PublicKey)
    (make : UInt32 → Event) : endMarkers ((net.setFlow file g).post dest src make) file f = endMarkers net file f := by
  funext k
  simp only [endMarkers, peerAt_post, peerAt_setFlow]

/-! ## Controls and chunks of a flow -/

theorem flowOf_counterpart {me : PublicKey} {id : TransferId} {f : Flow} (h : net.flowOf me id = .ok f) :
    net.flow? id.file = some f ∧ ∃ o, f.counterpart? me = some o := by
  refine ⟨flow?_of_flowOf h, ?_⟩
  unfold flowOf at h
  cases hn : net.node me <;> simp only [hn, bind, Except.bind] at h
  · cases h
  rename_i n
  cases hfr : n.friend id.peer <;> simp only [hfr] at h
  · cases h
  rename_i friend
  cases hfl : net.flow? id.file with
  | none => simp [hfl, throw, throwThe, MonadExceptOf.throw] at h
  | some f' =>
    simp only [hfl] at h
    split at h
    · rename_i hc
      cases h
      exact ⟨friend, by simpa using hc⟩
    · cases h

theorem other_eq {f : Flow} {me o : PublicKey} (h : f.counterpart? me = some o) :
    (if f.sender == me then f.receiver else f.sender) = o := by
  unfold Flow.counterpart? at h
  by_cases hs : me = f.sender
  · subst hs
    simp only [beq_self_eq_true, if_true, Option.some.injEq] at h ⊢
    exact h
  · by_cases hr : me = f.receiver
    · subst hr
      simp [hs] at h ⊢
      rw [if_neg (Ne.symm hs)]
      exact h
    · simp [hs, hr] at h

theorem setControl_eq {me : PublicKey} {id : TransferId} {c : FileControl} (h : net.setControl me id c = .ok net') :
    ∃ f o, net.flow? id.file = some f ∧ f.counterpart? me = some o ∧
      net' = (match c with
        | .resume =>
          let f' : Flow :=
            { f with
              accepted := (f.accepted || f.receiver == me)
              paused := false
              requested := f.delivered
              outstanding := 0 }
          let net₁ := (net.setFlow id.file f').post o me (fun p => .fileControl ⟨p, id.file⟩ .resume)
          if f'.accepted && f.size == 0 then net₁.complete id.file else net₁
        | .pause => (net.setFlow id.file { f with paused := true }).post o me
            (fun p => .fileControl ⟨p, id.file⟩ .pause)
        | .cancel => (net.dropFlow id.file).post o me (fun p => .fileControl ⟨p, id.file⟩ .cancel)) := by
  unfold setControl at h
  cases hf : net.flowOf me id with
  | error e => rw [hf] at h; cases h
  | ok f =>
    obtain ⟨hflow, o, ho⟩ := flowOf_counterpart hf
    refine ⟨f, o, hflow, ho, ?_⟩
    simp only [hf, bind, Except.bind, pure, Except.pure, Except.ok.injEq, other_eq ho] at h
    subst h
    cases c <;> rfl

/-! ## What a step does to one flow -/

/-- A file number the flow table keeps in order: at most one flow has it, no flow has it before
it is offered, and its flow, once accepted, is not empty. -/
structure Settled (file : UInt32) (net : Network) : Prop where
  single : net.Single file
  unused : net.nextFile ≤ file → net.flow? file = none
  accepted : ∀ f, net.flow? file = some f → f.accepted = true → 0 < f.size

/-- What an operation does to the live flow `f` of `file`, told by the events that close it. The
flow stays and nothing closes it; or it completes, by the sender's last chunk or the receiver's
resume of an empty file, and each party gets its end marker; or one party cancels it and the
other gets one cancel; or one party goes offline and the other gets one cancel. -/
inductive Fate (net : Network) (file : UInt32) (f : Flow) (op : Op) : Prop where
  | stays (live : (net.apply op).flow? file ≠ none)
      (quiet : ∀ k, (posted net (net.apply op) k).filter (Event.closes file) = [])
  | completes (gone : (net.apply op).flow? file = none)
      (cause : (∃ p o d, op = .sendChunk f.sender ⟨p, file⟩ o d) ∨
        ∃ p, op = .setControl f.receiver ⟨p, file⟩ .resume ∧ f.size = 0)
      (notices : ∀ k, (posted net (net.apply op) k).filter (Event.closes file) = endMarkers net file f k)
  | cancels (c o : PublicKey) (p : UInt32) (cause : op = .setControl c ⟨p, file⟩ .cancel)
      (other : f.counterpart? c = some o) (gone : (net.apply op).flow? file = none)
      (notices : ∀ k, (posted net (net.apply op) k).filter (Event.closes file) = cancelNotice net file c o k)
  | leaves (c o : PublicKey) (cause : op = .leave c) (other : f.counterpart? c = some o)
      (gone : (net.apply op).flow? file = none)
      (notices : ∀ k, (posted net (net.apply op) k).filter (Event.closes file) =
        if k = c then [] else cancelNotice net file c o k)

theorem filter_closes_nil {file : UInt32} {l : List Event} (h : ∀ e ∈ l, e.Apart file) :
    l.filter (Event.closes file) = [] :=
  List.filter_eq_nil_iff.2 fun e he => by simp [Event.closes_of_apart (h e he)]

theorem Aside.posted_apart {file : UInt32} (h : Aside file net net') (k : PublicKey) :
    ∀ e ∈ posted net net' k, e.Apart file := by
  obtain ⟨extra, hx, hap⟩ := h.inbox k
  simpa [posted, hx] using hap

section
variable {file : UInt32} {f : Flow} {op : Op}

theorem Fate.of_aside (hf : net.flow? file = some f) (ha : Aside file net (net.apply op)) :
    Fate net file f op :=
  .stays (by simp [ha.flow?, hf]) fun k => filter_closes_nil (ha.posted_apart k)

theorem Fate.of_chats (hf : net.flow? file = some f) (hc : Chats net (net.apply op)) : Fate net file f op :=
  .stays (by simp [hc.flow?, hf]) fun k => filter_closes_nil (hc.apart file k)

theorem Fate.of_same (hf : net.flow? file = some f) (h : net.apply op = net) : Fate net file f op :=
  .stays (by simp [h, hf]) fun k => by simp [h, posted_self]

/-- A control of the flow's file: a pause keeps the flow; a resume keeps it, or completes an empty
file accepted by its receiver; a cancel ends it with one cancel to the other party. -/
theorem fate_setControl (hset : Settled file net) (hf : net.flow? file = some f) (me : PublicKey)
    (id : TransferId) (c : FileControl) : Fate net file f (.setControl me id c) := by
  cases h : net.setControl me id c with
  | error e => exact Fate.of_same hf (by simp [apply, orStay, h])
  | ok net' =>
    have happ : net.apply (.setControl me id c) = net' := by simp [apply, orStay, h]
    by_cases hid : id.file = file
    swap
    · exact Fate.of_aside hf (happ ▸ aside_setControl h hid)
    subst hid
    obtain ⟨g, o, hg, ho, hnet⟩ := setControl_eq h
    rw [hf, Option.some.injEq] at hg
    subst hg
    cases c with
    | pause =>
      dsimp only at hnet
      rw [hnet] at happ
      have hadds := (adds_setFlow net id.file { f with paused := true }).trans
        (adds_post _ o me fun p => .fileControl ⟨p, id.file⟩ .pause)
      refine .stays (by simp [happ, flow?_setFlow]) fun k => ?_
      rw [happ, hadds.posted, List.nil_append, post_closes_nil _ _ _ fun _ => by simp [Event.closes]]
    | resume =>
      dsimp only at hnet
      split at hnet
      · -- the empty file is complete: it was not accepted before, so its receiver resumed it
        rename_i hfin
        rw [hnet] at happ
        simp only [Bool.and_eq_true, Bool.or_eq_true, beq_iff_eq] at hfin
        have hrecv : f.receiver = me := by
          rcases hfin.1 with hacc | hrecv
          · exact absurd hfin.2 (Nat.pos_iff_ne_zero.1 (hset.accepted f hf hacc))
          · exact hrecv
        have hadds := ((adds_setFlow net id.file { f with
            accepted := (f.accepted || f.receiver == me), paused := false, requested := f.delivered,
            outstanding := 0 }).trans (adds_post _ o me fun p => .fileControl ⟨p, id.file⟩ .resume)).trans
          (adds_complete (flow?_post_setFlow _ _ _ _ _ _))
        refine .completes (by rw [happ, flow?_complete, if_pos rfl]) (.inr ⟨id.peer, by rw [hrecv], hfin.2⟩)
          fun k => ?_
        rw [happ, hadds.posted, List.filter_append, List.nil_append,
          post_closes_nil _ _ _ fun _ => by simp [Event.closes], List.nil_append,
          endMarkers_post_setFlow, endMarkers_closes]
        rfl
      · rw [hnet] at happ
        have hadds := (adds_setFlow net id.file { f with
            accepted := (f.accepted || f.receiver == me), paused := false, requested := f.delivered,
            outstanding := 0 }).trans (adds_post _ o me fun p => .fileControl ⟨p, id.file⟩ .resume)
        refine .stays (by simp [happ, flow?_setFlow]) fun k => ?_
        rw [happ, hadds.posted, List.nil_append, post_closes_nil _ _ _ fun _ => by simp [Event.closes]]
    | cancel =>
      dsimp only at hnet
      rw [hnet] at happ
      have hadds := (adds_dropFlow net id.file).trans
        (adds_post _ o me fun p => .fileControl ⟨p, id.file⟩ .cancel)
      refine .cancels me o id.peer rfl ho (by simp [happ, flow?_dropFlow]) fun k => ?_
      rw [happ, hadds.posted, List.nil_append, peerAt_dropFlow]
      exact cancelNotice_closes net id.file me o k

/-- A chunk of the flow's file: the flow stays, or the sender's chunk that brings its last byte
completes it. The chunk itself closes nothing, since it is not empty. -/
theorem fate_sendChunk (hf : net.flow? file = some f) (me : PublicKey) (id : TransferId) (offset : Nat)
    (data : ByteArray) : Fate net file f (.sendChunk me id offset data) := by
  cases h : net.sendChunk me id offset data with
  | error e => exact Fate.of_same hf (by simp [apply, orStay, h])
  | ok net' =>
    have happ : net.apply (.sendChunk me id offset data) = net' := by simp [apply, orStay, h]
    by_cases hid : id.file = file
    swap
    · exact Fate.of_aside hf (happ ▸ aside_sendChunk h hid)
    subst hid
    obtain ⟨g, hg, hsend, hpos, -, hnet⟩ := sendChunk_ok h
    have hgf : g = f := Option.some.inj ((flow?_of_flowOf hg).symm.trans hf)
    subst hgf
    have hchunk : ∀ p, (Event.chunkReceived ⟨p, id.file⟩ offset data).closes id.file = false := by
      intro p
      simp only [Event.closes, beq_self_eq_true, Bool.true_and, beq_eq_false_iff_ne]
      exact Nat.pos_iff_ne_zero.1 hpos
    have hadds := (adds_setFlow net id.file { g with
        outstanding := g.outstanding - 1
        delivered := max g.delivered ((offset + data.size) % Nat.pow 2 64) }).trans
      (adds_post _ g.receiver me fun p => .chunkReceived ⟨p, id.file⟩ offset data)
    dsimp only at hnet
    split at hnet
    · rw [hnet] at happ
      refine .completes (by rw [happ, flow?_complete, if_pos rfl])
        (.inl ⟨id.peer, offset, data, by rw [hsend]⟩) fun k => ?_
      rw [happ, (hadds.trans (adds_complete (flow?_post_setFlow _ _ _ _ _ _))).posted, List.filter_append,
        List.nil_append, post_closes_nil _ _ _ hchunk, List.nil_append, endMarkers_post_setFlow,
        endMarkers_closes]
      rfl
    · rw [hnet] at happ
      refine .stays (by simp [happ, flow?_setFlow]) fun k => ?_
      rw [happ, hadds.posted, List.nil_append, post_closes_nil _ _ _ hchunk]

end

/-! ## Pump rounds and nodes going offline -/

theorem posted_pump (net : Network) (me k : PublicKey) : posted net (net.pump me).1 k = [] := by
  by_cases hk : k = me
  · subst hk
    cases hn : net.node? k with
    | none => simp [pump, hn, posted_self]
    | some n => exact posted_of_inbox_nil (inbox_pump_self hn)
  · simp [posted, inbox_pump_ne hk]

theorem flow?_pump_eq_none {file : UInt32} (me : PublicKey) :
    (net.pump me).1.flow? file = none ↔ net.flow? file = none := by
  cases hn : net.node? me with
  | none => simp [pump, hn]
  | some n => simp [flow?_eq_entries, entries_pump hn]

/-- The flows of `me`, each as its file number and the other party. -/
def partings (net : Network) (me : PublicKey) : List (UInt32 × PublicKey) :=
  net.flows.filterMap fun p => (p.2.counterpart? me).map (p.1, ·)

theorem partings_filter {file : UInt32} (hs : net.Single file) (me : PublicKey) :
    (net.partings me).filter (·.1 == file) =
      ((net.flow? file).bind fun f => (f.counterpart? me).map (file, ·)).toList := by
  have hkey : ∀ p : UInt32 × Flow, ((p.2.counterpart? me).map (p.1, ·)).filter (·.1 == file) =
      if p.1 == file then (p.2.counterpart? me).map (p.1, ·) else none := by
    intro p
    cases p.2.counterpart? me <;> by_cases h : p.1 = file <;> simp [Option.filter, h]
  rw [partings, List.filter_filterMap]
  simp only [hkey]
  rw [← List.filterMap_filter, show net.flows.filter (·.1 == file) = net.entries file from rfl,
    entries_of_single hs]
  cases net.flow? file with
  | none => rfl
  | some f => cases f.counterpart? me <;> rfl

/-- The network without the node of `me`, every flow still in place: where going offline starts. -/
def withoutNode (net : Network) (me : PublicKey) : Network := { net with nodes := net.nodes.filter (·.1 != me) }

@[simp] theorem flow?_withoutNode (net : Network) (me : PublicKey) (file : UInt32) :
    (net.withoutNode me).flow? file = net.flow? file := rfl

theorem inbox_withoutNode {me k : PublicKey} (hk : k ≠ me) : (net.withoutNode me).inbox k = net.inbox k := by
  simp [withoutNode, inbox, node?_offline, hk]

theorem peerAt_withoutNode {me a : PublicKey} (ha : a ≠ me) (b : PublicKey) :
    (net.withoutNode me).peerAt a b = net.peerAt a b := by
  simp [withoutNode, peerAt, node?_offline, ha]

@[simp] theorem apply_leave (net : Network) (me : PublicKey) : net.apply (.leave me) = net.leave me := rfl

/-- The step of going offline for one flow: it ends, and the other party hears a cancel. -/
def cancelStep (me : PublicKey) (net : Network) (g : UInt32 × PublicKey) : Network :=
  (net.dropFlow g.1).post g.2 me fun p => .fileControl ⟨p, g.1⟩ .cancel

theorem leave_eq {me : PublicKey} {n : Node} (hn : net.node? me = some n) :
    net.leave me = (net.partings me).foldl (cancelStep me) (net.withoutNode me) := by
  simp only [leave, hn, partings]
  rfl

/-- Going offline flow by flow posts to each node the cancels of the flows it is the other party
of, made with the number that node knows `me` by. -/
theorem adds_cancelSteps (me : PublicKey) :
    ∀ (l : List (UInt32 × PublicKey)) (n : Network),
      Adds n (l.foldl (cancelStep me) n) fun k => l.flatMap fun g => cancelNotice n g.1 me g.2 k
  | [], n => by simpa using adds_refl n
  | g :: l, n => by
    have hstep := (adds_dropFlow n g.1).trans
      (adds_post (n.dropFlow g.1) g.2 me fun p => .fileControl ⟨p, g.1⟩ .cancel)
    have hrest := adds_cancelSteps me l (cancelStep me n g)
    intro k
    rw [List.foldl_cons, hrest k, cancelStep, hstep k]
    simp [cancelNotice]

theorem flow?_cancelSteps (me : PublicKey) (file : UInt32) :
    ∀ (l : List (UInt32 × PublicKey)) (n : Network),
      (l.foldl (cancelStep me) n).flow? file = if l.any (·.1 == file) then none else n.flow? file
  | [], _ => rfl
  | g :: l, n => by
    rw [List.foldl_cons, flow?_cancelSteps me file l, cancelStep, flow?_post, flow?_dropFlow]
    by_cases h : file = g.1
    · simp [h]
    · have hg : (g.1 == file) = false := beq_eq_false_iff_ne.2 (Ne.symm h)
      rw [if_neg h, List.any_cons, hg, Bool.false_or]

theorem single_cancelSteps (me : PublicKey) {file : UInt32} :
    ∀ (l : List (UInt32 × PublicKey)) (n : Network), n.Single file → (l.foldl (cancelStep me) n).Single file
  | [], _, h => h
  | _ :: l, _, h => single_cancelSteps me l _ (single_post _ _ _ _ (single_dropFlow _ _ _ h))

theorem cancelNotice_closes_of_ne {file file' : UInt32} (h : file' ≠ file) (net : Network) (c o k : PublicKey) :
    (cancelNotice net file' c o k).filter (Event.closes file) = [] := by
  unfold cancelNotice
  split <;> simp [Event.closes, h]

theorem cancels_closes (n : Network) (me k : PublicKey) (file : UInt32) :
    ∀ l : List (UInt32 × PublicKey),
      (l.flatMap fun g => cancelNotice n g.1 me g.2 k).filter (Event.closes file) =
        (l.filter (·.1 == file)).flatMap fun g => cancelNotice n g.1 me g.2 k
  | [] => rfl
  | g :: l => by
    rw [List.flatMap_cons, List.filter_append, cancels_closes n me k file l, List.filter_cons]
    by_cases h : g.1 = file
    · rw [if_pos (by simpa using h), List.flatMap_cons, ← h, cancelNotice_closes]
    · rw [if_neg (by simpa using h), cancelNotice_closes_of_ne h, List.nil_append]

theorem cancelNotice_withoutNode (net : Network) (file : UInt32) {me o k : PublicKey} (hk : k ≠ me) :
    cancelNotice (net.withoutNode me) file me o k = cancelNotice net file me o k := by
  unfold cancelNotice
  split
  · rename_i hko
    subst hko
    rw [peerAt_withoutNode hk]
  · rfl

/-- What going offline posts: nothing to `me`, which is offline, and to every other node the
cancels of the flows it shared with `me`. -/
theorem posted_leave {me : PublicKey} {n : Node} (hn : net.node? me = some n) (k : PublicKey) :
    posted net (net.leave me) k =
      if k = me then [] else (net.partings me).flatMap fun g => cancelNotice net g.1 me g.2 k := by
  split
  · rename_i hk
    subst hk
    have hgone := friends_leave net k k
    rw [if_pos rfl, Option.map_eq_none_iff] at hgone
    exact posted_of_inbox_nil (by simp [inbox, hgone])
  · rename_i hk
    rw [leave_eq hn, posted, adds_cancelSteps me _ _ k, inbox_withoutNode hk, List.drop_left]
    exact List.flatMap_congr fun g _ => cancelNotice_withoutNode net g.1 hk

section
variable {file : UInt32} {f : Flow}

/-- A pump round keeps every flow and posts nothing. -/
theorem fate_pump (hf : net.flow? file = some f) (me : PublicKey) : Fate net file f (.pump me) :=
  .stays (by simp [apply, flow?_pump_eq_none, hf]) fun k => by simp [apply, posted_pump]

/-- Going offline ends the flow when `me` is one of its parties, and the other party gets one
cancel; `me` itself is offline and gets nothing. -/
theorem fate_leave (hs : net.Single file) (hf : net.flow? file = some f) (me : PublicKey) :
    Fate net file f (.leave me) := by
  cases hn : net.node? me with
  | none => exact Fate.of_same hf (by simp [apply, leave, hn])
  | some n =>
    have hparts := partings_filter hs me
    rw [hf, Option.bind_some] at hparts
    have hflow : (net.leave me).flow? file = if (net.partings me).any (·.1 == file) then none else some f := by
      rw [leave_eq hn, flow?_cancelSteps, flow?_withoutNode, hf]
    cases ho : f.counterpart? me with
    | none =>
      -- `me` is no party of the flow: the flow stays, and the cancels posted are for other files
      rw [ho, Option.map_none, Option.toList_none] at hparts
      have hany : (net.partings me).any (·.1 == file) = false :=
        List.any_eq_false.2 (List.filter_eq_nil_iff.1 hparts)
      refine .stays (by simp [hflow, hany]) fun k => ?_
      rw [apply_leave, posted_leave hn]
      split
      · rfl
      · rw [cancels_closes, hparts, List.flatMap_nil]
    | some o =>
      rw [ho, Option.map_some, Option.toList_some] at hparts
      have hmem : (file, o) ∈ (net.partings me).filter (·.1 == file) := by simp [hparts]
      have hany : (net.partings me).any (·.1 == file) = true :=
        List.any_eq_true.2 ⟨(file, o), (List.mem_filter.1 hmem).1, by simp⟩
      refine .leaves me o rfl ho (by simp [hflow, hany]) fun k => ?_
      rw [apply_leave, posted_leave hn]
      split
      · rfl
      · rw [cancels_closes, hparts, List.flatMap_singleton]

theorem Settled.offered (hset : Settled file net) (hf : net.flow? file = some f) : file < net.nextFile := by
  rw [UInt32.lt_iff_toNat_lt]
  by_contra hle
  rw [hset.unused (UInt32.le_iff_toNat_le.2 (by omega))] at hf
  cases hf

theorem Settled.next_ne (hset : Settled file net) (hf : net.flow? file = some f) : net.nextFile ≠ file :=
  fun hnext => UInt32.lt_irrefl _ (hnext ▸ hset.offered hf)

/-- An operation is a friend operation, which changes no flow, or one of the operations on files. -/
theorem chats_or_file (net : Network) : ∀ op : Op, Chats net (net.apply op) ∨
    (∃ me peer name size, op = .offerFile me peer name size) ∨ (∃ me id c, op = .setControl me id c) ∨
    (∃ me id o d, op = .sendChunk me id o d) ∨ (∃ me, op = .pump me) ∨ ∃ me, op = .leave me
  | .fresh _ => .inl (chats_append _ rfl _)
  | .restore _ _ => .inl (orStay_map_cases net (Chats.refl net) fun _ h => chats_restore h)
  | .befriend _ _ => .inl (orStay_cases net (Chats.refl net) fun _ h => chats_befriend h)
  | .requestFriend _ _ _ => .inl (orStay_cases net (Chats.refl net) fun _ h => chats_requestFriend h)
  | .addFriend _ _ => .inl (orStay_map_cases net (Chats.refl net) fun _ h => chats_addFriend h)
  | .sendText _ _ _ => .inl (orStay_map_cases net (Chats.refl net) fun _ h => chats_sendText h)
  | .offerFile me peer name size => .inr (.inl ⟨me, peer, name, size, rfl⟩)
  | .setControl me id c => .inr (.inr (.inl ⟨me, id, c, rfl⟩))
  | .sendChunk me id o d => .inr (.inr (.inr (.inl ⟨me, id, o, d, rfl⟩)))
  | .pump me => .inr (.inr (.inr (.inr (.inl ⟨me, rfl⟩))))
  | .saveState _ => .inl (Chats.refl net)
  | .leave me => .inr (.inr (.inr (.inr (.inr ⟨me, rfl⟩))))

/-- An offer of a settled file number's flow is of another number. -/
theorem fate_offerFile (hset : Settled file net) (hf : net.flow? file = some f) (me : PublicKey) (peer : UInt32)
    (name : String) (size : Nat) : Fate net file f (.offerFile me peer name size) :=
  Fate.of_aside hf (orStay_map_cases net (Aside.refl net) fun _ h => (aside_offerFile h (hset.next_ne hf)).1)

/-- On a network where `file` is settled, every operation leaves its live flow `f` alone, completes
it, or is the cancel of one of its parties, or one of its parties going offline. -/
theorem fate (hset : Settled file net) (hf : net.flow? file = some f) (op : Op) : Fate net file f op := by
  rcases chats_or_file net op with hc | ⟨me, peer, name, size, rfl⟩ | ⟨me, id, c, rfl⟩ | ⟨me, id, o, d, rfl⟩ |
    ⟨me, rfl⟩ | ⟨me, rfl⟩
  · exact Fate.of_chats hf hc
  · exact fate_offerFile hset hf me peer name size
  · exact fate_setControl hset hf me id c
  · exact fate_sendChunk hf me id o d
  · exact fate_pump hf me
  · exact fate_leave hset.single hf me

end

end Network

end Courier
