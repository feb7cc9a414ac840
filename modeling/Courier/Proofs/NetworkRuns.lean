-- Every network reached from the empty one keeps its flows sound: between two online friends, with
-- marks within the file and at most 32 requests outstanding; and no operation takes away a friend.
import Courier.Proofs.FlowPulls

namespace Courier

/-! ## Operations and runs -/

/-- The marks of a flow stay within its file: no request starts past the end, at most every
byte has been delivered, not every byte of a non-empty file, and at most 32 requests are
outstanding. -/
structure Flow.Marks (f : Flow) : Prop where
  requested_le : f.requested ≤ f.size
  delivered_le : f.delivered ≤ f.size
  delivered_lt : 0 < f.size → f.delivered < f.size
  outstanding_le : f.outstanding ≤ maxOutstanding

theorem Node.friend_of_prefix {n n' : Node} (h : n.friends <+: n'.friends) {peer : UInt32}
    {b : PublicKey} (hf : n.friend peer = .ok b) : n'.friend peer = .ok b := by
  unfold Node.friend at hf ⊢
  obtain ⟨rest, hr⟩ := h
  cases hg : n.friends[peer.toNat]? with
  | none => simp [hg] at hf
  | some k =>
    rw [hg] at hf
    obtain ⟨hlt, -⟩ := List.getElem?_eq_some_iff.1 hg
    rw [← hr, List.getElem?_append_left hlt, hg]
    exact hf

theorem Node.mem_of_friend {n : Node} {peer : UInt32} {b : PublicKey} (h : n.friend peer = .ok b) :
    b ∈ n.friends := by
  unfold Node.friend at h
  split at h
  · rename_i k hk
    cases h
    exact List.mem_of_getElem? hk
  · cases h

theorem Node.mem_of_peerOf? {n : Node} {b : PublicKey} (h : (n.peerOf? b).isSome) : b ∈ n.friends := by
  unfold Node.peerOf? at h
  simpa using h

theorem Flow.counterpart?_eq_none {f : Flow} {k : PublicKey} :
    f.counterpart? k = none ↔ k ≠ f.sender ∧ k ≠ f.receiver := by
  unfold Flow.counterpart?
  by_cases h₁ : k = f.sender
  · simp [h₁]
  · by_cases h₂ : k = f.receiver
    · subst h₂
      simp [h₁]
    · simp [h₁, h₂]

namespace Network

/-- An operation on the network: a node made, restored or taken offline, or one of a node's calls
as a transport, or a direct link between two nodes. -/
inductive Op where
  | fresh (name : String)
  | restore (name state : String)
  | befriend (a b : PublicKey)
  | requestFriend (src : PublicKey) (dest : Address) (message : String)
  | addFriend (me k : PublicKey)
  | sendText (me : PublicKey) (peer : UInt32) (text : String)
  | offerFile (me : PublicKey) (peer : UInt32) (name : String) (size : Nat)
  | setControl (me : PublicKey) (id : TransferId) (control : FileControl)
  | sendChunk (me : PublicKey) (id : TransferId) (offset : Nat) (data : ByteArray)
  | pump (me : PublicKey)
  | saveState (me : PublicKey)
  | leave (me : PublicKey)

/-- The network an operation leaves: the new one if it went through, else the old one. -/
def orStay (net : Network) : Except NativeError Network → Network
  | .ok n => n
  | .error _ => net

/-- The network after an operation. -/
def apply (net : Network) : Op → Network
  | .fresh name => (net.fresh name).1
  | .restore name state => net.orStay ((net.restore name state).map (·.1))
  | .befriend a b => net.orStay (net.befriend a b)
  | .requestFriend src dest message => net.orStay (net.requestFriend src dest message)
  | .addFriend me k => net.orStay ((net.addFriend me k).map (·.1))
  | .sendText me peer text => net.orStay ((net.sendText me peer text).map (·.1))
  | .offerFile me peer name size => net.orStay ((net.offerFile me peer name size).map (·.1))
  | .setControl me id c => net.orStay (net.setControl me id c)
  | .sendChunk me id offset data => net.orStay (net.sendChunk me id offset data)
  | .pump me => (net.pump me).1
  | .saveState _ => net
  | .leave me => net.leave me

/-- The network after operations in order. -/
def run (net : Network) : List Op → Network
  | [] => net
  | op :: ops => (net.apply op).run ops

@[simp] theorem run_nil (net : Network) : net.run [] = net := rfl

@[simp] theorem run_cons (net : Network) (op : Op) (ops : List Op) :
    net.run (op :: ops) = (net.apply op).run ops := rfl

theorem orStay_cases {P : Network → Prop} (net : Network) {r : Except NativeError Network}
    (hnet : P net) (hok : ∀ n, r = .ok n → P n) : P (net.orStay r) := by
  cases r with
  | ok n => exact hok n rfl
  | error e => exact hnet

/-! ## Nodes stay online and keep their friends -/

/-- `net'` keeps online every node of `net`, each with its friends in order, maybe with more
after them. -/
def Widens (net net' : Network) : Prop :=
  ∀ k n, net.node? k = some n → ∃ n', net'.node? k = some n' ∧ n.friends <+: n'.friends

/-- Node `a` is online and lists `b` as a friend. -/
def Lists (net : Network) (a b : PublicKey) : Prop := ∃ n, net.node? a = some n ∧ b ∈ n.friends

variable {net net' net'' : Network}

theorem Widens.refl (net : Network) : Widens net net :=
  fun _ n hn => ⟨n, hn, List.prefix_refl _⟩

theorem Widens.trans (h₁ : Widens net net') (h₂ : Widens net' net'') : Widens net net'' := by
  intro k n hn
  obtain ⟨n₁, hn₁, hp₁⟩ := h₁ k n hn
  obtain ⟨n₂, hn₂, hp₂⟩ := h₂ k n₁ hn₁
  exact ⟨n₂, hn₂, hp₁.trans hp₂⟩

theorem Widens.lists (h : Widens net net') {a b : PublicKey} (hl : net.Lists a b) : net'.Lists a b := by
  obtain ⟨n, hn, hb⟩ := hl
  obtain ⟨n', hn', hp⟩ := h a n hn
  exact ⟨n', hn', hp.subset hb⟩

theorem widens_of_sameFriends (h : SameFriends net net') : Widens net net' := by
  intro k n hn
  have hk := h k
  rw [hn] at hk
  obtain ⟨n', hn', hf⟩ := Option.map_eq_some_iff.1 hk
  exact ⟨n', hn', hf ▸ List.prefix_refl _⟩

theorem widens_of_nodes (h : net'.nodes = net.nodes) : Widens net net' := by
  intro k n hn
  exact ⟨n, by rw [← hn]; simp [node?, h], List.prefix_refl _⟩

theorem widens_post (net : Network) (dest src : PublicKey) (make : UInt32 → Event) :
    Widens net (net.post dest src make) :=
  widens_of_sameFriends (sameFriends_post net dest src make)

theorem widens_setNode {k : PublicKey} {n m : Node} (hn : net.node? k = some n)
    (hf : n.friends <+: m.friends) : Widens net (net.setNode k m) := by
  intro k' n' hn'
  rw [node?_setNode]
  by_cases hk : k' = k
  · subst hk
    rw [hn] at hn'
    cases hn'
    exact ⟨m, by simp [hn], hf⟩
  · exact ⟨n', by simp [hk, hn'], List.prefix_refl _⟩

theorem widens_announce (net : Network) (a b : PublicKey) : Widens net (net.announce a b) := by
  unfold announce
  split
  · exact (widens_post _ _ _ _).trans (widens_post _ _ _ _)
  · exact Widens.refl net

@[simp] theorem flows_announce (net : Network) (a b : PublicKey) : (net.announce a b).flows = net.flows := by
  unfold announce
  split <;> simp

theorem node?_append_of_some {k : PublicKey} {n : Node} (hn : net.node? k = some n) (x : PublicKey × Node) :
    ({ net with nodes := net.nodes ++ [x] } : Network).node? k = some n := by
  obtain ⟨p, hp, rfl⟩ := Option.map_eq_some_iff.1 hn
  simp [node?, List.find?_append, hp]

theorem widens_append (x : PublicKey × Node) (m : Nat) :
    Widens net { net with nodes := net.nodes ++ [x], made := m } := by
  intro k n hn
  exact ⟨n, node?_append_of_some hn x, List.prefix_refl _⟩

/-! ## Where the flows come from -/

theorem mem_setFlow {file : UInt32} {f : Flow} {p : UInt32 × Flow} (h : p ∈ (net.setFlow file f).flows) :
    (p ∈ net.flows ∧ p.1 ≠ file) ∨ p = (file, f) := by
  simp only [setFlow, List.mem_append, List.mem_filter, List.mem_singleton, bne_iff_ne, ne_eq] at h
  rcases h with (⟨⟨hp, hne⟩, -⟩ | rfl) | ⟨⟨hp, hne⟩, -⟩
  · exact .inl ⟨hp, hne⟩
  · exact .inr rfl
  · exact .inl ⟨hp, hne⟩

theorem mem_dropFlow {file : UInt32} {p : UInt32 × Flow} (h : p ∈ (net.dropFlow file).flows) :
    p ∈ net.flows ∧ p.1 ≠ file := by
  simpa [dropFlow] using h

theorem mem_of_flow? {file : UInt32} {f : Flow} (h : net.flow? file = some f) : (file, f) ∈ net.flows := by
  obtain ⟨p, hp, rfl⟩ := Option.map_eq_some_iff.1 h
  have hfile : p.1 = file := by simpa using List.find?_some hp
  rw [← hfile]
  exact List.mem_of_find?_eq_some hp

theorem mem_complete {file : UInt32} {p : UInt32 × Flow} (h : p ∈ (net.complete file).flows) :
    p ∈ net.flows ∧ p.1 ≠ file := by
  cases hf : net.flow? file with
  | none =>
    rw [complete_of_none hf] at h
    refine ⟨h, fun he => ?_⟩
    have hnone := List.find?_eq_none.1 (Option.map_eq_none_iff.1 hf) p h
    simp [he] at hnone
  | some fl =>
    rw [complete_of_flow hf] at h
    simp only [flows_post] at h
    exact mem_dropFlow h

theorem widens_complete (net : Network) (file : UInt32) : Widens net (net.complete file) := by
  cases hf : net.flow? file with
  | none => rw [complete_of_none hf]; exact Widens.refl net
  | some fl =>
    rw [complete_of_flow hf]
    have hdrop : Widens net (net.dropFlow file) := widens_of_nodes rfl
    exact (hdrop.trans (widens_post _ _ _ _)).trans (widens_post _ _ _ _)

/-! ## Sound flows -/

/-- A flow between two online nodes that list each other as friends, with its marks within its
file. -/
structure FlowSound (net : Network) (f : Flow) : Prop where
  sender : net.Lists f.sender f.receiver
  receiver : net.Lists f.receiver f.sender
  marks : f.Marks

/-- Every live flow is sound. -/
def Sound (net : Network) : Prop := ∀ p ∈ net.flows, net.FlowSound p.2

theorem FlowSound.widen {f : Flow} (h : net.FlowSound f) (hw : Widens net net') : net'.FlowSound f :=
  ⟨hw.lists h.sender, hw.lists h.receiver, h.marks⟩

/-- A change that keeps every node and friend, and whose flows are old ones or sound ones, keeps
the network sound. -/
theorem Sound.of_flows (h : net.Sound) (hw : Widens net net')
    (hf : ∀ p ∈ net'.flows, p ∈ net.flows ∨ net.FlowSound p.2) : net'.Sound := by
  intro p hp
  rcases hf p hp with hp | hs
  · exact (h p hp).widen hw
  · exact hs.widen hw

theorem sound_empty : ({} : Network).Sound := fun _ h => absurd h List.not_mem_nil

/-! ## Steps that leave the flows alone -/

/-- A step that changes no flow and keeps every node online with its friends. -/
def Quiet (net net' : Network) : Prop := Widens net net' ∧ net'.flows = net.flows

theorem Quiet.refl (net : Network) : Quiet net net := ⟨Widens.refl net, rfl⟩

theorem Quiet.trans (h₁ : Quiet net net') (h₂ : Quiet net' net'') : Quiet net net'' :=
  ⟨h₁.1.trans h₂.1, h₂.2.trans h₁.2⟩

theorem Sound.quiet (h : net.Sound) (hq : Quiet net net') : net'.Sound :=
  h.of_flows hq.1 fun _ hp => .inl (hq.2 ▸ hp)

theorem quiet_post (net : Network) (dest src : PublicKey) (make : UInt32 → Event) :
    Quiet net (net.post dest src make) := ⟨widens_post net dest src make, flows_post net dest src make⟩

theorem quiet_setNode {k : PublicKey} {n m : Node} (hn : net.node? k = some n)
    (hf : n.friends <+: m.friends) : Quiet net (net.setNode k m) := ⟨widens_setNode hn hf, rfl⟩

theorem quiet_announce (net : Network) (a b : PublicKey) : Quiet net (net.announce a b) :=
  ⟨widens_announce net a b, flows_announce net a b⟩

theorem foldl_quiet {β : Type} (f : Network → β → Network) (hf : ∀ n b, Quiet n (f n b))
    (l : List β) (n : Network) : Quiet n (l.foldl f n) := by
  induction l generalizing n with
  | nil => exact Quiet.refl n
  | cons b l ih => exact (hf n b).trans (ih (f n b))

theorem node?_of_node {k : PublicKey} {n : Node} (h : net.node k = .ok n) : net.node? k = some n := by
  unfold node at h
  split at h
  · rename_i n' hn
    cases h
    exact hn
  · cases h

theorem quiet_restore {name state : String} {r : Network × PublicKey}
    (h : net.restore name state = .ok r) : Quiet net r.1 := by
  unfold restore at h
  cases hs : SavedNode.read state with
  | error e => simp [hs, bind, Except.bind, throw, throwThe, MonadExceptOf.throw] at h
  | ok s =>
    simp only [hs, pure, Except.pure, bind, Except.bind] at h
    split at h
    · cases h
    · simp only [Except.ok.injEq] at h
      subst h
      -- a new node, then each friend online that lists it learns its name
      refine (Quiet.trans ⟨widens_append _ _, rfl⟩ (foldl_quiet _ ?_ _ _))
      intro n f
      split
      · split
        · exact quiet_announce _ _ _
        · exact Quiet.refl _
      · exact Quiet.refl _

theorem quiet_link {a b : PublicKey} {r : Network × UInt32} (h : net.link a b = .ok r) :
    Quiet net r.1 := by
  unfold link at h
  cases ha : net.node a with
  | error e => simp [ha, bind, Except.bind] at h
  | ok na =>
    simp only [ha, bind, Except.bind] at h
    split at h
    · cases h
    · simp only [pure, Except.pure, Except.ok.injEq] at h
      subst h
      -- `b` is added to the friends of `a`, and `a` to those of `b` if it lacks it
      have hadd : Quiet net (net.setNode a { na with friends := na.friends ++ [b] }) :=
        quiet_setNode (node?_of_node ha) (List.prefix_append _ _)
      refine (hadd.trans ?_).trans (quiet_announce _ _ _)
      split
      · split
        · exact Quiet.refl _
        · exact quiet_setNode ‹_› (List.prefix_append _ _)
      · exact Quiet.refl _

theorem quiet_befriend {a b : PublicKey} (h : net.befriend a b = .ok net') : Quiet net net' := by
  unfold befriend at h
  cases hb : net.node b with
  | error e => simp [hb, bind, Except.bind] at h
  | ok nb =>
    simp only [hb, bind, Except.bind] at h
    cases hl : net.link a b with
    | error e => simp [hl] at h
    | ok r =>
      simp only [hl, pure, Except.pure, Except.ok.injEq] at h
      subst h
      exact quiet_link hl

theorem quiet_requestFriend {src : PublicKey} {dest : Address} {message : String}
    (h : net.requestFriend src dest message = .ok net') : Quiet net net' := by
  unfold requestFriend at h
  split at h
  · cases h
  simp only [bind, Except.bind] at h
  cases hs : net.node src with
  | error e => simp [hs] at h
  | ok ns =>
    cases ht : net.node dest.key with
    | error e => simp [hs, ht] at h
    | ok nt =>
      simp only [hs, ht] at h
      split at h
      · cases h
      split at h
      · cases h
      simp only [pure, Except.pure, Except.ok.injEq] at h
      subst h
      exact quiet_setNode (node?_of_node ht) (List.prefix_refl _)

theorem quiet_addFriend {me k : PublicKey} {r : Network × UInt32} (h : net.addFriend me k = .ok r) :
    Quiet net r.1 := by
  unfold addFriend at h
  split at h
  · cases h
  · exact quiet_link h

theorem quiet_sendText {me : PublicKey} {peer : UInt32} {text : String} {r : Network × UInt32}
    (h : net.sendText me peer text = .ok r) : Quiet net r.1 := by
  unfold sendText at h
  split at h
  · cases h
  simp only [bind, Except.bind] at h
  cases hn : net.node me with
  | error e => simp [hn] at h
  | ok n =>
    cases hf : n.friend peer with
    | error e => simp [hn, hf] at h
    | ok friend =>
      simp only [hn, hf, pure, Except.pure, Except.ok.injEq] at h
      subst h
      have hcount : Quiet net (net.setNode me { n with nextMessage := n.nextMessage + 1 }) :=
        quiet_setNode (node?_of_node hn) (List.prefix_refl _)
      exact hcount.trans (quiet_post _ _ _ _)

/-! ## Steps that change flows -/

/-- A step that keeps every node online with its friends, and whose flows are old ones or flows
sound in the old network. -/
def Tidy (net net' : Network) : Prop :=
  Widens net net' ∧ ∀ p ∈ net'.flows, p ∈ net.flows ∨ net.FlowSound p.2

theorem Sound.tidy (h : net.Sound) (ht : Tidy net net') : net'.Sound := h.of_flows ht.1 ht.2

theorem Quiet.tidy (h : Quiet net net') : Tidy net net' := ⟨h.1, fun _ hp => .inl (h.2 ▸ hp)⟩

theorem Tidy.shrink (ht : Tidy net net') (hw : Widens net' net'') (hf : ∀ p ∈ net''.flows, p ∈ net'.flows) :
    Tidy net net'' :=
  ⟨ht.1.trans hw, fun p hp => ht.2 p (hf p hp)⟩

theorem Tidy.post (ht : Tidy net net') (dest src : PublicKey) (make : UInt32 → Event) :
    Tidy net (net'.post dest src make) :=
  ht.shrink (widens_post _ _ _ _) fun p hp => by simpa using hp

theorem Tidy.complete (ht : Tidy net net') (file : UInt32) : Tidy net (net'.complete file) :=
  ht.shrink (widens_complete _ _) fun _ hp => (mem_complete hp).1

theorem tidy_setFlow {file : UInt32} {f : Flow} (hf : net.FlowSound f) : Tidy net (net.setFlow file f) := by
  refine ⟨widens_of_nodes rfl, fun p hp => ?_⟩
  rcases mem_setFlow hp with ⟨hp, -⟩ | rfl
  · exact .inl hp
  · exact .inr hf

/-- Pulling again from what has arrived keeps a flow sound. -/
theorem FlowSound.rewind {f : Flow} (h : net.FlowSound f) (a p : Bool) :
    net.FlowSound { f with accepted := a, paused := p, requested := f.delivered, outstanding := 0 } :=
  ⟨h.sender, h.receiver, ⟨h.marks.delivered_le, h.marks.delivered_le, h.marks.delivered_lt, Nat.zero_le _⟩⟩

theorem tidy_dropFlow (net : Network) (file : UInt32) : Tidy net (net.dropFlow file) :=
  ⟨widens_of_nodes rfl, fun _ hp => .inl (mem_dropFlow hp).1⟩

theorem tidy_offerFile {me : PublicKey} {peer : UInt32} {name : String} {size : Nat}
    {r : Network × TransferId} (h : net.offerFile me peer name size = .ok r) : Tidy net r.1 := by
  unfold offerFile at h
  cases hn : net.node me <;> simp only [hn, bind, Except.bind] at h
  · cases h
  rename_i n
  cases hf : n.friend peer <;> simp only [hf] at h
  · cases h
  rename_i friend
  cases hfr : net.node? friend with
  | none => simp [hfr, throw, throwThe, MonadExceptOf.throw] at h
  | some nf =>
    cases hp : nf.peerOf? me with
    | none => simp [hfr, hp, throw, throwThe, MonadExceptOf.throw] at h
    | some q =>
      simp only [hfr, hp, Option.isSome_some, Bool.not_true, Bool.false_eq_true, ↓reduceIte, pure,
        Except.pure, Except.ok.injEq] at h
      subst h
      -- the new flow is between `me` and a friend online that lists `me`
      have hnew : net.FlowSound { sender := me, receiver := friend, size } :=
        ⟨⟨n, node?_of_node hn, Node.mem_of_friend hf⟩, ⟨nf, hfr, Node.mem_of_peerOf? (by simp [hp])⟩,
          ⟨Nat.zero_le _, Nat.zero_le _, id, Nat.zero_le _⟩⟩
      refine Tidy.post ?_ _ _ _
      refine ⟨widens_of_nodes rfl, fun p hp => ?_⟩
      rcases mem_setFlow hp with ⟨hp, -⟩ | rfl
      · exact .inl hp
      · exact .inr hnew

theorem flow?_of_flowOf {me : PublicKey} {id : TransferId} {f : Flow} (h : net.flowOf me id = .ok f) :
    net.flow? id.file = some f := by
  unfold flowOf at h
  cases hn : net.node me <;> simp only [hn, bind, Except.bind] at h
  · cases h
  rename_i n
  cases hf : n.friend id.peer <;> simp only [hf] at h
  · cases h
  cases hfl : net.flow? id.file with
  | none => simp [hfl, throw, throwThe, MonadExceptOf.throw] at h
  | some f' =>
    simp only [hfl] at h
    split at h
    · cases h
      rfl
    · cases h

theorem tidy_setControl (hs : net.Sound) {me : PublicKey} {id : TransferId} {c : FileControl}
    (h : net.setControl me id c = .ok net') : Tidy net net' := by
  unfold setControl at h
  cases hf : net.flowOf me id with
  | error e => rw [hf] at h; cases h
  | ok f =>
    simp only [hf, bind, Except.bind, pure, Except.pure, Except.ok.injEq] at h
    subst h
    have hsf : net.FlowSound f := hs _ (mem_of_flow? (flow?_of_flowOf hf))
    cases c with
    | resume =>
      -- pulling starts again from what has arrived
      dsimp only
      split
      · exact ((tidy_setFlow (hsf.rewind _ _)).post _ _ _).complete _
      · exact (tidy_setFlow (hsf.rewind _ _)).post _ _ _
    | pause =>
      dsimp only
      rw [if_neg Bool.false_ne_true]
      have hpause : net.FlowSound { f with paused := true } :=
        ⟨hsf.sender, hsf.receiver, ⟨hsf.marks.requested_le, hsf.marks.delivered_le,
          hsf.marks.delivered_lt, hsf.marks.outstanding_le⟩⟩
      exact (tidy_setFlow hpause).post _ _ _
    | cancel =>
      dsimp only
      rw [if_neg Bool.false_ne_true]
      exact (tidy_dropFlow net _).post _ _ _

/-- A chunk that goes through: `me` sends the flow, the chunk is not empty and ends within the file
(its end taken modulo 2^64). The flow's mark moves up to the chunk's end, the receiver gets the
chunk, and the flow completes once the mark reaches the size. -/
theorem sendChunk_ok {me : PublicKey} {id : TransferId} {offset : Nat} {data : ByteArray}
    (h : net.sendChunk me id offset data = .ok net') :
    ∃ f, net.flowOf me id = .ok f ∧ f.sender = me ∧ 0 < data.size ∧
      (offset + data.size) % Nat.pow 2 64 ≤ f.size ∧
      net' = (let f' : Flow :=
                { f with
                  outstanding := f.outstanding - 1
                  delivered := max f.delivered ((offset + data.size) % Nat.pow 2 64) }
              let net₁ := (net.setFlow id.file f').post f.receiver me
                (fun p => .chunkReceived ⟨p, id.file⟩ offset data)
              if f'.delivered ≥ f.size then net₁.complete id.file else net₁) := by
  unfold sendChunk at h
  cases hf : net.flowOf me id with
  | error e => rw [hf] at h; cases h
  | ok f =>
    simp only [hf, bind, Except.bind] at h
    split at h
    · cases h
    rename_i hsend
    split at h
    · cases h
    rename_i hfits
    simp only [pure, Except.pure, Except.ok.injEq] at h
    simp only [bne_iff_ne, ne_eq, Decidable.not_not] at hsend
    simp only [Bool.or_eq_true, beq_iff_eq, decide_eq_true_eq, not_or, gt_iff_lt, Nat.not_lt] at hfits
    exact ⟨f, rfl, hsend, Nat.pos_of_ne_zero hfits.1, hfits.2, h.symm⟩

theorem tidy_complete_setFlow (net : Network) (file : UInt32) (f : Flow) (dest src : PublicKey)
    (make : UInt32 → Event) : Tidy net (((net.setFlow file f).post dest src make).complete file) := by
  have hset : Widens net (net.setFlow file f) := widens_of_nodes rfl
  refine ⟨(hset.trans (widens_post _ _ _ _)).trans (widens_complete _ _), fun p hp => .inl ?_⟩
  obtain ⟨hp, hne⟩ := mem_complete hp
  rw [flows_post] at hp
  rcases mem_setFlow hp with ⟨hp, -⟩ | rfl
  · exact hp
  · exact absurd rfl hne

theorem tidy_sendChunk (hs : net.Sound) {me : PublicKey} {id : TransferId} {offset : Nat}
    {data : ByteArray} (h : net.sendChunk me id offset data = .ok net') : Tidy net net' := by
  obtain ⟨f, hf, -, -, hstop, rfl⟩ := sendChunk_ok h
  have hsf : net.FlowSound f := hs _ (mem_of_flow? (flow?_of_flowOf hf))
  dsimp only
  split
  · exact tidy_complete_setFlow _ _ _ _ _ _
  · rename_i hopen
    -- the mark moves up to the chunk's end and stays short of the size
    have hmoved : net.FlowSound
        { f with
          outstanding := f.outstanding - 1
          delivered := max f.delivered ((offset + data.size) % Nat.pow 2 64) } :=
      ⟨hsf.sender, hsf.receiver, ⟨hsf.marks.requested_le, Nat.max_le.2 ⟨hsf.marks.delivered_le, hstop⟩,
        fun _ => Nat.lt_of_not_le hopen, Nat.le_trans (Nat.sub_le _ _) hsf.marks.outstanding_le⟩⟩
    exact (tidy_setFlow hmoved).post _ _ _

/-- The pulls of a sound flow keep it sound: no request starts past the end, and at most
`maxOutstanding` are outstanding. -/
theorem FlowSound.pullsOf {f : Flow} (h : net.FlowSound f) (id : TransferId) (fuel : Nat) :
    net.FlowSound (Network.pullsOf id f fuel).1 := by
  induction fuel generalizing f with
  | zero => exact h
  | succ fuel ih =>
    simp only [Network.pullsOf]
    split
    · rename_i hgo
      simp only [Bool.and_eq_true, decide_eq_true_eq] at hgo
      -- one more request, of at most a chunk and within the file
      exact ih ⟨h.sender, h.receiver, ⟨by simp; omega, h.marks.delivered_le, h.marks.delivered_lt, hgo.1⟩⟩
    · exact h

theorem tidy_pump (hs : net.Sound) (me : PublicKey) : Tidy net (net.pump me).1 := by
  cases hn : net.node? me with
  | none => simp only [pump, hn]; exact Quiet.tidy (Quiet.refl net)
  | some n =>
    refine ⟨widens_of_sameFriends (sameFriends_pump net me), fun p hp => .inr ?_⟩
    rw [pump_eq hn] at hp
    obtain ⟨e, he, rfl⟩ := List.mem_map.1 hp
    have hse : net.FlowSound e.2 := hs e he
    -- an entry either stays as it was or makes its pulls
    unfold roundEntry
    split
    · split
      · exact hse.pullsOf _ _
      · exact hse
    · exact hse

/-! ## A node going offline -/

theorem node?_offline (net : Network) (me k : PublicKey) :
    ({ net with nodes := net.nodes.filter (·.1 != me) } : Network).node? k =
      if k = me then none else net.node? k := by
  simp only [node?, List.find?_filter]
  split
  · rename_i hk
    subst hk
    rw [List.find?_eq_none.2]
    · rfl
    · intro x _
      simp
  · rename_i hk
    congr 2
    funext x
    by_cases hx : x.1 = k <;> simp [hx, hk]

theorem foldl_sheds {β : Type} (f : Network → β → Network) (key : β → UInt32)
    (hf : ∀ n b, SameFriends n (f n b) ∧ ∀ p ∈ (f n b).flows, p ∈ n.flows ∧ p.1 ≠ key b)
    (l : List β) (n : Network) :
    SameFriends n (l.foldl f n) ∧ ∀ p ∈ (l.foldl f n).flows, p ∈ n.flows ∧ ∀ b ∈ l, p.1 ≠ key b := by
  induction l generalizing n with
  | nil => exact ⟨SameFriends.refl n, fun p hp => ⟨hp, fun _ hb => absurd hb List.not_mem_nil⟩⟩
  | cons b l ih =>
    obtain ⟨hsame, hflows⟩ := ih (f n b)
    refine ⟨(hf n b).1.trans hsame, fun p hp => ?_⟩
    obtain ⟨hp, hne⟩ := hflows p hp
    obtain ⟨hp, hb⟩ := (hf n b).2 p hp
    refine ⟨hp, fun b' hb' => ?_⟩
    rcases List.mem_cons.1 hb' with rfl | hb'
    · exact hb
    · exact hne b' hb'

/-- One flow of a node going offline: it ends and the other party hears a cancel. -/
theorem leave_step (me : PublicKey) (net : Network) (g : UInt32 × PublicKey) :
    let net' := (net.dropFlow g.1).post g.2 me (fun p => .fileControl ⟨p, g.1⟩ .cancel)
    SameFriends net net' ∧ ∀ p ∈ net'.flows, p ∈ net.flows ∧ p.1 ≠ g.1 := by
  refine ⟨fun k => ?_, fun p hp => ?_⟩
  · rw [sameFriends_post _ _ _ _ k, node?_dropFlow]
  · rw [flows_post] at hp
    exact mem_dropFlow hp

/-- Going offline keeps the friends of every other node, and `me` is offline after. -/
theorem friends_leave (net : Network) (me k : PublicKey) :
    ((net.leave me).node? k).map Node.friends =
      if k = me then none else (net.node? k).map Node.friends := by
  cases hn : net.node? me with
  | none =>
    simp only [leave, hn]
    split
    · rename_i hk
      subst hk
      rw [hn]
      rfl
    · rfl
  | some n =>
    simp only [leave, hn]
    rw [(foldl_sheds _ Prod.fst (leave_step me) _ _).1 k, node?_offline]
    split <;> rfl

/-- The flows left when an online node goes offline were live, and `me` is a party of none. -/
theorem flows_leave {me : PublicKey} {n : Node} (hn : net.node? me = some n) :
    ∀ p ∈ (net.leave me).flows, p ∈ net.flows ∧ p.2.counterpart? me = none := by
  simp only [leave, hn]
  intro p hp
  obtain ⟨hp, hgone⟩ := (foldl_sheds _ Prod.fst (leave_step me) _ _).2 p hp
  refine ⟨hp, ?_⟩
  -- a flow with `me` as a party is among those the fold drops
  cases hc : p.2.counterpart? me with
  | none => rfl
  | some o =>
    refine absurd rfl (hgone (p.1, o) (List.mem_filterMap.2 ⟨p, hp, ?_⟩))
    obtain ⟨file, f⟩ := p
    simp only at hc ⊢
    rw [hc]
    rfl

theorem Lists.leave {me a b : PublicKey} (ha : a ≠ me) (h : net.Lists a b) : (net.leave me).Lists a b := by
  obtain ⟨n, hn, hb⟩ := h
  have hf := friends_leave net me a
  rw [if_neg ha, hn, Option.map_some] at hf
  obtain ⟨n', hn', heq⟩ := Option.map_eq_some_iff.1 hf
  exact ⟨n', hn', heq ▸ hb⟩

theorem Sound.leave (hs : net.Sound) (me : PublicKey) : (net.leave me).Sound := by
  cases hn : net.node? me with
  | none =>
    simp only [Network.leave, hn]
    exact hs
  | some n =>
    intro p hp
    obtain ⟨hp, hc⟩ := flows_leave hn p hp
    have hsp : net.FlowSound p.2 := hs p hp
    -- neither party is `me`, so both stay online with their friends
    obtain ⟨hsender, hreceiver⟩ := Flow.counterpart?_eq_none.1 hc
    exact ⟨hsp.sender.leave (Ne.symm hsender), hsp.receiver.leave (Ne.symm hreceiver), hsp.marks⟩

/-! ## Every operation, every run -/

theorem orStay_map_cases {α : Type} {P : Network → Prop} (net : Network)
    {r : Except NativeError (Network × α)} (hnet : P net) (hok : ∀ x, r = .ok x → P x.1) :
    P (net.orStay (r.map (·.1))) := by
  cases r with
  | ok x => exact hok x rfl
  | error e => exact hnet

/-- Every operation on a sound network is a tidy step, except a node going offline. -/
theorem tidy_or_leave (hs : net.Sound) : ∀ op : Op, Tidy net (net.apply op) ∨ ∃ me, net.apply op = net.leave me
  | .fresh _ => .inl (Quiet.tidy ⟨widens_append _ _, rfl⟩)
  | .restore _ _ => .inl (orStay_map_cases net (Quiet.refl net).tidy fun _ h => (quiet_restore h).tidy)
  | .befriend _ _ => .inl (orStay_cases net (Quiet.refl net).tidy fun _ h => (quiet_befriend h).tidy)
  | .requestFriend _ _ _ =>
    .inl (orStay_cases net (Quiet.refl net).tidy fun _ h => (quiet_requestFriend h).tidy)
  | .addFriend _ _ => .inl (orStay_map_cases net (Quiet.refl net).tidy fun _ h => (quiet_addFriend h).tidy)
  | .sendText _ _ _ => .inl (orStay_map_cases net (Quiet.refl net).tidy fun _ h => (quiet_sendText h).tidy)
  | .offerFile _ _ _ _ => .inl (orStay_map_cases net (Quiet.refl net).tidy fun _ h => tidy_offerFile h)
  | .setControl _ _ _ => .inl (orStay_cases net (Quiet.refl net).tidy fun _ h => tidy_setControl hs h)
  | .sendChunk _ _ _ _ => .inl (orStay_cases net (Quiet.refl net).tidy fun _ h => tidy_sendChunk hs h)
  | .pump me => .inl (tidy_pump hs me)
  | .saveState _ => .inl (Quiet.refl net).tidy
  | .leave me => .inr ⟨me, rfl⟩

theorem Sound.apply (hs : net.Sound) (op : Op) : (net.apply op).Sound := by
  rcases tidy_or_leave hs op with ht | ⟨me, hme⟩
  · exact hs.tidy ht
  · rw [hme]
    exact hs.leave me

theorem Sound.run (hs : net.Sound) (ops : List Op) : (net.run ops).Sound := by
  induction ops generalizing net with
  | nil => exact hs
  | cons op ops ih => exact ih (hs.apply op)

/-- A node online before and after an operation on a sound network keeps its friends in order,
maybe with more after them. -/
theorem friends_apply (hs : net.Sound) (op : Op) {k : PublicKey} {n n' : Node}
    (hn : net.node? k = some n) (hn' : (net.apply op).node? k = some n') : n.friends <+: n'.friends := by
  rcases tidy_or_leave hs op with ht | ⟨me, hme⟩
  · obtain ⟨m, hm, hpre⟩ := ht.1 k n hn
    rw [hn'] at hm
    cases hm
    exact hpre
  · -- going offline keeps the friends of every node that stays
    have hf := friends_leave net me k
    rw [← hme, hn', hn, Option.map_some, Option.map_some] at hf
    split at hf
    · cases hf
    · have heq : n'.friends = n.friends := Option.some.inj hf
      exact heq ▸ List.prefix_refl _

/-- In every network reached from the empty one by any operations, each live flow runs between
two online nodes that list each other as friends, asks for nothing past the end of its file, has
had at most its size delivered (less, unless the file is empty), and has at most `maxOutstanding`
requests outstanding. A further operation keeps the friend list of every node that stays online,
with more friends only after the old ones, so a peer number keeps naming the same key. -/
theorem network_flows_stay_sound (ops : List Op) :
    (∀ p ∈ (run {} ops).flows,
      (run {} ops).Lists p.2.sender p.2.receiver ∧ (run {} ops).Lists p.2.receiver p.2.sender ∧
      p.2.requested ≤ p.2.size ∧ p.2.delivered ≤ p.2.size ∧ (0 < p.2.size → p.2.delivered < p.2.size) ∧
      p.2.outstanding ≤ maxOutstanding) ∧
    ∀ (op : Op) (k : PublicKey) (n n' : Node), (run {} ops).node? k = some n →
      ((run {} ops).apply op).node? k = some n' →
      n.friends <+: n'.friends ∧ ∀ peer b, n.friend peer = .ok b → n'.friend peer = .ok b := by
  have hs : (run {} ops).Sound := sound_empty.run ops
  refine ⟨fun p hp => ?_, fun op k n n' hn hn' => ?_⟩
  · obtain ⟨hsender, hreceiver, hmarks⟩ := hs p hp
    exact ⟨hsender, hreceiver, hmarks.requested_le, hmarks.delivered_le, hmarks.delivered_lt,
      hmarks.outstanding_le⟩
  · have hpre := friends_apply hs op hn hn'
    exact ⟨hpre, fun _ _ hb => Node.friend_of_prefix hpre hb⟩

end Network

end Courier
