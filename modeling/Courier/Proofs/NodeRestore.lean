-- A node going offline and coming back from its saved state: its key, nospam and friends return,
-- and names are told again between it and each friend online.
import Courier.Proofs.FlowNotices
import Courier.Proofs.SavedText

namespace Courier

namespace Network

variable {net net' net'' : Network}

/-! ## Steps that change only inboxes -/

/-- `net'` has the nodes of `net` online, each with its name, nospam, friends and message count:
only the inboxes differ. -/
def OnlyInboxes (net net' : Network) : Prop :=
  ∀ k, (net'.node? k).map (fun n => { n with inbox := [] }) =
    (net.node? k).map (fun n => { n with inbox := [] })

theorem OnlyInboxes.refl (net : Network) : OnlyInboxes net net := fun _ => rfl

theorem OnlyInboxes.trans (h₁ : OnlyInboxes net net') (h₂ : OnlyInboxes net' net'') :
    OnlyInboxes net net'' :=
  fun k => (h₂ k).trans (h₁ k)

theorem OnlyInboxes.map {α : Type} (h : OnlyInboxes net net') (g : Node → α)
    (hg : ∀ n, g { n with inbox := [] } = g n) (k : PublicKey) :
    (net'.node? k).map g = (net.node? k).map g := by
  have hk := congrArg (Option.map g) (h k)
  simpa [Option.map_map, Function.comp_def, hg] using hk

theorem OnlyInboxes.peerAt (h : OnlyInboxes net net') (a b : PublicKey) :
    net'.peerAt a b = net.peerAt a b := by
  have ha := h.map (·.peerOf? b) (fun _ => rfl) a
  unfold Network.peerAt
  cases h' : net'.node? a <;> cases h : net.node? a <;> simp_all

theorem onlyInboxes_post (net : Network) (dest src : PublicKey) (make : UInt32 → Event) :
    OnlyInboxes net (net.post dest src make) := by
  intro k
  rw [node?_post]
  split
  · simp [Option.map_map, Function.comp_def]
  · rfl

theorem onlyInboxes_announce (net : Network) (a b : PublicKey) :
    OnlyInboxes net (net.announce a b) := by
  unfold announce
  split
  · exact (onlyInboxes_post _ _ _ _).trans (onlyInboxes_post _ _ _ _)
  · exact OnlyInboxes.refl net

/-! ## Telling names -/

/-- The notice of `b`'s name that `a` gets: made with the number `a` knows `b` by, and `b`'s
name. None when `a` is offline or does not list `b`, or `b` is offline. -/
def nameNotice (net : Network) (a b : PublicKey) : Option Event :=
  Option.map₂ Event.friendName (net.peerAt a b) ((net.node? b).map Node.name)

/-- What telling names between `a` and `b` posts to node `k`: to `a` the name of `b`, then to `b`
the name of `a`. -/
def namesTold (net : Network) (a b k : PublicKey) : List Event :=
  (if k = a then (net.nameNotice a b).toList else []) ++
    (if k = b then (net.nameNotice b a).toList else [])

theorem OnlyInboxes.nameNotice (h : OnlyInboxes net net') (a b : PublicKey) :
    net'.nameNotice a b = net.nameNotice a b := by
  rw [Network.nameNotice, Network.nameNotice, h.peerAt, h.map Node.name (fun _ => rfl)]

theorem OnlyInboxes.namesTold (h : OnlyInboxes net net') (a b k : PublicKey) :
    net'.namesTold a b k = net.namesTold a b k := by
  simp only [Network.namesTold, h.nameNotice]

theorem adds_announce (net : Network) (a b : PublicKey) :
    Adds net (net.announce a b) (net.namesTold a b) := by
  unfold announce
  cases ha : net.node? a with
  | none =>
    -- `a` has no number for `b` and no name to tell
    intro k
    simp [namesTold, nameNotice, peerAt, ha]
  | some na =>
    cases hb : net.node? b with
    | none =>
      intro k
      simp [namesTold, nameNotice, peerAt, hb]
    | some nb =>
      have h₁ := adds_post net a b fun p => .friendName p nb.name
      have h₂ := adds_post (net.post a b fun p => .friendName p nb.name) b a
        fun p => .friendName p na.name
      intro k
      dsimp only
      rw [(h₁.trans h₂) k, peerAt_post]
      simp [namesTold, nameNotice, ha, hb, Option.map₂_coe_right, Option.toList_map]

/-- Telling names between `me` and each entry of a list, in order, that is online and lists `me`:
the steps change only inboxes, and post the names told for those entries, in order, read in the
network the steps start from. -/
theorem tellNames (step : Network → PublicKey → Network) (me : PublicKey)
    (hstep : ∀ n f, step n f = if (n.peerAt f me).isSome then n.announce me f else n) :
    ∀ (fs : List PublicKey) (n : Network), OnlyInboxes n (fs.foldl step n) ∧
      Adds n (fs.foldl step n) fun k =>
        (fs.filter fun f => (n.peerAt f me).isSome).flatMap fun f => n.namesTold me f k
  | [], n => ⟨OnlyInboxes.refl n, by simpa using adds_refl n⟩
  | f :: fs, n => by
    have hone : OnlyInboxes n (step n f) ∧ Adds n (step n f)
        fun k => if (n.peerAt f me).isSome then n.namesTold me f k else [] := by
      rw [hstep]
      by_cases hf : (n.peerAt f me).isSome
      · simp only [hf, if_true]
        exact ⟨onlyInboxes_announce n me f, adds_announce n me f⟩
      · simp only [hf]
        exact ⟨OnlyInboxes.refl n, adds_refl n⟩
    obtain ⟨hsame, hadds⟩ := tellNames step me hstep fs (step n f)
    refine ⟨hone.1.trans hsame, fun k => ?_⟩
    rw [List.foldl_cons, (hone.2.trans hadds) k]
    -- the later steps read the numbers and names of `n`
    simp only [hone.1.peerAt, hone.1.namesTold]
    by_cases hf : (n.peerAt f me).isSome <;> simp [hf]

/-! ## Restoring -/

theorem node?_append (x : PublicKey × Node) (k : PublicKey) :
    ({ net with nodes := net.nodes ++ [x] } : Network).node? k =
      (net.node? k).or (if x.1 = k then some x.2 else none) := by
  unfold node?
  rw [List.find?_append]
  cases net.nodes.find? (·.1 == k) <;> by_cases hx : x.1 = k <;> simp [hx]

theorem adds_append (x : PublicKey × Node) (hx : x.2.inbox = []) :
    Adds net { net with nodes := net.nodes ++ [x] } fun _ => [] := by
  intro k
  unfold inbox
  rw [node?_append, List.append_nil]
  cases net.node? k with
  | some n => rfl
  | none => by_cases h : x.1 = k <;> simp [h, hx]

/-- Restoring a state that reads, whose key is offline, goes through: the node comes online after
the others, then names are told between it and each entry of its list that is online and lists
it. -/
theorem restore_ok (name : String) {state : String} {s : SavedNode} (hs : SavedNode.read state = .ok s)
    (hoff : net.node? s.key = none) :
    let net₁ : Network :=
      { net with nodes := net.nodes ++ [(s.key, { name, nospam := s.nospam, friends := s.friends })] }
    ∃ net', net.restore name state = .ok (net', s.key) ∧ OnlyInboxes net₁ net' ∧
      Adds net₁ net' fun k =>
        (s.friends.filter fun f => (net₁.peerAt f s.key).isSome).flatMap fun f => net₁.namesTold s.key f k := by
  intro net₁
  unfold restore
  simp only [hs, hoff, pure, Except.pure, bind, Except.bind]
  refine ⟨_, rfl, tellNames _ s.key (fun n f => ?_) s.friends net₁⟩
  unfold peerAt
  cases n.node? f <;> rfl

/-- Restoring a state that reads, whose key is offline: the node comes online with the key,
nospam and friend list of the state under the new name; every other node stays as it was but for
its inbox; and each node is posted, in order, the names told between the key and each entry of
the list that is online and lists it, read in the restored network. -/
theorem restored (name : String) {state : String} {s : SavedNode} (hs : SavedNode.read state = .ok s)
    (hoff : net.node? s.key = none) :
    ∃ net', net.restore name state = .ok (net', s.key) ∧
      (∃ m, net'.node? s.key = some m ∧ m.name = name ∧ m.nospam = s.nospam ∧ m.friends = s.friends) ∧
      (∀ k, k ≠ s.key → (net'.node? k).map (fun n => { n with inbox := [] }) =
        (net.node? k).map (fun n => { n with inbox := [] })) ∧
      ∀ k, posted net net' k =
        (s.friends.filter fun f => (net'.peerAt f s.key).isSome).flatMap fun f =>
          net'.namesTold s.key f k := by
  obtain ⟨net', hok, hsame, hadds⟩ := restore_ok name hs hoff
  have hnew := hsame s.key
  rw [node?_append, hoff, Option.none_or, if_pos rfl, Option.map_some] at hnew
  obtain ⟨m, hm, hmx⟩ := Option.map_eq_some_iff.1 hnew
  refine ⟨net', hok, ⟨m, hm, ?_, ?_, ?_⟩, fun k hk => ?_, fun k => ?_⟩
  · simpa using congrArg Node.name hmx
  · simpa using congrArg Node.nospam hmx
  · simpa using congrArg Node.friends hmx
  · rw [hsame k, node?_append]
    simp [Ne.symm hk]
  · -- the names are told in the network the node came into, which differs only in inboxes
    rw [((adds_append _ rfl).trans hadds).posted, List.nil_append]
    simp only [hsame.peerAt, hsame.namesTold]

/-- A text that does not read as a saved state is refused with the bad-state code. -/
theorem restore_of_read_error (name : String) {state : String} {err : Json.Located}
    (hs : SavedNode.read state = .error err) :
    net.restore name state = .error ⟨errBadState, "invalid saved state: " ++ err.text⟩ := by
  unfold restore
  simp [hs, bind, Except.bind, throw, throwThe, MonadExceptOf.throw]

/-- A saved state whose key is online is refused with the bad-state code. -/
theorem restore_of_online (name : String) {state : String} {s : SavedNode}
    (hs : SavedNode.read state = .ok s) (hon : (net.node? s.key).isSome) :
    net.restore name state = .error ⟨errBadState, s!"key {s.key.hex} is already online"⟩ := by
  unfold restore
  simp [hs, hon, pure, Except.pure, bind, Except.bind, throw, throwThe, MonadExceptOf.throw]

/-- A restore that is refused leaves the network as it was. -/
theorem apply_restore_of_error {name state : String} {e : NativeError}
    (h : net.restore name state = .error e) : net.apply (.restore name state) = net := by
  simp [apply, h, orStay, Except.map]

theorem nameNotice_isSome (net : Network) (a b : PublicKey) :
    (net.nameNotice a b).isSome ↔ (net.peerAt a b).isSome ∧ (net.node? b).isSome := by
  unfold nameNotice
  cases net.peerAt a b <;> cases net.node? b <;> simp

theorem peerAt_isSome {a b : PublicKey} {na : Node} (ha : net.node? a = some na)
    (hb : b ∈ na.friends) : (net.peerAt a b).isSome := by
  simp [peerAt, ha, Node.peerOf?, hb]

theorem node?_isSome_of_peerAt {a b : PublicKey} (h : (net.peerAt a b).isSome) :
    (net.node? a).isSome := by
  unfold peerAt at h
  cases ha : net.node? a with
  | none => simp [ha] at h
  | some _ => rfl

/-- A node taken offline and restored from the text it saved comes back with its key, nospam,
address and friend list in order, so every peer number names the key it named. Each entry of the
list that is online and lists the node, in order, exchanges names with it: one notice to each
side. Restoring the text while the node is online, or restoring a text that does not read or
whose key is online, is refused with the bad-state code and leaves the network as it was. -/
theorem saved_node_restores_after_leaving {me : PublicKey} {n : Node} (hn : net.node? me = some n)
    (name : String) :
    ∃ text, net.saveState me = .ok text ∧
      (∃ e, net.restore name text = .error e ∧ e.code = errBadState ∧
        net.apply (.restore name text) = net) ∧
      (∀ (other : Network) (state : String), ((∃ err, SavedNode.read state = .error err) ∨
          ∃ s, SavedNode.read state = .ok s ∧ (other.node? s.key).isSome) →
        ∃ e, other.restore name state = .error e ∧ e.code = errBadState ∧
          other.apply (.restore name state) = other) ∧
      ∃ net', (net.leave me).restore name text = .ok (net', me) ∧
        (∃ m, net'.node? me = some m ∧ m.name = name ∧ m.nospam = n.nospam ∧ m.friends = n.friends) ∧
        net'.address me = net.address me ∧
        (∀ peer, net'.friendKey me peer = net.friendKey me peer) ∧
        (∀ f ∈ n.friends, (net'.peerAt f me).isSome →
          (net'.nameNotice me f).isSome ∧ (net'.nameNotice f me).isSome) ∧
        ∀ k, posted (net.leave me) net' k =
          (n.friends.filter fun f => (net'.peerAt f me).isSome).flatMap fun f => net'.namesTold me f k := by
  have hsave : net.saveState me = .ok (SavedNode.text ⟨me, n.nospam, n.name, n.friends⟩) := by
    simp [saveState, node, hn, bind, Except.bind, pure, Except.pure]
  have hread := SavedNode.read_text ⟨me, n.nospam, n.name, n.friends⟩
  have hoff : (net.leave me).node? me = none := by
    have hgone := friends_leave net me me
    rwa [if_pos rfl, Option.map_eq_none_iff] at hgone
  obtain ⟨net', hok, ⟨m, hm, hname, hnospam, hfriends⟩, -, hposted⟩ := restored name hread hoff
  refine ⟨_, hsave, ⟨_, restore_of_online name hread (by simp [hn]), rfl,
    apply_restore_of_error (restore_of_online name hread (by simp [hn]))⟩, ?_,
    net', hok, ⟨m, hm, hname, hnospam, hfriends⟩, ?_, fun peer => ?_, fun f hf hlists => ?_, hposted⟩
  · intro other state hbad
    rcases hbad with ⟨err, hs⟩ | ⟨s, hs, hon⟩
    · exact ⟨_, restore_of_read_error name hs, rfl, apply_restore_of_error (restore_of_read_error name hs)⟩
    · exact ⟨_, restore_of_online name hs hon, rfl, apply_restore_of_error (restore_of_online name hs hon)⟩
  · simp [address, hm, hn, hnospam]
  · -- a peer number is read in the friend list, which is the same list
    simp only [friendKey, node, hm, hn, bind, Except.bind, Node.friend, hfriends]
  · refine ⟨(nameNotice_isSome _ _ _).2 ⟨peerAt_isSome hm (hfriends ▸ hf), node?_isSome_of_peerAt hlists⟩,
      (nameNotice_isSome _ _ _).2 ⟨hlists, by simp [hm]⟩⟩

/-- Two friends; the first saves its state, goes offline and comes back as `alice-2` with its
key, and with its address. -/
theorem restored_friend_keeps_its_address :
    let alice := freshKey ({} : Network)
    let bob := freshKey ({ made := 1 } : Network)
    let net := run {} [.fresh "alice", .fresh "bob", .befriend alice bob]
    ∃ n, net.node? alice = some n ∧
      ∃ text net', net.saveState alice = .ok text ∧
        (net.leave alice).restore "alice-2" text = .ok (net', alice) ∧
        net'.address alice = net.address alice := by
  intro alice bob net
  have hon : (net.node? alice).isSome = true := by decide +kernel
  obtain ⟨n, hn⟩ := Option.isSome_iff_exists.1 hon
  obtain ⟨text, hsave, -, -, net', hok, -, haddr, -⟩ :=
    saved_node_restores_after_leaving hn "alice-2"
  exact ⟨n, hn, text, net', hsave, hok, haddr⟩

end Network

end Courier
