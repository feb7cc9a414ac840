-- The in-memory network seen one flow and one node at a time: what an operation leaves alone, and what
-- a chunk, a resume and a completion do to the flow itself.
import Courier.Network.Wire

namespace Courier

/-- The transfer a network event is about; none for friend events. -/
def Event.fileId? : Event → Option TransferId
  | .fileOffered id .. | .fileControl id _ | .chunkRequested id _ | .chunkReceived id .. => some id
  | _ => none

/-- An event that is about no transfer of the flow `file`. -/
def Event.Apart (file : UInt32) (e : Event) : Prop := ∀ id, e.fileId? = some id → id.file ≠ file

/-- A node lists every friend once and has `b` as its friend number `peer`. -/
def Node.Knows (n : Node) (b : PublicKey) (peer : UInt32) : Prop :=
  n.friends.Nodup ∧ n.friends[peer.toNat]? = some b

namespace Node

variable {n : Node} {b : PublicKey} {peer : UInt32}

theorem Knows.peerOf? (h : n.Knows b peer) : n.peerOf? b = some peer := by
  obtain ⟨hnd, hb⟩ := h
  obtain ⟨hlt, hget⟩ := List.getElem?_eq_some_iff.1 hb
  have hidx : n.friends.idxOf? b = some peer.toNat := by
    rw [List.idxOf?_eq_some_iff]
    refine ⟨hlt, hget, fun j hj hjb => ?_⟩
    have hj' : j < n.friends.length := by omega
    have := (List.getElem?_inj hj' hnd).1 ((List.getElem?_eq_getElem hj').trans (hjb ▸ hb.symm))
    omega
  simp [Node.peerOf?, hidx]

theorem Knows.friend (h : n.Knows b peer) : n.friend peer = .ok b := by
  simp [Node.friend, h.2]

theorem Knows.friend_inj (h : n.Knows b peer) {p : UInt32} (hp : n.friend p = .ok b) : p = peer := by
  unfold Node.friend at hp
  split at hp
  · rename_i k hk
    cases hp
    have := (List.getElem?_inj (List.getElem?_eq_some_iff.1 hk).1 h.1).1 (hk.trans h.2.symm)
    exact UInt32.toNat_inj.1 this
  · cases hp

theorem Knows.of_friends {n' : Node} (h : n.Knows b peer) (hf : n'.friends = n.friends) :
    n'.Knows b peer := by
  unfold Knows
  rw [hf]
  exact h

end Node

namespace Network

/-- The events waiting in a node's inbox; none for a node that is offline. -/
def inbox (net : Network) (k : PublicKey) : List Event := ((net.node? k).map Node.inbox).getD []

/-- The entries of the flow table for one file number. -/
def entries (net : Network) (file : UInt32) : List (UInt32 × Flow) := net.flows.filter (·.1 == file)

/-- The number node `a` knows node `b` by, if `a` is online and lists `b`. -/
def peerAt (net : Network) (a b : PublicKey) : Option UInt32 := (net.node? a).bind (·.peerOf? b)

/-- Node `a` is online and knows `b` as its friend number `peer`, listing every friend once. -/
def Knows (net : Network) (a b : PublicKey) (peer : UInt32) : Prop :=
  ∃ n, net.node? a = some n ∧ n.Knows b peer

/-- Every node has the same friends in both networks. -/
def SameFriends (net net' : Network) : Prop :=
  ∀ k, (net'.node? k).map Node.friends = (net.node? k).map Node.friends

/-! ## Nodes -/

theorem node?_setNode (net : Network) (k k' : PublicKey) (n : Node) :
    (net.setNode k n).node? k' = if k' = k then (net.node? k).map fun _ => n else net.node? k' := by
  obtain ⟨nodes, flows, nextFile, made⟩ := net
  simp only [node?, setNode]
  -- each entry keeps its key, and only the entries of `k` get the new node
  induction nodes with
  | nil => split <;> rfl
  | cons x xs ih =>
    obtain ⟨k₁, m⟩ := x
    by_cases h₁ : k₁ = k <;> by_cases h₂ : k' = k <;> by_cases h₃ : k₁ = k' <;> simp_all

@[simp] theorem flows_setNode (net : Network) (k : PublicKey) (n : Node) :
    (net.setNode k n).flows = net.flows := rfl

@[simp] theorem nextFile_setNode (net : Network) (k : PublicKey) (n : Node) :
    (net.setNode k n).nextFile = net.nextFile := rfl

@[simp] theorem node?_setFlow (net : Network) (file : UInt32) (f : Flow) (k : PublicKey) :
    (net.setFlow file f).node? k = net.node? k := rfl

@[simp] theorem node?_dropFlow (net : Network) (file : UInt32) (k : PublicKey) :
    (net.dropFlow file).node? k = net.node? k := rfl

@[simp] theorem nextFile_setFlow (net : Network) (file : UInt32) (f : Flow) :
    (net.setFlow file f).nextFile = net.nextFile := rfl

@[simp] theorem nextFile_dropFlow (net : Network) (file : UInt32) :
    (net.dropFlow file).nextFile = net.nextFile := rfl

theorem post_eq (net : Network) (dest src : PublicKey) (make : UInt32 → Event) :
    net.post dest src make = match net.node? dest, net.peerAt dest src with
      | some n, some peer => net.setNode dest { n with inbox := n.inbox ++ [make peer] }
      | _, _ => net := by
  unfold post peerAt
  cases net.node? dest with
  | none => rfl
  | some n =>
    simp only [Option.bind_some]
    cases n.peerOf? src <;> rfl

@[simp] theorem flows_post (net : Network) (dest src : PublicKey) (make : UInt32 → Event) :
    (net.post dest src make).flows = net.flows := by
  rw [post_eq]
  split <;> rfl

@[simp] theorem nextFile_post (net : Network) (dest src : PublicKey) (make : UInt32 → Event) :
    (net.post dest src make).nextFile = net.nextFile := by
  rw [post_eq]
  split <;> rfl

theorem node?_post (net : Network) (dest src : PublicKey) (make : UInt32 → Event) (k : PublicKey) :
    (net.post dest src make).node? k =
      if k = dest then (net.node? k).map fun n => { n with inbox := n.inbox ++ (net.peerAt dest src).toList.map make }
      else net.node? k := by
  rw [post_eq]
  split
  · rename_i n peer hn hp
    rw [node?_setNode]
    split
    · subst_vars; simp [hn, hp]
    · rfl
  · rename_i hno
    split
    · subst_vars
      cases hn : net.node? k with
      | none => rfl
      | some n =>
        cases hp : net.peerAt k src with
        | none => simp
        | some peer => exact (hno n peer hn hp).elim
    · rfl

@[simp] theorem inbox_post (net : Network) (dest src : PublicKey) (make : UInt32 → Event) (k : PublicKey) :
    (net.post dest src make).inbox k =
      if k = dest then net.inbox k ++ (net.peerAt dest src).toList.map make else net.inbox k := by
  unfold inbox
  rw [node?_post]
  by_cases hk : k = dest
  · subst hk
    cases hn : net.node? k with
    | none => simp [peerAt, hn]
    | some n => simp
  · simp [hk]

theorem friends_post (net : Network) (dest src : PublicKey) (make : UInt32 → Event) (k : PublicKey) :
    ((net.post dest src make).node? k).map Node.friends = (net.node? k).map Node.friends := by
  rw [node?_post]
  split
  · simp [Option.map_map, Function.comp_def]
  · rfl

@[simp] theorem peerAt_post (net : Network) (dest src : PublicKey) (make : UInt32 → Event) (a b : PublicKey) :
    (net.post dest src make).peerAt a b = net.peerAt a b := by
  unfold peerAt
  rw [node?_post]
  split
  · cases net.node? a <;> rfl
  · rfl

@[simp] theorem inbox_setFlow (net : Network) (file : UInt32) (f : Flow) (k : PublicKey) :
    (net.setFlow file f).inbox k = net.inbox k := rfl

@[simp] theorem inbox_dropFlow (net : Network) (file : UInt32) (k : PublicKey) :
    (net.dropFlow file).inbox k = net.inbox k := rfl

@[simp] theorem peerAt_setFlow (net : Network) (file : UInt32) (f : Flow) (a b : PublicKey) :
    (net.setFlow file f).peerAt a b = net.peerAt a b := rfl

@[simp] theorem peerAt_dropFlow (net : Network) (file : UInt32) (a b : PublicKey) :
    (net.dropFlow file).peerAt a b = net.peerAt a b := rfl

theorem Knows.peerAt {net : Network} {a b : PublicKey} {peer : UInt32} (h : net.Knows a b peer) :
    net.peerAt a b = some peer := by
  obtain ⟨n, hn, hk⟩ := h
  simp [Network.peerAt, hn, hk.peerOf?]

theorem Knows.of_sameFriends {net net' : Network} {a b : PublicKey} {peer : UInt32}
    (h : net.Knows a b peer) (hs : SameFriends net net') : net'.Knows a b peer := by
  obtain ⟨n, hn, hk⟩ := h
  have := hs a
  rw [hn] at this
  cases hn' : net'.node? a with
  | none => simp [hn'] at this
  | some n' =>
    simp only [hn', Option.map_some, Option.some.injEq] at this
    exact ⟨n', hn', hk.of_friends this⟩

theorem SameFriends.refl (net : Network) : SameFriends net net := fun _ => rfl

theorem SameFriends.trans {a b c : Network} (h₁ : SameFriends a b) (h₂ : SameFriends b c) :
    SameFriends a c := fun k => (h₂ k).trans (h₁ k)

theorem sameFriends_post (net : Network) (dest src : PublicKey) (make : UInt32 → Event) :
    SameFriends net (net.post dest src make) := friends_post net dest src make

/-! ## Flows -/

theorem flow?_eq_entries (net : Network) (file : UInt32) :
    net.flow? file = ((net.entries file).head?).map (·.2) := by
  simp [flow?, entries, List.head?_filter]

@[simp] theorem entries_post (net : Network) (dest src : PublicKey) (make : UInt32 → Event) (file : UInt32) :
    (net.post dest src make).entries file = net.entries file := by
  simp [entries]

@[simp] theorem entries_setNode (net : Network) (k : PublicKey) (n : Node) (file : UInt32) :
    (net.setNode k n).entries file = net.entries file := rfl

theorem filter_filter_of_imp {β : Type} {l : List β} {p q : β → Bool} (h : ∀ a, q a = true → p a = true) :
    (l.filter p).filter q = l.filter q := by
  rw [List.filter_filter]
  apply List.filter_congr
  intro a _
  cases hq : q a <;> simp [hq, h a]

theorem filter_filter_of_disj {β : Type} {l : List β} {p q : β → Bool} (h : ∀ a, q a = true → p a = false) :
    (l.filter p).filter q = [] := by
  rw [List.filter_filter, List.filter_eq_nil_iff]
  intro a _
  cases hq : q a <;> simp [hq, h a]

theorem entries_setFlow (net : Network) (file file' : UInt32) (f : Flow) :
    (net.setFlow file f).entries file' = if file' = file then [(file, f)] else net.entries file' := by
  unfold entries setFlow
  simp only [List.filter_append]
  generalize hrest : net.flows.filter (·.1 != file) = rest
  by_cases h : file' = file
  · subst h
    have hA : (rest.filter (·.1 < file')).filter (·.1 == file') = [] :=
      filter_filter_of_disj (by intro a ha; simp at ha; simp [ha])
    have hB : (rest.filter (·.1 > file')).filter (·.1 == file') = [] :=
      filter_filter_of_disj (by intro a ha; simp at ha; simp [ha])
    rw [hA, hB]
    simp
  · rw [if_neg h]
    have hmid : List.filter (fun x => x.1 == file') [(file, f)] = [] := by simp [Ne.symm h]
    have hq : rest.filter (·.1 == file') = net.flows.filter (·.1 == file') := by
      rw [← hrest]
      exact filter_filter_of_imp (by intro a ha; simp at ha; simp [ha, h])
    rw [hmid, List.append_nil, ← hq]
    -- the entries for `file'` all stand on one side of `file`
    rcases Nat.lt_or_gt_of_ne (fun he => h (UInt32.toNat_inj.1 he)) with hl | hl
    · have hA : (rest.filter (·.1 < file)).filter (·.1 == file') = rest.filter (·.1 == file') :=
        filter_filter_of_imp (by intro a ha; simp at ha; simp [ha, UInt32.lt_iff_toNat_lt, hl])
      have hB : (rest.filter (·.1 > file)).filter (·.1 == file') = [] :=
        filter_filter_of_disj (by intro a ha; simp at ha; simp [ha, UInt32.lt_iff_toNat_lt]; omega)
      rw [hA, hB, List.append_nil]
    · have hA : (rest.filter (·.1 < file)).filter (·.1 == file') = [] :=
        filter_filter_of_disj (by intro a ha; simp at ha; simp [ha, UInt32.lt_iff_toNat_lt]; omega)
      have hB : (rest.filter (·.1 > file)).filter (·.1 == file') = rest.filter (·.1 == file') :=
        filter_filter_of_imp (by intro a ha; simp at ha; simp [ha, UInt32.lt_iff_toNat_lt, hl])
      rw [hA, hB, List.nil_append]

theorem entries_dropFlow (net : Network) (file file' : UInt32) :
    (net.dropFlow file).entries file' = if file' = file then [] else net.entries file' := by
  unfold entries dropFlow
  split
  · exact filter_filter_of_disj (by intro a ha; simp at ha; simp [*])
  · exact filter_filter_of_imp (by intro a ha; simp at ha; simp [*])

theorem flow?_setFlow (net : Network) (file file' : UInt32) (f : Flow) :
    (net.setFlow file f).flow? file' = if file' = file then some f else net.flow? file' := by
  rw [flow?_eq_entries, flow?_eq_entries, entries_setFlow]
  split <;> simp

theorem flow?_dropFlow (net : Network) (file file' : UInt32) :
    (net.dropFlow file).flow? file' = if file' = file then none else net.flow? file' := by
  rw [flow?_eq_entries, flow?_eq_entries, entries_dropFlow]
  split <;> simp

@[simp] theorem flow?_post (net : Network) (dest src : PublicKey) (make : UInt32 → Event) (file : UInt32) :
    (net.post dest src make).flow? file = net.flow? file := by
  simp [flow?_eq_entries]

/-! ## Changes away from a flow -/

/-- `net'` differs from `net` only away from the flow `file`: the same entries for it, the same
friends everywhere, and inboxes that only grew by events of other flows. -/
structure Aside (file : UInt32) (net net' : Network) : Prop where
  entries : net'.entries file = net.entries file
  friends : SameFriends net net'
  inbox : ∀ k, ∃ extra, net'.inbox k = net.inbox k ++ extra ∧ ∀ e ∈ extra, e.Apart file

namespace Aside

variable {file : UInt32}

theorem refl (net : Network) : Aside file net net :=
  ⟨rfl, SameFriends.refl net, fun k => ⟨[], by simp, by simp⟩⟩

theorem trans {a b c : Network} (h₁ : Aside file a b) (h₂ : Aside file b c) : Aside file a c := by
  refine ⟨h₂.entries.trans h₁.entries, h₁.friends.trans h₂.friends, fun k => ?_⟩
  obtain ⟨x, hx, hxa⟩ := h₁.inbox k
  obtain ⟨y, hy, hya⟩ := h₂.inbox k
  refine ⟨x ++ y, by rw [hy, hx, List.append_assoc], fun e he => ?_⟩
  rcases List.mem_append.1 he with he | he
  · exact hxa e he
  · exact hya e he

theorem flow? {net net' : Network} (h : Aside file net net') : net'.flow? file = net.flow? file := by
  rw [flow?_eq_entries, flow?_eq_entries, h.entries]

end Aside

theorem aside_post {file : UInt32} (net : Network) (dest src : PublicKey) {make : UInt32 → Event}
    (hm : ∀ p, (make p).Apart file) : Aside file net (net.post dest src make) := by
  refine ⟨by simp, sameFriends_post net dest src make, fun k => ?_⟩
  rw [inbox_post]
  split
  · refine ⟨_, rfl, fun e he => ?_⟩
    obtain ⟨p, -, rfl⟩ := List.mem_map.1 he
    exact hm p
  · exact ⟨[], by simp, by simp⟩

theorem aside_setFlow {file file' : UInt32} (net : Network) (f : Flow) (h : file' ≠ file) :
    Aside file net (net.setFlow file' f) :=
  ⟨by rw [entries_setFlow, if_neg (Ne.symm h)], fun _ => rfl, fun _ => ⟨[], by simp, by simp⟩⟩

theorem aside_dropFlow {file file' : UInt32} (net : Network) (h : file' ≠ file) :
    Aside file net (net.dropFlow file') :=
  ⟨by rw [entries_dropFlow, if_neg (Ne.symm h)], fun _ => rfl, fun _ => ⟨[], by simp, by simp⟩⟩

theorem complete_of_flow {net : Network} {file : UInt32} {fl : Flow} (h : net.flow? file = some fl) :
    net.complete file =
      ((net.dropFlow file).post fl.sender fl.receiver
        (fun p => .chunkRequested ⟨p, file⟩ ⟨fl.size, 0⟩)).post fl.receiver fl.sender
        (fun p => .chunkReceived ⟨p, file⟩ fl.size ByteArray.empty) := by
  simp [complete, h]

theorem complete_of_none {net : Network} {file : UInt32} (h : net.flow? file = none) :
    net.complete file = net := by
  simp [complete, h]

theorem aside_complete {file file' : UInt32} (net : Network) (h : file' ≠ file) :
    Aside file net (net.complete file') := by
  cases hf : net.flow? file' with
  | none => rw [complete_of_none hf]; exact Aside.refl net
  | some fl =>
    rw [complete_of_flow hf]
    refine ((aside_dropFlow net h).trans (aside_post _ _ _ ?_)).trans (aside_post _ _ _ ?_)
    · intro p id hid; cases hid; exact h
    · intro p id hid; cases hid; exact h

/-- A chunk for a transfer of another flow keeps the network aside. -/
theorem aside_sendChunk {file : UInt32} {net net' : Network} {me : PublicKey} {id : TransferId}
    {offset : Nat} {data : ByteArray} (h : net.sendChunk me id offset data = .ok net')
    (hne : id.file ≠ file) : Aside file net net' := by
  unfold sendChunk at h
  cases hf : net.flowOf me id with
  | error e => simp [hf] at h; cases h
  | ok fl =>
    simp only [hf, bind, Except.bind] at h
    split at h
    · cases h
    split at h
    · cases h
    simp only [pure, Except.pure, Except.ok.injEq] at h
    subst h
    have apart : ∀ p, (Event.chunkReceived ⟨p, id.file⟩ offset data).Apart file :=
      fun p id' hid => by cases hid; exact hne
    split
    · exact ((aside_setFlow net _ hne).trans (aside_post _ _ _ apart)).trans (aside_complete _ hne)
    · exact (aside_setFlow net _ hne).trans (aside_post _ _ _ apart)

/-- A control for a transfer of another flow keeps the network aside. -/
theorem aside_setControl {file : UInt32} {net net' : Network} {me : PublicKey} {id : TransferId}
    {c : FileControl} (h : net.setControl me id c = .ok net') (hne : id.file ≠ file) :
    Aside file net net' := by
  unfold setControl at h
  cases hf : net.flowOf me id with
  | error e => rw [hf] at h; cases h
  | ok fl =>
    simp only [hf, bind, Except.bind, pure, Except.pure, Except.ok.injEq] at h
    subst h
    have hpost : ∀ n : Network, Aside file net n → Aside file net
        (n.post (if fl.sender == me then fl.receiver else fl.sender) me
          (fun p => .fileControl ⟨p, id.file⟩ c)) :=
      fun n hn => hn.trans (aside_post n _ me (fun p id' hid => by cases hid; exact hne))
    cases c with
    | resume =>
      simp only
      split
      · exact (hpost _ (aside_setFlow net _ hne)).trans (aside_complete _ hne)
      · exact hpost _ (aside_setFlow net _ hne)
    | pause => exact hpost _ (aside_setFlow net _ hne)
    | cancel => exact hpost _ (aside_dropFlow net hne)

/-- What an offer does: the file counter moves on, the flow of the old number is made, and the
friend is told. -/
theorem offerFile_eq_ok {net net' : Network} {me : PublicKey} {peer : UInt32}
    {name : String} {size : Nat} {id : TransferId} (h : net.offerFile me peer name size = .ok (net', id)) :
    ∃ friend, net' = (({ net with nextFile := net.nextFile + 1 }).setFlow net.nextFile
      { sender := me, receiver := friend, size }).post friend me
        (fun p => .fileOffered ⟨p, net.nextFile⟩ name size) ∧ id = ⟨peer, net.nextFile⟩ := by
  unfold offerFile at h
  cases hn : net.node me <;> simp only [hn, bind, Except.bind] at h
  · cases h
  rename_i n
  cases hf : n.friend peer <;> simp only [hf] at h
  · cases h
  rename_i friend
  -- the friend must be online and list `me`
  cases hfr : net.node? friend with
  | none => simp [hfr, throw, throwThe, MonadExceptOf.throw] at h
  | some nf =>
    cases hp : nf.peerOf? me with
    | none => simp [hfr, hp, throw, throwThe, MonadExceptOf.throw] at h
    | some q =>
      simp only [hfr, hp, Option.isSome_some, Bool.not_true, Bool.false_eq_true, ↓reduceIte, pure,
        Except.pure, Except.ok.injEq, Prod.mk.injEq] at h
      obtain ⟨rfl, rfl⟩ := h
      exact ⟨friend, rfl, rfl⟩

/-- An offer numbered other than `file` keeps the network aside. -/
theorem aside_offerFile {file : UInt32} {net net' : Network} {me : PublicKey} {peer : UInt32}
    {name : String} {size : Nat} {id : TransferId} (h : net.offerFile me peer name size = .ok (net', id))
    (hne : net.nextFile ≠ file) : Aside file net net' ∧ id.file = net.nextFile := by
  obtain ⟨friend, rfl, rfl⟩ := offerFile_eq_ok h
  refine ⟨?_, rfl⟩
  have hnext : Aside file net { net with nextFile := net.nextFile + 1 } :=
    ⟨rfl, fun _ => rfl, fun _ => ⟨[], by simp [inbox, node?], by simp⟩⟩
  exact (hnext.trans (aside_setFlow _ _ hne)).trans
    (aside_post _ _ me (fun p id' hid => by cases hid; exact hne))

/-! ## The flow itself -/

theorem flowOf_of_flow {net : Network} {me other : PublicKey} {id : TransferId} {fl : Flow}
    (hk : net.Knows me other id.peer) (hf : net.flow? id.file = some fl)
    (hc : fl.counterpart? me = some other) : net.flowOf me id = .ok fl := by
  obtain ⟨n, hn, hkn⟩ := hk
  simp [flowOf, node, hn, hkn.friend, hf, hc, bind, Except.bind, pure, Except.pure]

/-- A transfer whose peer number is not the one the flow's other party has at `me` names no
flow of `me`. -/
theorem flowOf_foreign {net : Network} {me other : PublicKey} {peer : UInt32} {id : TransferId}
    {fl : Flow} (hk : net.Knows me other peer) (hf : net.flow? id.file = some fl)
    (hc : fl.counterpart? me = some other) (hp : id.peer ≠ peer) : ∃ e, net.flowOf me id = .error e := by
  obtain ⟨n, hn, hkn⟩ := hk
  unfold flowOf
  simp only [node, hn, bind, Except.bind]
  cases hfr : n.friend id.peer with
  | error e => exact ⟨e, rfl⟩
  | ok k =>
    have hk : k ≠ other := fun he => hp (hkn.friend_inj (he ▸ hfr))
    simp only [hf, hc]
    exact ⟨⟨errFileNotFound, s!"transfer {id.text} not found"⟩,
      by simp [Ne.symm hk, throw, throwThe, MonadExceptOf.throw]⟩

/-- A chunk of the flow from its sender: the delivered mark moves to the chunk's end, the chunk
reaches the receiver, and the flow completes once every byte has arrived. -/
theorem sendChunk_of_flow {net : Network} {me : PublicKey} {id : TransferId} {offset : Nat}
    {data : ByteArray} {fl : Flow} (hk : net.Knows me fl.receiver id.peer)
    (hf : net.flow? id.file = some fl) (hs : fl.sender = me) (hd : 0 < data.size)
    (hend : offset + data.size ≤ fl.size) (hsmall : fl.size < Nat.pow 2 64) :
    net.sendChunk me id offset data =
      .ok (let fl' : Flow :=
             { fl with outstanding := fl.outstanding - 1, delivered := max fl.delivered (offset + data.size) }
           let net₁ := (net.setFlow id.file fl').post fl.receiver me
             (fun p => .chunkReceived ⟨p, id.file⟩ offset data)
           if fl'.delivered ≥ fl.size then net₁.complete id.file else net₁) := by
  have hc : fl.counterpart? me = some fl.receiver := by simp [Flow.counterpart?, hs]
  have hstop : (offset + data.size) % Nat.pow 2 64 = offset + data.size :=
    Nat.mod_eq_of_lt (Nat.lt_of_le_of_lt hend hsmall)
  simp only [sendChunk, flowOf_of_flow hk hf hc, bind, Except.bind, hs, bne_self_eq_false,
    Bool.false_eq_true, ↓reduceIte]
  have hfits : (data.size == 0 || decide (offset + data.size > fl.size)) = false := by
    simp only [Bool.or_eq_false_iff, beq_eq_false_iff_ne, decide_eq_false_iff_not]
    omega
  simp only [hstop, hfits, Bool.false_eq_true, ↓reduceIte]
  rfl

/-- A resume from the flow's receiver: the flow is accepted and pulls again from what has
arrived, the sender hears of it, and an empty file is complete at once. -/
theorem setControl_resume_of_flow {net : Network} {me : PublicKey} {id : TransferId} {fl : Flow}
    (hk : net.Knows me fl.sender id.peer) (hf : net.flow? id.file = some fl) (hr : fl.receiver = me)
    (hne : fl.sender ≠ me) :
    net.setControl me id .resume =
      .ok (let fl' : Flow :=
             { fl with accepted := true, paused := false, requested := fl.delivered, outstanding := 0 }
           let net₁ := (net.setFlow id.file fl').post fl.sender me
             (fun p => .fileControl ⟨p, id.file⟩ .resume)
           if fl.size = 0 then net₁.complete id.file else net₁) := by
  have hc : fl.counterpart? me = some fl.sender := by
    simp [Flow.counterpart?, hr, Ne.symm hne]
  simp only [setControl, flowOf_of_flow hk hf hc, bind, Except.bind, hr, beq_self_eq_true,
    Bool.or_true, Bool.true_and, pure, Except.pure, beq_iff_eq, hne, ↓reduceIte]

/-! ## The network as a transport -/

@[simp] theorem settle_ok (net n : Network) (a : α) : net.settle (.ok (n, a)) = (n, .ok a) := rfl

@[simp] theorem settle_error (net : Network) (e : NativeError) :
    net.settle (α := α) (.error e) = (net, .error e) := rfl

@[simp] theorem wire_pump (k : PublicKey) (net : Network) : (wire k).pump net = net.pump k := rfl

@[simp] theorem wire_sendChunk (k : PublicKey) (net : Network) (id : TransferId) (o : Nat) (d : ByteArray) :
    (wire k).sendChunk net id o d = net.settle ((net.sendChunk k id o d).map (·, ())) := rfl

@[simp] theorem wire_setControl (k : PublicKey) (net : Network) (id : TransferId) (c : FileControl) :
    (wire k).setControl net id c = net.settle ((net.setControl k id c).map (·, ())) := rfl

@[simp] theorem wire_offerFile (k : PublicKey) (net : Network) (p : UInt32) (n : String) (z : Nat) :
    (wire k).offerFile net p n z = net.settle (net.offerFile k p n z) := rfl

end Network

end Courier
