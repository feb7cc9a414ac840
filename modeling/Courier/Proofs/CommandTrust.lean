-- Who the daemon takes commands from: a friend request is accepted only from the trusted key, and a
-- queued command is answered only when its sender's key, looked up as it is taken, is that key.
import Courier.Daemon.Station
import Mathlib

namespace Courier

theorem Bridge.control_items (b : Bridge) (wire : Wire ω) (x : ω) (id : TransferId) (c : FileControl) :
    ∀ y ∈ (b.control wire x id c).2, y.forFriends = false := by
  unfold Bridge.control
  split
  · simp
  · split <;> simp [Inbound.forFriends]

theorem Bridge.chunk_items (b : Bridge) (wire : Wire ω) (x : ω) (now : Nat) (id : TransferId)
    (offset : Nat) (data : ByteArray) :
    ∀ y ∈ (b.chunk wire x now id offset data).2.2, y.forFriends = false := by
  unfold Bridge.chunk
  split
  · simp
  · simp only [List.mem_append, List.mem_map]
    rintro y (hy | ⟨r, -, rfl⟩)
    · split at hy <;> simp_all [Inbound.forFriends]
    · rfl

end Courier

namespace Courier.Daemon

open Transfer

namespace World

/-- The roles of the stations, in order. -/
def roles (w : World) : Array Role := w.stations.map Station.role

/-- The key the transport of station `i` names for a peer, as a running bridge answers it. -/
def peerKey (w : World) (i : Nat) (peer : UInt32) : Except TransportError PublicKey :=
  match w.stations[i]? with
  | some st => if st.bridge.running then (w.net.friendKey st.key peer).mapError .ofNative else .error .shutdown
  | none => .error .shutdown

/-- A command executed at station `i` for its sender, and the reply sent back as one message. -/
def answer (w : World) (i : Nat) (r : CommandRequest) : World :=
  let (w, reply) := w.execute i r.peer r.command
  (w.onBridge i (fun b wire net => b.sendMessage wire net r.peer reply) (.error .shutdown)).1

/-- The command service as it is meant to be: the queued commands are taken in order, each
leaving the queue first; a command is answered when the transport names the trusted key for its
sender at that moment, and otherwise dropped. -/
def serveQueue (w : World) (i : Nat) (h : CommandHandler) (capacity : Nat) :
    List CommandRequest → World
  | [] => w
  | r :: rest =>
    let w := w.modify i ({ · with role := .commands h ⟨capacity, rest⟩ })
    (if w.peerKey i r.peer = .ok h.trusted then w.answer i r else w).serveQueue i h capacity rest

/-! ## Serving a command works only on the file side -/

theorem role_of_roles {w w' : World} {i : Nat} (hr : w'.roles = w.roles) :
    (w'.stations[i]?).map Station.role = (w.stations[i]?).map Station.role := by
  rw [← Array.getElem?_map, ← Array.getElem?_map]
  exact congrArg (·[i]?) hr

theorem roles_modify (w : World) (i : Nat) (f : Station → Station) (hf : ∀ st, (f st).role = st.role) :
    (w.modify i f).roles = w.roles := by
  apply Array.ext_getElem?
  intro j
  simp only [roles, modify, Array.getElem?_map, Array.getElem?_modify]
  split
  · cases w.stations[j]? <;> simp [hf]
  · rfl

theorem roles_onBridge (w : World) (i : Nat) (f : Bridge → Wire Network → Network → Network × α) (a : α) :
    (w.onBridge i f a).1.roles = w.roles := by
  unfold onBridge
  split <;> rfl

/-- A step of station `i` that works only on the file side: every role stays, and what it hands
on are file items. -/
structure FileWork (w : World) (r : World × List Inbound) : Prop where
  roles : r.1.roles = w.roles
  items : ∀ x ∈ r.2, x.forFriends = false

theorem fileWork_call (w : World) (i : Nat) (c : Call) : w.FileWork (w.call i c) := by
  unfold call
  split
  · exact ⟨rfl, by simp⟩
  · rename_i st _
    cases c with
    | control id ctl =>
      exact ⟨rfl, st.bridge.control_items _ _ id ctl⟩
    | chunk id offset data =>
      have items := st.bridge.chunk_items (Network.wire st.key) w.net w.clock id offset data
      dsimp only
      generalize st.bridge.chunk (Network.wire st.key) w.net w.clock id offset data = res at items ⊢
      obtain ⟨b', net', out⟩ := res
      exact ⟨roles_modify w i (fun x => { x with bridge := b' }) fun _ => rfl, items⟩

theorem fileWork_calls (w : World) (i : Nat) (cs : List Call) : w.FileWork (w.calls i cs) := by
  unfold calls
  -- the fold carries the world and the items so far; both stay on the file side
  apply List.foldlRecOn
  · exact ⟨rfl, by simp⟩
  · rintro ⟨w', acc⟩ hp c -
    have hc := fileWork_call w' i c
    dsimp only
    generalize w'.call i c = q at hc ⊢
    refine ⟨hc.roles.trans hp.roles, ?_⟩
    simp only [List.mem_append]
    rintro x (hx | hx)
    · exact hp.items x hx
    · exact hc.items x hx

theorem fileWork_withEngine (w : World) (i : Nat) (f : Engine → Desk → Turn) :
    w.FileWork (w.withEngine i f) := by
  unfold withEngine
  split
  · exact ⟨rfl, by simp⟩
  · rename_i e _
    let t := f e { volume := w.volume, clock := w.clock }
    have hc := fileWork_calls { w.modify i ({ · with engine := some t.engine }) with volume := t.desk.volume }
      i t.desk.calls.toList
    exact ⟨hc.roles.trans (roles_modify w i (fun x => { x with engine := some t.engine }) fun _ => rfl),
      hc.items⟩

theorem fileWork_dispatch (w : World) (i : Nat) {item : Inbound} (hx : item.forFriends = false) :
    w.FileWork (w.dispatch i item) := by
  unfold dispatch
  split
  · exact ⟨rfl, by simp⟩
  · split
    · exact ⟨rfl, by simp⟩
    · simp [Inbound.forFriends] at hx
    · simp [Inbound.forFriends] at hx
    · simp [Inbound.forFriends] at hx
    · split
      · exact fileWork_withEngine _ _ _
      · exact ⟨rfl, by simp⟩

theorem roles_drain (w : World) (i fuel : Nat) (items : List Inbound)
    (hx : ∀ x ∈ items, x.forFriends = false) : (w.drain i fuel items).roles = w.roles := by
  induction fuel generalizing w items with
  | zero => simp only [drain]
  | succ fuel ih =>
    cases items with
    | nil => simp only [drain]
    | cons item rest =>
      have hd := fileWork_dispatch w i (hx item List.mem_cons_self)
      simp only [drain]
      generalize w.dispatch i item = p at hd
      obtain ⟨w', out⟩ := p
      refine (ih w' _ ?_).trans hd.roles
      simp only [List.mem_append]
      rintro x (hr | ho)
      · exact hx x (List.mem_cons_of_mem _ hr)
      · exact hd.items x ho

theorem roles_send (w : World) (i : Nat) (peer : UInt32) (path : String) :
    (w.send i peer path).1.roles = w.roles := by
  unfold send
  split
  · rfl
  split
  · rfl
  split
  · rfl
  -- the files are offered one by one through the bridge, which touches only the network
  split
  rename_i w' replies hfold
  have hw' : w'.roles = w.roles := by
    have h := congrArg (fun p : World × List (SourceFile × OfferReply) => p.1.roles) hfold
    dsimp only at h
    rw [← h]
    refine List.foldlRecOn (motive := fun p : World × List (SourceFile × OfferReply) => p.1.roles = w.roles)
      _ _ rfl ?_
    intro p hp f _
    exact (roles_onBridge p.1 i _ _).trans hp
  split
  · exact hw'
  · split
    rename_i e' d r _
    dsimp only
    have hc := fileWork_calls { w'.modify i ({ · with engine := some e' }) with volume := d.volume } i
      d.calls.toList
    exact (roles_drain _ _ _ _ hc.items).trans
      (hc.roles.trans ((roles_modify w' i (fun x => { x with engine := some e' }) fun _ => rfl).trans hw'))

theorem roles_execute (w : World) (i : Nat) (peer : UInt32) (c : Command) :
    (w.execute i peer c).1.roles = w.roles := by
  cases c with
  | send path => exact roles_send w i peer path
  | save =>
    simp only [execute]
    split
    · rfl
    · rfl
  | status => rfl
  | help => rfl
  | unknown text => rfl

theorem roles_answer (w : World) (i : Nat) (r : CommandRequest) : (w.answer i r).roles = w.roles :=
  (roles_onBridge _ i _ _).trans (roles_execute w i r.peer r.command)

/-! ## A friend request, one command, and the whole queue -/

/-- A friend request reaches the command role when a friend handler is registered, and is
accepted through the bridge exactly when it comes from the trusted key. -/
theorem dispatch_friendRequest {w : World} {i : Nat} {st : Station} {h : CommandHandler}
    {q : CommandQueue} (hst : w.stations[i]? = some st) (hrole : st.role = .commands h q)
    (k : PublicKey) (m : String) :
    w.dispatch i (.event (.friendRequest k m)) =
      (if st.bridge.friendSlot.isSome ∧ k = h.trusted then
        { w with net := (st.bridge.acceptFriend (Network.wire st.key) w.net k).1 } else w, []) := by
  simp only [dispatch, hst, Bridge.handlerOf, Inbound.forFriends, if_true]
  cases st.bridge.friendSlot with
  | none => simp
  | some slot =>
    by_cases hk : k = h.trusted
    · simp [hrole, hk, CommandHandler.onRequest, onBridge, hst]
    · simp [hrole, hk, CommandHandler.onRequest]

theorem onBridge_friendKey (w : World) (i : Nat) (peer : UInt32) :
    w.onBridge i (fun b wire net => b.friendKey wire net peer) (.error .shutdown) = (w, w.peerKey i peer) := by
  cases hst : w.stations[i]? with
  | none => simp [onBridge, peerKey, hst]
  | some st =>
    simp only [onBridge, peerKey, hst, Bridge.friendKey, Bridge.ask, Network.wire]
    split <;> rfl

/-- A command is answered when the transport names the trusted key for its sender, and otherwise
changes nothing. -/
theorem serveOne_eq (w : World) (i : Nat) (h : CommandHandler) (r : CommandRequest) :
    w.serveOne i h r = if w.peerKey i r.peer = .ok h.trusted then w.answer i r else w := by
  unfold serveOne
  rw [onBridge_friendKey]
  dsimp only
  cases w.peerKey i r.peer with
  | error e => simp
  | ok k =>
    by_cases hk : k = h.trusted
    · simp [hk, answer]
    · simp [hk]

theorem role_modify_self {w : World} {i : Nat} {role₀ : Role} (hr : (w.stations[i]?).map Station.role = some role₀)
    (role : Role) : ((w.modify i ({ · with role })).stations[i]?).map Station.role = some role := by
  obtain ⟨st, hst, -⟩ := Option.map_eq_some_iff.1 hr
  simp [modify, Array.getElem?_modify, hst]

/-- Serving a queue of `rs` takes its commands in order, each checked when it is taken. -/
theorem serve_eq (i : Nat) (h : CommandHandler) (capacity : Nat) :
    ∀ (rs : List CommandRequest) (fuel : Nat) (w : World),
      (w.stations[i]?).map Station.role = some (.commands h ⟨capacity, rs⟩) → rs.length ≤ fuel →
      w.serve i fuel = (w.serveQueue i h capacity rs, !rs.isEmpty)
  | [], fuel, w, hr, _ => by
    cases fuel <;> simp [serve, hr, CommandQueue.take?, serveQueue]
  | r :: rest, fuel + 1, w, hr, hlen => by
    let w₀ := w.modify i ({ · with role := .commands h ⟨capacity, rest⟩ })
    have h₀ := role_modify_self hr (.commands h ⟨capacity, rest⟩)
    -- the command's answer, if any, keeps the role and so the rest of the queue
    have h₁ : ((if w₀.peerKey i r.peer = .ok h.trusted then w₀.answer i r else w₀).stations[i]?).map
        Station.role = some (.commands h ⟨capacity, rest⟩) := by
      split
      · exact (role_of_roles (roles_answer w₀ i r)).trans h₀
      · exact h₀
    simp only [serve, hr, CommandQueue.take?, serveOne_eq]
    rw [serve_eq i h capacity rest fuel _ h₁ (by simpa using hlen)]
    simp [serveQueue, w₀]

end World

/-- The daemon takes commands only from its trusted key. A friend request at the command station
is accepted exactly when a friend handler is registered and the key is the trusted one, and
otherwise changes nothing. Serving the queue takes its commands in order; each leaves the queue,
and is executed and answered with one message exactly when, at the moment it is taken, the
transport names the trusted key for its sender; any other command changes nothing more. -/
theorem commands_answered_only_for_the_trusted_key :
    (∀ (w : World) (i : Nat) (st : Station) (h : CommandHandler) (q : CommandQueue) (k : PublicKey)
      (m : String), w.stations[i]? = some st → st.role = .commands h q →
      w.dispatch i (.event (.friendRequest k m)) =
        (if st.bridge.friendSlot.isSome ∧ k = h.trusted then
          { w with net := (st.bridge.acceptFriend (Network.wire st.key) w.net k).1 } else w, [])) ∧
    (∀ (w : World) (i : Nat) (st : Station) (h : CommandHandler) (q : CommandQueue) (fuel : Nat),
      w.stations[i]? = some st → st.role = .commands h q → q.items.length ≤ fuel →
      w.serve i fuel = (w.serveQueue i h q.capacity q.items, !q.items.isEmpty)) := by
  refine ⟨fun w i st h q k m hst hrole => World.dispatch_friendRequest hst hrole k m, ?_⟩
  intro w i st h q fuel hst hrole hlen
  apply World.serve_eq i h q.capacity q.items fuel w _ hlen
  simp [hst, hrole]

/-- A daemon station whose one friend, at peer 0, is not the trusted key, with a command of that
friend queued. -/
def strangerAtTheDoor : World where
  net := { nodes := [(PublicKey.replicate 1, ⟨"daemon", 0, [PublicKey.replicate 3], [], 0⟩)] }
  volume := {}
  stations := #[⟨PublicKey.replicate 1, ⟨Address.new (PublicKey.replicate 1) 0, true, ⟨{}, []⟩, none, some 0, none⟩,
    none, 0, .commands ⟨PublicKey.replicate 2⟩ ⟨32, [⟨0, .status⟩]⟩⟩]

theorem stranger_is_neither_befriended_nor_answered :
    strangerAtTheDoor.dispatch 0 (.event (.friendRequest (PublicKey.replicate 3) "hi")) =
      (strangerAtTheDoor, []) ∧
    strangerAtTheDoor.serve 0 1 =
      (strangerAtTheDoor.modify 0 ({ · with role := .commands ⟨PublicKey.replicate 2⟩ ⟨32, []⟩ }), true) := by
  constructor
  · rw [commands_answered_only_for_the_trusted_key.1 _ 0 _ ⟨PublicKey.replicate 2⟩ ⟨32, [⟨0, .status⟩]⟩ _ _
      rfl rfl]
    simp [PublicKey.replicate]
  · rw [commands_answered_only_for_the_trusted_key.2 _ 0 _ ⟨PublicKey.replicate 2⟩ ⟨32, [⟨0, .status⟩]⟩ 1
      rfl rfl (by decide)]
    have hkey : (strangerAtTheDoor.modify 0 ({ · with role := .commands ⟨PublicKey.replicate 2⟩ ⟨32, []⟩ })).peerKey
        0 0 = .ok (PublicKey.replicate 3) := rfl
    simp only [World.serveQueue, List.isEmpty_cons, Bool.not_false]
    rw [hkey, if_neg (by simp [PublicKey.replicate])]

end Courier.Daemon
