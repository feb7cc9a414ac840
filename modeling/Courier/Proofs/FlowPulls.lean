-- How the network pulls a file: the chunk requests of a pump round tile the file from the flow's
-- mark, and a round touches only the flows its node sends and its own inbox.
import Courier.Proofs.NetworkFlows

namespace Courier

/-- Chunk requests that cover `[a, b)` one after another, none of them empty. -/
inductive Tiles : Nat → Nat → List ChunkRequest → Prop where
  | nil (a : Nat) : Tiles a a []
  | cons {a b : Nat} (r : ChunkRequest) (rs : List ChunkRequest) (start : r.offset = a)
      (pos : 0 < r.length) (rest : Tiles (a + r.length) b rs) : Tiles a b (r :: rs)

namespace Tiles

theorem le {a b : Nat} {rs : List ChunkRequest} (h : Tiles a b rs) : a ≤ b := by
  induction h with
  | nil => exact Nat.le_refl _
  | cons r rs _ pos _ ih => omega

theorem append {a b c : Nat} {rs qs : List ChunkRequest} (h₁ : Tiles a b rs) (h₂ : Tiles b c qs) :
    Tiles a c (rs ++ qs) := by
  induction h₁ with
  | nil => exact h₂
  | cons r rs start pos _ ih => exact .cons r _ start pos (ih h₂)

theorem of_append {a c : Nat} {rs qs : List ChunkRequest} (h : Tiles a c (rs ++ qs)) :
    ∃ b, Tiles a b rs ∧ Tiles b c qs := by
  induction rs generalizing a with
  | nil => exact ⟨a, .nil a, h⟩
  | cons r rs ih =>
    cases h with
    | cons _ _ start pos rest =>
      obtain ⟨b, h₁, h₂⟩ := ih rest
      exact ⟨b, .cons r rs start pos h₁, h₂⟩

theorem eq_nil {a : Nat} {rs : List ChunkRequest} (h : Tiles a a rs) : rs = [] := by
  cases h with
  | nil => rfl
  | cons r rs _ pos rest => have := rest.le; omega

theorem nil_iff {a b : Nat} : Tiles a b [] ↔ a = b :=
  ⟨fun h => by cases h; rfl, fun h => h ▸ .nil a⟩

theorem cons_iff {a b : Nat} {r : ChunkRequest} {rs : List ChunkRequest} :
    Tiles a b (r :: rs) ↔ r.offset = a ∧ 0 < r.length ∧ Tiles (a + r.length) b rs :=
  ⟨fun h => by cases h with | cons _ _ start pos rest => exact ⟨start, pos, rest⟩,
   fun ⟨start, pos, rest⟩ => .cons r rs start pos rest⟩

theorem snoc {a b : Nat} {rs : List ChunkRequest} (h : Tiles a b rs) (r : ChunkRequest)
    (start : r.offset = b) (pos : 0 < r.length) : Tiles a (b + r.length) (rs ++ [r]) :=
  h.append (.cons r [] start pos (.nil _))

end Tiles

namespace Network

/-! ## The requests of one flow -/

/-- The pulls of one flow: requests that cover the file from its `requested` mark to the new one,
within the file; only the mark and the count outstanding move. -/
theorem pullsOf_tiles (id : TransferId) (fl : Flow) (fuel : Nat) (h : fl.requested ≤ fl.size) :
    let fl' := (pullsOf id fl fuel).1
    ∃ rs, (pullsOf id fl fuel).2 = rs.map (.chunkRequested id) ∧ Tiles fl.requested fl'.requested rs ∧
      fl'.requested ≤ fl.size ∧ fl' = { fl with requested := fl'.requested, outstanding := fl'.outstanding } := by
  induction fuel generalizing fl with
  | zero => exact ⟨[], rfl, .nil _, h, rfl⟩
  | succ fuel ih =>
    simp only [pullsOf]
    split
    · rename_i hgo
      -- one request of at most a chunk, then the pulls from its end
      have hlt : fl.requested < fl.size := by simp at hgo; omega
      let length := min (fl.size - fl.requested) chunkSize
      let next : Flow := { fl with requested := fl.requested + length, outstanding := fl.outstanding + 1 }
      have hnext : next.requested ≤ next.size := by simp [next]; omega
      obtain ⟨rs, hevs, htiles, hle, heq⟩ := ih next hnext
      dsimp only [next, length] at hevs htiles hle heq
      refine ⟨⟨fl.requested, min (fl.size - fl.requested) chunkSize⟩ :: rs, by simp [hevs],
        .cons _ _ rfl (by simp [chunkSize]; omega) htiles, hle, ?_⟩
      dsimp only
      rw [heq]
    · exact ⟨[], rfl, .nil _, h, rfl⟩

/-! ## A round of a node -/

/-- What a round of `me`, online as `n`, does to one entry of the flow table: an accepted flow
that `me` sends and that is not paused makes its pulls. -/
def roundEntry (n : Node) (me : PublicKey) (e : UInt32 × Flow) : (UInt32 × Flow) × List Event :=
  if e.2.sender == me && e.2.accepted && !e.2.paused then
    match n.peerOf? e.2.receiver with
    | some peer =>
      let (f, evs) := pullsOf ⟨peer, e.1⟩ e.2 (maxOutstanding + 1)
      ((e.1, f), evs)
    | none => (e, [])
  else (e, [])

theorem pulls_eq {net : Network} {me : PublicKey} {n : Node} (hn : net.node? me = some n) :
    net.pulls me = ({ net with flows := net.flows.map fun e => (roundEntry n me e).1 },
      net.flows.flatMap fun e => (roundEntry n me e).2) := by
  simp only [pulls, hn, List.map_map, List.flatMap_map]
  rfl

theorem roundEntry_key (n : Node) (me : PublicKey) (e : UInt32 × Flow) : (roundEntry n me e).1.1 = e.1 := by
  unfold roundEntry
  split
  · split <;> rfl
  · rfl

theorem pullsOf_ids (id : TransferId) (fl : Flow) (fuel : Nat) :
    ∀ ev ∈ (pullsOf id fl fuel).2, ev.fileId? = some id := by
  induction fuel generalizing fl with
  | zero => simp [pullsOf]
  | succ fuel ih =>
    simp only [pullsOf]
    split
    · intro ev hev
      rcases List.mem_cons.1 hev with rfl | hev
      · rfl
      · exact ih _ ev hev
    · simp

theorem roundEntry_events (n : Node) (me : PublicKey) (e : UInt32 × Flow) :
    ∀ ev ∈ (roundEntry n me e).2, ∃ peer, ev.fileId? = some ⟨peer, e.1⟩ := by
  intro ev hev
  unfold roundEntry at hev
  split at hev
  · split at hev
    · rename_i peer _
      exact ⟨peer, pullsOf_ids _ _ _ ev hev⟩
    · cases hev
  · cases hev

/-- A flow that `me` does not send is left alone by its rounds. -/
theorem roundEntry_of_sender_ne (n : Node) {me : PublicKey} {e : UInt32 × Flow} (h : e.2.sender ≠ me) :
    roundEntry n me e = (e, []) := by
  simp [roundEntry, h]

/-- An accepted flow that `me` sends to a friend it knows as `peer`, not paused, makes its pulls. -/
theorem roundEntry_of_accepted (n : Node) {me : PublicKey} {file peer : UInt32} {fl : Flow}
    (hs : fl.sender = me) (ha : fl.accepted = true) (hp : fl.paused = false)
    (hk : n.peerOf? fl.receiver = some peer) :
    roundEntry n me (file, fl) = ((file, (pullsOf ⟨peer, file⟩ fl (maxOutstanding + 1)).1),
      (pullsOf ⟨peer, file⟩ fl (maxOutstanding + 1)).2) := by
  simp [roundEntry, hs, ha, hp, hk]

/-- A flow that is not accepted is left alone by rounds. -/
theorem roundEntry_of_waiting (n : Node) (me : PublicKey) {e : UInt32 × Flow} (ha : e.2.accepted = false) :
    roundEntry n me e = (e, []) := by
  simp [roundEntry, ha]

/-- A round of an online node: its inbox is emptied and handed on, then the pulls of the flows it
sends. -/
theorem pump_eq {net : Network} {me : PublicKey} {n : Node} (hn : net.node? me = some n) :
    net.pump me = ({ net.setNode me { n with inbox := [] } with
        flows := net.flows.map fun e => (roundEntry n me e).1 },
      n.inbox ++ net.flows.flatMap fun e => (roundEntry n me e).2) := by
  have hn' : (net.setNode me { n with inbox := [] }).node? me = some { n with inbox := [] } := by
    simp [node?_setNode, hn]
  simp only [pump, hn, pulls_eq hn']
  rfl

theorem inbox_pump_self {net : Network} {me : PublicKey} {n : Node} (hn : net.node? me = some n) :
    (net.pump me).1.inbox me = [] := by
  rw [pump_eq hn]
  show (((net.setNode me { n with inbox := [] }).node? me).map Node.inbox).getD [] = []
  simp [node?_setNode, hn]

theorem inbox_pump_ne {net : Network} {me k : PublicKey} (h : k ≠ me) :
    (net.pump me).1.inbox k = net.inbox k := by
  cases hn : net.node? me with
  | none => simp [pump, hn]
  | some n =>
    rw [pump_eq hn]
    show (((net.setNode me { n with inbox := [] }).node? k).map Node.inbox).getD [] = net.inbox k
    simp [node?_setNode, h, inbox]

theorem sameFriends_pump (net : Network) (me : PublicKey) : SameFriends net (net.pump me).1 := by
  cases hn : net.node? me with
  | none => simp only [pump, hn]; exact SameFriends.refl net
  | some n =>
    rw [pump_eq hn]
    intro k
    show ((net.setNode me { n with inbox := [] }).node? k).map Node.friends = _
    rw [node?_setNode]
    split
    · rename_i hk; subst hk; simp [hn]
    · rfl

theorem nextFile_pump (net : Network) (me : PublicKey) : (net.pump me).1.nextFile = net.nextFile := by
  cases hn : net.node? me with
  | none => simp [pump, hn]
  | some n => rw [pump_eq hn]; rfl

/-- A round changes a flow only as its entry's round does. -/
theorem entries_pump {net : Network} {me : PublicKey} {n : Node} (hn : net.node? me = some n)
    (file : UInt32) : (net.pump me).1.entries file = (net.entries file).map fun e => (roundEntry n me e).1 := by
  rw [pump_eq hn]
  simp only [entries, List.filter_map]
  congr 1
  apply List.filter_congr
  intro e _
  simp [roundEntry_key]

end Network

end Courier
