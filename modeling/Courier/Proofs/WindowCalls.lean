-- Runs of calls on a window table: no window exceeds its cap, a cap changes at most once, and each
-- transfer's requests are handed on in order, none twice.
import Courier.Proofs.WindowOrder
import Courier.Settings.Window

namespace Courier

namespace FlowWindow

variable {w : FlowWindow}

/-- The slot law of a window: no more requests in flight than its cap, and requests wait only
while every slot is taken. -/
structure Settled (w : FlowWindow) : Prop where
  inFlight_le : w.inFlight ≤ w.cap
  full : w.pending ≠ [] → w.inFlight = w.cap

/-- A window that a sweep grows: nothing in flight, something waiting, and its cap below the
largest. -/
def Starved (w : FlowWindow) (maxCap : Nat) : Prop :=
  w.inFlight = 0 ∧ w.pending ≠ [] ∧ w.cap < maxCap

theorem grow_of_starved {maxCap : Nat} (h : w.Starved maxCap) :
    w.grow maxCap = { w with cap := min (max w.cap 1 * 2) maxCap } := by
  obtain ⟨h₀, hp, hc⟩ := h
  simp [grow, h₀, hc, hp]

theorem grow_of_not_starved {maxCap : Nat} (h : ¬ w.Starved maxCap) : w.grow maxCap = w := by
  unfold grow
  split
  · rename_i hg
    simp only [Bool.and_eq_true, beq_iff_eq, Bool.not_eq_true', List.isEmpty_eq_false_iff,
      decide_eq_true_eq] at hg
    exact absurd ⟨hg.1.1, hg.1.2, hg.2⟩ h
  · rfl

@[simp] theorem drain_cap (w : FlowWindow) : w.drain.1.cap = w.cap := rfl

@[simp] theorem enqueue_cap (w : FlowWindow) (r : ChunkRequest) (now : Nat) :
    (w.enqueue r now).1.cap = w.cap := rfl

@[simp] theorem release_cap (w : FlowWindow) (now : Nat) : (w.release now).1.cap = w.cap := rfl

/-- A drain from a window within its cap settles it: the drain stops only when the slots are full
or nothing waits. -/
theorem drain_settled (h : w.inFlight ≤ w.cap) : w.drain.1.Settled := by
  constructor
  · simp only [drain]
    omega
  · intro hp
    have hlt : min (w.cap - w.inFlight) w.pending.length < w.pending.length := by
      simpa [drain, List.drop_eq_nil_iff] using hp
    simp only [drain]
    omega

theorem empty_settled (cap now : Nat) : (empty cap now).Settled :=
  ⟨Nat.zero_le _, fun h => absurd rfl h⟩

theorem Settled.enqueue (h : w.Settled) (r : ChunkRequest) (now : Nat) : (w.enqueue r now).1.Settled :=
  drain_settled h.inFlight_le

theorem Settled.release (h : w.Settled) (now : Nat) : (w.release now).1.Settled :=
  drain_settled (Nat.le_trans (Nat.sub_le _ _) h.inFlight_le)

/-- A settled window starves only with a cap of zero, since its requests wait only while its
slots are full. -/
theorem Settled.cap_eq_zero (h : w.Settled) {maxCap : Nat} (hs : w.Starved maxCap) : w.cap = 0 := by
  obtain ⟨h₀, hp, -⟩ := hs
  rw [← h.full hp, h₀]

theorem Settled.grow_drain (h : w.Settled) (maxCap : Nat) : (w.grow maxCap).drain.1.Settled := by
  apply drain_settled
  by_cases hs : w.Starved maxCap
  · rw [grow_of_starved hs]
    simp [hs.1]
  · rw [grow_of_not_starved hs]
    exact h.inFlight_le

/-- How a window's cap may move while the window lives: it stays, or a cap of zero becomes
`min 2 maxCap`, which is not zero. -/
def CapMoves (maxCap c c' : Nat) : Prop := c' = c ∨ (c = 0 ∧ c' = min 2 maxCap ∧ 0 < c')

theorem CapMoves.refl (maxCap c : Nat) : CapMoves maxCap c c := .inl rfl

/-- A cap that moved is not zero, so it never moves again. -/
theorem CapMoves.trans {maxCap a b c : Nat} (h₁ : CapMoves maxCap a b) (h₂ : CapMoves maxCap b c) :
    CapMoves maxCap a c := by
  rcases h₁ with rfl | ⟨ha, hb, hpos⟩
  · exact h₂
  · rcases h₂ with rfl | ⟨hb0, -, -⟩
    · exact .inr ⟨ha, hb, hpos⟩
    · omega

theorem Settled.grow_cap (h : w.Settled) (maxCap : Nat) :
    CapMoves maxCap w.cap (w.grow maxCap).cap := by
  by_cases hs : w.Starved maxCap
  · have h0 := h.cap_eq_zero hs
    have hlt := hs.2.2
    right
    rw [grow_of_starved hs, h0]
    simp only [Nat.zero_le, Nat.max_eq_right, Nat.one_mul, true_and]
    omega
  · rw [grow_of_not_starved hs]
    exact .refl _ _

end FlowWindow

namespace WindowTable

variable {t : WindowTable} {id : TransferId}

/-! ## Calls and runs -/

/-- A call on the window table: queue a request for a transfer (`admit`), free a slot of its
window (`release_one`), or sweep. -/
inductive Call where
  | queue (id : TransferId) (r : ChunkRequest) (now : Nat)
  | release (id : TransferId) (now : Nat)
  | sweep (now : Nat)
deriving Repr

/-- What a call does: the new table and the requests it hands on, each with its transfer. -/
def call (t : WindowTable) : Call → WindowTable × List (TransferId × ChunkRequest)
  | .queue id r now => ((t.enqueue id r now).1, (t.enqueue id r now).2.map (id, ·))
  | .release id now => ((t.release id now).1, (t.release id now).2.map (id, ·))
  | .sweep now => t.sweep now

/-- Makes calls in order: the last table, and the requests handed on, in order. -/
def run (t : WindowTable) : List Call → WindowTable × List (TransferId × ChunkRequest)
  | [] => (t, [])
  | c :: cs => (((t.call c).1.run cs).1, (t.call c).2 ++ ((t.call c).1.run cs).2)

/-- A table that some run of calls reaches from a new table with the same limits. -/
def Reachable (t : WindowTable) : Prop := ∃ calls, (run { config := t.config } calls).1 = t

@[simp] theorem run_nil (t : WindowTable) : t.run [] = (t, []) := rfl

@[simp] theorem run_cons (t : WindowTable) (c : Call) (cs : List Call) :
    t.run (c :: cs) = (((t.call c).1.run cs).1, (t.call c).2 ++ ((t.call c).1.run cs).2) := rfl

@[simp] theorem config_call (t : WindowTable) (c : Call) : (t.call c).1.config = t.config := by
  cases c <;> simp only [call, enqueue_fst, config_put]
  · unfold release; split <;> rfl
  · rfl

@[simp] theorem config_run (t : WindowTable) (cs : List Call) : (t.run cs).1.config = t.config := by
  induction cs generalizing t with
  | nil => rfl
  | cons c cs ih => simp [ih]

/-- Whether a call drops the transfer's window: a sweep while the window is stale. -/
def drops (t : WindowTable) (id : TransferId) : Call → Bool
  | .sweep now => (t.get? id).any (·.isStale now t.config.idleTimeout)
  | _ => false

/-- No call of the run drops the transfer's window: the run stays within one life of it. -/
def spares (id : TransferId) : WindowTable → List Call → Bool
  | _, [] => true
  | t, c :: cs => !t.drops id c && spares id (t.call c).1 cs

/-- The request a call queues for a transfer, if it queues one. -/
def Call.queued? (id : TransferId) : Call → Option ChunkRequest
  | .queue i r _ => if i = id then some r else none
  | _ => none

/-- The requests the calls queue for a transfer, in order. -/
def queuedFor (id : TransferId) (calls : List Call) : List ChunkRequest :=
  calls.filterMap (Call.queued? id)

/-! ## Where the windows come from -/

theorem mem_of_get? {w : FlowWindow} (h : t.get? id = some w) : (id, w) ∈ t.windows := by
  obtain ⟨p, hp, rfl⟩ := Option.map_eq_some_iff.1 h
  have hid : p.1 = id := by simpa using List.find?_some hp
  rw [← hid]
  exact List.mem_of_find?_eq_some hp

theorem mem_put {w : FlowWindow} {p : TransferId × FlowWindow} (h : p ∈ (t.put id w).windows) :
    p ∈ t.windows ∨ p = (id, w) := by
  simp only [put, List.mem_append, List.mem_filter, List.mem_singleton] at h
  rcases h with (⟨⟨hp, -⟩, -⟩ | rfl) | ⟨⟨hp, -⟩, -⟩
  · exact .inl hp
  · exact .inr rfl
  · exact .inl hp

theorem mem_sweep {now : Nat} {p : TransferId × FlowWindow} (h : p ∈ (t.sweep now).1.windows) :
    ∃ q ∈ t.windows, p = (q.1, (q.2.grow t.config.maxCap).drain.1) := by
  simp only [sweep, List.map_map, List.mem_map, List.mem_filter] at h
  obtain ⟨q, ⟨hq, -⟩, rfl⟩ := h
  exact ⟨q, hq, rfl⟩

/-- A sweep keeps a window that is not stale, grown and drained. -/
theorem get?_sweep_of_fresh {w : FlowWindow} {now : Nat} (hw : t.get? id = some w)
    (hs : w.isStale now t.config.idleTimeout = false) :
    (t.sweep now).1.get? id = some (w.grow t.config.maxCap).drain.1 := by
  obtain ⟨p, hp, rfl⟩ := Option.map_eq_some_iff.1 hw
  obtain ⟨hpid, as, bs, hl, has⟩ := List.find?_eq_some_iff_append.1 hp
  simp only [get?, sweep, List.find?_map, List.find?_filter, Option.map_map]
  -- the same window comes first among those the sweep keeps
  refine Option.map_eq_some_iff.2 ⟨p, List.find?_eq_some_iff_append.2 ⟨?_, as, bs, hl, fun a ha => ?_⟩, rfl⟩
  · simp [hs, hpid]
  · have hne : a.1 ≠ id := by simpa using has a ha
    simp [hne]

/-! ## Every reachable table keeps the slot law -/

/-- The laws of a reachable table: windows in order of transfer, each settled, and each cap the
initial one or, when that is zero, `min 2 maxCap`. -/
structure Sound (t : WindowTable) : Prop where
  ordered : t.Ordered
  settled : ∀ p ∈ t.windows, p.2.Settled
  caps : ∀ p ∈ t.windows,
    p.2.cap = t.config.initialCap ∨ (t.config.initialCap = 0 ∧ p.2.cap = min 2 t.config.maxCap)

theorem sound_new (cfg : WindowConfig) : ({ config := cfg } : WindowTable).Sound :=
  ⟨List.Pairwise.nil, fun _ h => absurd h List.not_mem_nil, fun _ h => absurd h List.not_mem_nil⟩

/-- The window a transfer's request goes into: its own, or a new one with the initial cap. -/
theorem Sound.opened (h : t.Sound) (id : TransferId) (now : Nat) :
    let w := (t.get? id).getD (FlowWindow.empty t.config.initialCap now)
    w.Settled ∧ (w.cap = t.config.initialCap ∨
      (t.config.initialCap = 0 ∧ w.cap = min 2 t.config.maxCap)) := by
  cases hw : t.get? id with
  | none => exact ⟨FlowWindow.empty_settled _ _, .inl rfl⟩
  | some w => exact ⟨h.settled _ (mem_of_get? hw), h.caps _ (mem_of_get? hw)⟩

theorem Sound.enqueue (h : t.Sound) (id : TransferId) (r : ChunkRequest) (now : Nat) :
    (t.enqueue id r now).1.Sound := by
  obtain ⟨hset, hcap⟩ := h.opened id now
  refine ⟨h.ordered.enqueue id r now, fun p hp => ?_, fun p hp => ?_⟩ <;>
    rw [enqueue_fst] at hp <;> rcases mem_put hp with hp | rfl
  · exact h.settled p hp
  · exact hset.enqueue r now
  · exact h.caps p hp
  · exact hcap

theorem Sound.release (h : t.Sound) (id : TransferId) (now : Nat) : (t.release id now).1.Sound := by
  unfold WindowTable.release
  cases hw : t.get? id with
  | none => exact h
  | some w =>
    have hmem := mem_of_get? hw
    refine ⟨h.ordered.put id _, fun p hp => ?_, fun p hp => ?_⟩ <;> rcases mem_put hp with hp | rfl
    · exact h.settled p hp
    · exact (h.settled _ hmem).release now
    · exact h.caps p hp
    · simpa using h.caps _ hmem

@[simp] theorem config_sweep (t : WindowTable) (now : Nat) : (t.sweep now).1.config = t.config := rfl

theorem Sound.sweep (h : t.Sound) (now : Nat) : (t.sweep now).1.Sound := by
  refine ⟨h.ordered.sweep now, fun p hp => ?_, fun p hp => ?_⟩
  · obtain ⟨q, hq, rfl⟩ := mem_sweep hp
    exact (h.settled q hq).grow_drain _
  · obtain ⟨q, hq, rfl⟩ := mem_sweep hp
    rw [config_sweep]
    -- a cap that grows was zero, so the initial cap was zero too
    rcases (h.settled q hq).grow_cap t.config.maxCap with hc | ⟨hq0, hc, -⟩
    · simpa [hc] using h.caps q hq
    · have h0 : t.config.initialCap = 0 := by
        rcases h.caps q hq with h' | ⟨h', -⟩ <;> omega
      exact .inr ⟨h0, by simpa using hc⟩

theorem Sound.call (h : t.Sound) (c : Call) : (t.call c).1.Sound := by
  cases c with
  | queue id r now => exact h.enqueue id r now
  | release id now => exact h.release id now
  | sweep now => exact h.sweep now

theorem Sound.run (h : t.Sound) (cs : List Call) : (t.run cs).1.Sound := by
  induction cs generalizing t with
  | nil => exact h
  | cons c cs ih => exact ih (h.call c)

theorem Reachable.sound (h : t.Reachable) : t.Sound := by
  obtain ⟨calls, hcalls⟩ := h
  rw [← hcalls]
  exact (sound_new t.config).run calls

/-! ## A cap moves at most once while its window lives -/

/-- A call that spares a transfer's window keeps it, and its cap moves as caps may. -/
theorem Sound.call_cap (h : t.Sound) {w : FlowWindow} (hw : t.get? id = some w) (c : Call)
    (hc : t.drops id c = false) :
    ∃ w', (t.call c).1.get? id = some w' ∧ FlowWindow.CapMoves t.config.maxCap w.cap w'.cap := by
  cases c with
  | queue id' r now =>
    by_cases hid : id = id'
    · subst hid
      exact ⟨(w.enqueue r now).1, by simp [WindowTable.call, enqueue_fst, get?_put, hw], .inl (by simp)⟩
    · exact ⟨w, by simp [WindowTable.call, enqueue_fst, get?_put, hid, hw], .refl _ _⟩
  | release id' now =>
    by_cases hid : id = id'
    · subst hid
      exact ⟨(w.release now).1, by simp [WindowTable.call, WindowTable.release, get?_put, hw],
        .inl (by simp)⟩
    · refine ⟨w, ?_, .refl _ _⟩
      simp only [WindowTable.call, WindowTable.release]
      split <;> simp [get?_put, hid, hw]
  | sweep now =>
    have hs : w.isStale now t.config.idleTimeout = false := by simpa [drops, hw] using hc
    exact ⟨_, get?_sweep_of_fresh hw hs, (h.settled _ (mem_of_get? hw)).grow_cap _⟩

theorem Sound.run_cap (h : t.Sound) {w : FlowWindow} (hw : t.get? id = some w) (cs : List Call)
    (hs : t.spares id cs = true) :
    ∃ w', (t.run cs).1.get? id = some w' ∧ FlowWindow.CapMoves t.config.maxCap w.cap w'.cap := by
  induction cs generalizing t w with
  | nil => exact ⟨w, hw, .refl _ _⟩
  | cons c cs ih =>
    simp only [spares, Bool.and_eq_true, Bool.not_eq_true'] at hs
    obtain ⟨w₁, hw₁, hm₁⟩ := h.call_cap hw c hs.1
    obtain ⟨w₂, hw₂, hm₂⟩ := ih (h.call c) hw₁ hs.2
    rw [config_call] at hm₂
    exact ⟨w₂, hw₂, hm₁.trans hm₂⟩

theorem one_le_toConfig_initialCap (s : WindowSettings) : 1 ≤ s.toConfig.initialCap :=
  Nat.le_max_right _ _

/-- The slot law and the caps of every reachable window table. Every window has at most its cap
in flight, and requests wait only while every slot is taken; so a sweep grows only a window whose
cap is zero, where the doubled cap is two. Over one life of a window its cap stays, or moves once
from zero to `min 2 maxCap`. With an initial cap of at least one, as window settings give, every
cap is the initial one and no window ever grows. -/
theorem window_slots_and_caps {t : WindowTable} (ht : t.Reachable) :
    (∀ p ∈ t.windows,
      p.2.inFlight ≤ p.2.cap ∧ (p.2.pending ≠ [] → p.2.inFlight = p.2.cap) ∧
      (p.2.Starved t.config.maxCap → p.2.cap = 0 ∧ max p.2.cap 1 * 2 = 2) ∧
      (1 ≤ t.config.initialCap → p.2.cap = t.config.initialCap ∧ ¬ p.2.Starved t.config.maxCap)) ∧
    (∀ (id : TransferId) (w : FlowWindow) (calls : List Call),
      t.get? id = some w → t.spares id calls = true →
      ∃ w', (t.run calls).1.get? id = some w' ∧
        (w'.cap = w.cap ∨ (w.cap = 0 ∧ w'.cap = min 2 t.config.maxCap ∧ 0 < w'.cap))) ∧
    (∀ s : WindowSettings, 1 ≤ s.toConfig.initialCap) := by
  have hs := ht.sound
  refine ⟨fun p hp => ?_, fun id w calls hw hsp => hs.run_cap hw calls hsp,
    one_le_toConfig_initialCap⟩
  have hset := hs.settled p hp
  have hzero : p.2.Starved t.config.maxCap → p.2.cap = 0 := hset.cap_eq_zero
  refine ⟨hset.inFlight_le, hset.full, fun hst => ⟨hzero hst, by simp [hzero hst]⟩, fun h1 => ?_⟩
  have hcap : p.2.cap = t.config.initialCap := by
    rcases hs.caps p hp with h' | ⟨h', -⟩
    · exact h'
    · omega
  exact ⟨hcap, fun hst => by have := hzero hst; omega⟩

/-- A window opened with a cap of zero: a sweep that finds its requests waiting grows it, once. -/
theorem window_cap_moves_once_from_zero :
    let t := (run { config := { initialCap := 0, maxCap := 4, idleTimeout := 10 } }
      [.queue ⟨0, 1⟩ ⟨0, 100⟩ 0, .queue ⟨0, 1⟩ ⟨100, 100⟩ 0]).1
    let w : FlowWindow := ⟨[⟨0, 100⟩, ⟨100, 100⟩], 0, 0, 0⟩
    t.Reachable ∧ t.get? ⟨0, 1⟩ = some w ∧ t.spares ⟨0, 1⟩ [.sweep 5] = true ∧
      ∃ w', (t.run [.sweep 5]).1.get? ⟨0, 1⟩ = some w' ∧
        (w'.cap = w.cap ∨ (w.cap = 0 ∧ w'.cap = min 2 t.config.maxCap ∧ 0 < w'.cap)) := by
  intro t w
  have ht : t.Reachable := ⟨_, rfl⟩
  have hw : t.get? ⟨0, 1⟩ = some w := by decide
  have hs : t.spares ⟨0, 1⟩ [.sweep 5] = true := by decide
  exact ⟨ht, hw, hs, (window_slots_and_caps ht).2.1 _ _ _ hw hs⟩

/-! ## Each transfer's requests leave its window in order -/

theorem Ordered.call (h : t.Ordered) (c : Call) : (t.call c).1.Ordered := by
  cases c with
  | queue id r now => exact h.enqueue id r now
  | release id now => exact h.release id now
  | sweep now => exact h.sweep now

@[simp] theorem requestsFor_append (id : TransferId) (a b : List (TransferId × ChunkRequest)) :
    requestsFor id (a ++ b) = requestsFor id a ++ requestsFor id b := by
  simp [requestsFor]

theorem requestsFor_map_ne {i : TransferId} (rs : List ChunkRequest) (h : i ≠ id) :
    requestsFor id (rs.map (i, ·)) = [] := by
  simp [requestsFor, List.filterMap_map, h]

@[simp] theorem queuedFor_nil (id : TransferId) : queuedFor id [] = [] := rfl

@[simp] theorem queuedFor_queue (id i : TransferId) (r : ChunkRequest) (now : Nat) :
    queuedFor id [.queue i r now] = if i = id then [r] else [] := by
  by_cases h : i = id <;> simp [queuedFor, Call.queued?, h]

@[simp] theorem queuedFor_release (id i : TransferId) (now : Nat) :
    queuedFor id [.release i now] = [] := rfl

@[simp] theorem queuedFor_sweep (id : TransferId) (now : Nat) : queuedFor id [.sweep now] = [] := rfl

theorem queuedFor_cons (id : TransferId) (c : Call) (cs : List Call) :
    queuedFor id (c :: cs) = queuedFor id [c] ++ queuedFor id cs := by
  simp only [queuedFor, List.filterMap_cons, List.filterMap_nil]
  cases c.queued? id <;> rfl

/-- A call that spares a transfer's window: what waited there, then what the call queues for the
transfer, is what the call hands on for it, then what waits. -/
theorem call_out (h : t.Ordered) (c : Call) (hc : t.drops id c = false) :
    t.pendingOf id ++ queuedFor id [c] = requestsFor id (t.call c).2 ++ (t.call c).1.pendingOf id := by
  cases c with
  | queue id' r now =>
    by_cases hid : id' = id
    · subst hid
      simpa [WindowTable.call, requestsFor_self] using (enqueue_out t id' r now).symm
    · simp [hid, WindowTable.call, requestsFor_map_ne _ hid, pendingOf_enqueue_ne t r now (Ne.symm hid)]
  | release id' now =>
    by_cases hid : id' = id
    · subst hid
      simpa [WindowTable.call, requestsFor_self] using (release_out t id' now).symm
    · simp [WindowTable.call, requestsFor_map_ne _ hid, pendingOf_release_ne t now (Ne.symm hid)]
  | sweep now =>
    -- the window is not stale, so the sweep keeps what waits there
    have hk : t.Keeps id now := fun w hw => .inl (by simpa [drops, hw] using hc)
    simpa [WindowTable.call] using (sweep_out h hk).symm

theorem run_out (h : t.Ordered) (cs : List Call) (hs : t.spares id cs = true) :
    t.pendingOf id ++ queuedFor id cs = requestsFor id (t.run cs).2 ++ (t.run cs).1.pendingOf id := by
  induction cs generalizing t with
  | nil => simp [requestsFor]
  | cons c cs ih =>
    simp only [spares, Bool.and_eq_true, Bool.not_eq_true'] at hs
    have hrest := ih (h.call c) hs.2
    calc t.pendingOf id ++ queuedFor id (c :: cs)
        = (t.pendingOf id ++ queuedFor id [c]) ++ queuedFor id cs := by
          rw [queuedFor_cons, List.append_assoc]
      _ = requestsFor id (t.call c).2 ++ ((t.call c).1.pendingOf id ++ queuedFor id cs) := by
          rw [call_out h c hs.1, List.append_assoc]
      _ = requestsFor id (t.run (c :: cs)).2 ++ (t.run (c :: cs)).1.pendingOf id := by
          rw [hrest, run_cons, requestsFor_append, List.append_assoc]

/-- A sweep that drops a transfer's window hands on none of its requests, and the window is gone. -/
theorem sweep_of_drops (h : t.Ordered) {now : Nat} (hd : t.drops id (.sweep now) = true) :
    requestsFor id (t.sweep now).2 = [] ∧ (t.sweep now).1.get? id = none := by
  obtain ⟨w, hw, hst⟩ : ∃ w, t.get? id = some w ∧ w.isStale now t.config.idleTimeout = true :=
    (Option.any_eq_true _ _).1 hd
  obtain ⟨as, bs, hl, has, hbs⟩ := h.split hw
  -- the stale window is filtered out, and no other window is the transfer's
  have hswept : swept t.config now t.windows = swept t.config now (as ++ bs) := by
    rw [hl]
    simp [swept, hst]
  have hno : ∀ y ∈ as ++ bs, y.1 ≠ id := fun y hy => (List.mem_append.1 hy).elim (has y) (hbs y)
  obtain ⟨h₁, h₂⟩ := swept_absent t.config now (as ++ bs) hno
  rw [sweep_eq, hswept]
  exact ⟨h₁, by simpa [get?] using h₂⟩

/-- The order of each transfer's requests in a reachable window table. Over a run of calls that
does not drop the transfer's window, what waited there, then the requests queued for the transfer,
are the requests handed on for it, in the order the calls return them, then what still waits; a
run from before the window is made covers a whole life of it. A sweep that drops the window hands
on none of its requests, and freeing a slot of a transfer without a window does nothing. -/
theorem window_requests_in_order {t : WindowTable} (ht : t.Reachable) (id : TransferId) :
    (∀ calls, t.spares id calls = true →
      t.pendingOf id ++ queuedFor id calls =
        requestsFor id (t.run calls).2 ++ (t.run calls).1.pendingOf id) ∧
    (∀ now, t.drops id (.sweep now) = true →
      requestsFor id (t.sweep now).2 = [] ∧ (t.sweep now).1.get? id = none) ∧
    (t.get? id = none → ∀ now, t.release id now = (t, [])) := by
  have ho := ht.sound.ordered
  refine ⟨fun calls hs => run_out ho calls hs, fun now hd => sweep_of_drops ho hd, fun hw now => ?_⟩
  simp [WindowTable.release, hw]

/-- Three requests into a window of two slots, then a slot freed, a fourth request and a sweep. -/
theorem window_hands_on_in_order :
    let t := (run { config := { initialCap := 2, maxCap := 4, idleTimeout := 10 } }
      [.queue ⟨0, 1⟩ ⟨0, 100⟩ 0, .queue ⟨0, 1⟩ ⟨100, 100⟩ 0, .queue ⟨0, 1⟩ ⟨200, 100⟩ 0]).1
    let calls : List Call := [.release ⟨0, 1⟩ 1, .queue ⟨0, 1⟩ ⟨300, 100⟩ 1, .sweep 5]
    t.Reachable ∧ t.spares ⟨0, 1⟩ calls = true ∧
      t.pendingOf ⟨0, 1⟩ ++ queuedFor ⟨0, 1⟩ calls =
        requestsFor ⟨0, 1⟩ (t.run calls).2 ++ (t.run calls).1.pendingOf ⟨0, 1⟩ := by
  intro t calls
  have ht : t.Reachable := ⟨_, rfl⟩
  have hs : t.spares ⟨0, 1⟩ calls = true := by decide
  exact ⟨ht, hs, (window_requests_in_order ht ⟨0, 1⟩).1 calls hs⟩

end WindowTable

end Courier
