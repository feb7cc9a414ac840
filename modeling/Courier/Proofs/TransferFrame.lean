-- What one job of the transfer engine does to one transfer: a job about another leaves it alone, and
-- a job about it does the same from any two engines that agree on it.
import Courier.Transfer.Engine

namespace Courier.Transfer

open Files

/-! ## The transfer a job is about -/

/-- The transfer a file event is about. -/
def FileEvent.id : FileEvent → TransferId
  | .offered id _ _ | .control id _ | .pull id _ | .chunk id _ _ | .failed id _ => id

/-- The transfer a job is about. -/
def Work.id : Work → TransferId
  | .create id _ _ => id
  | .event ev => ev.id

/-- The events a transfer that is not open yet holds: controls and pulls. -/
def FileEvent.holdable : FileEvent → Bool
  | .control .. | .pull .. => true
  | _ => false

/-- The one event that opens a transfer: an offer. -/
def FileEvent.isOffer : FileEvent → Bool
  | .offered .. => true
  | _ => false

/-- The calls made for one transfer so far, in order. -/
def Desk.callsFor (d : Desk) (id : TransferId) : List Call := d.calls.toList.filter (·.id == id)

/-- One transfer as an engine and its desk show it: its state, if it is open, and the calls made
for it. -/
def Engine.view (e : Engine) (d : Desk) (id : TransferId) : Option Ongoing × List Call :=
  (e.find? id, d.callsFor id)

/-- Every held event is held for the transfer it is about. -/
def Engine.HeldTagged (e : Engine) : Prop := ∀ h ∈ e.held, ∀ ev ∈ h.events, ev.id = h.id

/-- No events are held for a transfer. -/
def Engine.NoneHeld (e : Engine) (id : TransferId) : Prop := ∀ h ∈ e.held, h.id ≠ id

/-! ## The table of open transfers -/

theorem TransferId.key_injective {a b : TransferId} (h : a.key = b.key) : a = b := by
  obtain ⟨p, f⟩ := a
  obtain ⟨q, g⟩ := b
  have hf : f.toNat < 4294967296 := UInt32.toNat_lt f
  have hg : g.toNat < 4294967296 := UInt32.toNat_lt g
  simp only [TransferId.key, show Nat.pow 2 32 = 4294967296 from rfl] at h
  have hpq : p.toNat = q.toNat := by omega
  have hfg : f.toNat = g.toNat := by omega
  simp [UInt32.toNat_inj.mp hpq, UInt32.toNat_inj.mp hfg]

theorem find?_filter_of_agree {l : List (TransferId × α)} {q : TransferId × α → Bool}
    {id : TransferId} {c : Bool} (hq : ∀ x ∈ l, x.1 = id → q x = c) :
    (l.filter q).find? (·.1 == id) = if c then l.find? (·.1 == id) else none := by
  induction l with
  | nil => simp
  | cons x xs ih =>
    have ih := ih fun y hy => hq y (List.mem_cons_of_mem _ hy)
    rw [List.filter_cons]
    by_cases hx : x.1 = id
    · have hqx := hq x List.mem_cons_self hx
      cases c <;> simp [hqx, hx, ih]
    · by_cases hqx : q x = true <;> simp [hqx, hx, ih]

theorem find?_filter_ne (l : List (TransferId × α)) {id id' : TransferId} (h : id' ≠ id) :
    (l.filter (·.1 != id')).find? (·.1 == id) = l.find? (·.1 == id) := by
  have hne : ∀ x ∈ l, x.1 = id → (x.1 != id') = true := by
    intro x _ he; simp [he, Ne.symm h]
  rw [find?_filter_of_agree hne, if_pos rfl]

/-- A table in order of key with `(id, a)` put in its place, as both the transfer table and the
window table are kept: looking `id` up finds it, and any other transfer finds what it found
before. -/
theorem find?_putKeyed (l : List (TransferId × α)) (id id' : TransferId) (a : α) :
    ((l.filter (·.1 != id)).filter (·.1.key < id.key) ++ [(id, a)] ++
      (l.filter (·.1 != id)).filter (·.1.key > id.key)).find? (·.1 == id') =
      if id' = id then some (id, a) else l.find? (·.1 == id') := by
  by_cases h : id' = id
  · subst h
    have hlt : ∀ x ∈ l.filter (·.1 != id'), x.1 = id' → decide (x.1.key < id'.key) = false := by
      intro x hx he
      simp [List.mem_filter, he] at hx
    rw [List.find?_append, List.find?_append, find?_filter_of_agree hlt]
    simp
  · -- the other transfer is on one side of `id`, where the table kept its entries in order
    have hkey : id'.key ≠ id.key := fun he => h (TransferId.key_injective he)
    have hlt : ∀ x ∈ l.filter (·.1 != id), x.1 = id' →
        decide (x.1.key < id.key) = decide (id'.key < id.key) := by
      intro x _ he; rw [he]
    have hgt : ∀ x ∈ l.filter (·.1 != id), x.1 = id' →
        decide (x.1.key > id.key) = decide (id'.key > id.key) := by
      intro x _ he; rw [he]
    have hmid : [(id, a)].find? (·.1 == id') = none := by simp [Ne.symm h]
    rw [List.find?_append, List.find?_append, find?_filter_of_agree hlt, find?_filter_of_agree hgt,
      hmid, find?_filter_ne _ (Ne.symm h), if_neg h]
    rcases Nat.lt_or_gt_of_ne hkey with hk | hk
    · simp [hk, Nat.lt_asymm hk]
    · simp [hk, Nat.lt_asymm hk]

namespace Engine

@[simp] theorem find?_insert_self (e : Engine) (id : TransferId) (t : Ongoing) :
    (e.insert id t).find? id = some t := by
  unfold find? Engine.insert
  rw [find?_putKeyed, if_pos rfl]
  rfl

@[simp] theorem find?_insert_ne (e : Engine) {id id' : TransferId} (t : Ongoing) (h : id' ≠ id) :
    (e.insert id' t).find? id = e.find? id := by
  unfold find? Engine.insert
  rw [find?_putKeyed, if_neg (Ne.symm h)]

@[simp] theorem find?_erase_self (e : Engine) (id : TransferId) : (e.erase id).find? id = none := by
  simp [Engine.erase, find?]

@[simp] theorem find?_erase_ne (e : Engine) {id id' : TransferId} (h : id' ≠ id) :
    (e.erase id').find? id = e.find? id := by
  unfold find? Engine.erase
  rw [find?_filter_ne _ h]

@[simp] theorem hold_transfers (e : Engine) (now : Nat) (id : TransferId) (ev : FileEvent) :
    (e.hold now id ev).transfers = e.transfers := by
  unfold hold
  dsimp only
  split
  · rfl
  · split <;> rfl

@[simp] theorem find?_hold (e : Engine) (now : Nat) (id' id : TransferId) (ev : FileEvent) :
    (e.hold now id' ev).find? id = e.find? id := by
  simp only [find?, hold_transfers]

@[simp] theorem find?_takeHeld (e : Engine) (id' id : TransferId) :
    (e.takeHeld id').1.find? id = e.find? id := rfl

@[simp] theorem insert_held (e : Engine) (id : TransferId) (t : Ongoing) :
    (e.insert id t).held = e.held := rfl

@[simp] theorem erase_held (e : Engine) (id : TransferId) : (e.erase id).held = e.held := rfl

end Engine

/-! ## Calls and turns -/

namespace Desk

@[simp] theorem call_breaks (d : Desk) (c : Call) : (d.call c).1.breaks = d.breaks := by
  unfold call; split <;> rfl

@[simp] theorem call_volume (d : Desk) (c : Call) : (d.call c).1.volume = d.volume := by
  unfold call; split <;> rfl

@[simp] theorem call_ok (d : Desk) (c : Call) : (d.call c).2 = !d.breaks c := by
  unfold call; split <;> simp_all

@[simp] theorem callsFor_call (d : Desk) (c : Call) (id : TransferId) :
    (d.call c).1.callsFor id = d.callsFor id ++ (if d.breaks c then [] else [c].filter (·.id == id)) := by
  unfold call callsFor; split <;> simp

@[simp] theorem callsFor_setVolume (d : Desk) (v : Volume) (id : TransferId) :
    ({ d with volume := v } : Desk).callsFor id = d.callsFor id := rfl

@[simp] theorem callsFor_setClock (d : Desk) (now : Nat) (id : TransferId) :
    ({ d with clock := now } : Desk).callsFor id = d.callsFor id := rfl

end Desk

namespace Engine

@[simp] theorem keep_engine (e : Engine) (d : Desk) : (e.keep d).engine = e := rfl
@[simp] theorem keep_desk (e : Engine) (d : Desk) : (e.keep d).desk = d := rfl
@[simp] theorem keep_whole (e : Engine) (d : Desk) : (e.keep d).whole = true := rfl
@[simp] theorem calling_engine (e : Engine) (d : Desk) (c : Call) : (e.calling d c).engine = e := rfl
@[simp] theorem calling_desk (e : Engine) (d : Desk) (c : Call) :
    (e.calling d c).desk = (d.call c).1 := rfl
@[simp] theorem calling_whole (e : Engine) (d : Desk) (c : Call) :
    (e.calling d c).whole = !d.breaks c := by
  simp [calling]

end Engine

/-! ## The held events -/

namespace Engine

variable {e : Engine} {d : Desk} {id : TransferId}

theorem hold_heldTagged (h : e.HeldTagged) (now : Nat) {ev : FileEvent} (hev : ev.id = id) :
    (e.hold now id ev).HeldTagged := by
  have live : ∀ g ∈ e.held.filter (fun g => now - g.since < heldFor), ∀ x ∈ g.events, x.id = g.id :=
    fun g hg => h g (List.mem_filter.mp hg).1
  unfold hold
  dsimp only
  split
  · exact live
  · split
    · intro g hg x hx
      obtain ⟨g', hg', rfl⟩ := List.mem_map.mp hg
      by_cases hid : g'.id = id
      · simp only [hid, beq_self_eq_true, if_true, List.mem_append, List.mem_singleton] at hx ⊢
        rcases hx with hx | rfl
        · exact (live g' hg' x hx).trans hid
        · exact hev
      · simp only [beq_iff_eq, hid, if_false] at hx ⊢
        exact live g' hg' x hx
    · intro g hg x hx
      rcases List.mem_append.mp hg with hg | hg
      · exact live g hg x hx
      · simp only [List.mem_singleton] at hg
        subst hg
        simp only [List.mem_singleton] at hx
        subst hx
        exact hev

theorem takeHeld_heldTagged (h : e.HeldTagged) (id : TransferId) : (e.takeHeld id).1.HeldTagged :=
  fun g hg => h g (List.mem_filter.mp hg).1

theorem takeHeld_about (h : e.HeldTagged) (id : TransferId) :
    ∀ ev ∈ (e.takeHeld id).2, ev.id = id := by
  intro ev hev
  simp only [takeHeld] at hev
  rcases hf : e.held.find? (·.id == id) with _ | g
  · simp [hf] at hev
  · rw [hf] at hev
    have hg := List.mem_of_find?_eq_some hf
    have hgid : g.id = id := by simpa using List.find?_some hf
    exact (h g hg ev hev).trans hgid

theorem takeHeld_of_noneHeld (h : e.NoneHeld id) : (e.takeHeld id).2 = [] := by
  have hnone : e.held.find? (·.id == id) = none := by
    rw [List.find?_eq_none]
    intro g hg
    simpa using h g hg
  simp [takeHeld, hnone]

theorem hold_noneHeld (h : e.NoneHeld id) (now : Nat) {id' : TransferId} (hne : id' ≠ id)
    (ev : FileEvent) : (e.hold now id' ev).NoneHeld id := by
  have live : ∀ g ∈ e.held.filter (fun g => now - g.since < heldFor), g.id ≠ id :=
    fun g hg => h g (List.mem_filter.mp hg).1
  unfold hold
  dsimp only
  split
  · exact live
  · split
    · intro g hg
      obtain ⟨g', hg', rfl⟩ := List.mem_map.mp hg
      split <;> exact live g' hg'
    · intro g hg
      rcases List.mem_append.mp hg with hg | hg
      · exact live g hg
      · simp only [List.mem_singleton] at hg
        subst hg
        exact hne

theorem takeHeld_noneHeld (h : e.NoneHeld id) (id' : TransferId) : (e.takeHeld id').1.NoneHeld id :=
  fun g hg => h g (List.mem_filter.mp hg).1

end Engine

/-! ## What one event can do -/

/-- A sending transfer opens paused, a receiving one active; both on the file they are given. -/
@[simp] theorem Ongoing.direction_outbound (ino size : Nat) (path : String) :
    (Ongoing.outbound ino size path).direction = .outbound := rfl

@[simp] theorem Ongoing.activity_outbound (ino size : Nat) (path : String) :
    (Ongoing.outbound ino size path).activity = .paused := rfl

@[simp] theorem Ongoing.inode_outbound (ino size : Nat) (path : String) :
    (Ongoing.outbound ino size path).inode = ino := rfl

@[simp] theorem Ongoing.path_outbound (ino size : Nat) (path : String) :
    (Ongoing.outbound ino size path).path = path := rfl

@[simp] theorem Ongoing.direction_inbound (ino size : Nat) (path : String) :
    (Ongoing.inbound ino size path).direction = .inbound := rfl

@[simp] theorem Ongoing.activity_inbound (ino size : Nat) (path : String) :
    (Ongoing.inbound ino size path).activity = .active := rfl

@[simp] theorem Ongoing.inode_inbound (ino size : Nat) (path : String) :
    (Ongoing.inbound ino size path).inode = ino := rfl

@[simp] theorem Ongoing.path_inbound (ino size : Nat) (path : String) :
    (Ongoing.inbound ino size path).path = path := rfl

@[simp] theorem Ongoing.inode_readChunk (t : Ongoing) (v : Volume) (r : ChunkRequest) :
    ({ t with file := (t.file.readChunk v r).1 } : Ongoing).inode = t.inode :=
  FileState.readChunk_inode v t.file r

@[simp] theorem Ongoing.inode_writeChunk (t : Ongoing) (v : Volume) (o : Nat) (data : ByteArray) :
    ({ t with file := (t.file.writeChunk v o data).1.2 } : Ongoing).inode = t.inode :=
  FileState.writeChunk_inode v t.file o data

/-- The same transfer of the same file, perhaps with another activity or progress. -/
def Ongoing.SameFile (t' t : Ongoing) : Prop :=
  t'.direction = t.direction ∧ t'.inode = t.inode ∧ t'.path = t.path

/-- What a file event can do to the engine: leave it, hold the event, drop the event's own
transfer, change the activity or progress of that transfer, or (an offer only) open it. -/
inductive Touch (e : Engine) (ev : FileEvent) : Engine → Prop
  | keep : Touch e ev e
  | hold (now : Nat) : Touch e ev (e.hold now ev.id ev)
  | erase : Touch e ev (e.erase ev.id)
  | update (t t' : Ongoing) (h : e.find? ev.id = some t) (same : t'.SameFile t) :
      Touch e ev (e.insert ev.id t')
  | open (t : Ongoing) (h : ev.isOffer = true) : Touch e ev (e.insert ev.id t)

/-- What a file event can do to the desk: change the volume, and make a call for the event's own
transfer; the job runs to its end unless that call breaks down. -/
def Outcome (d : Desk) (ev : FileEvent) (t : Turn) : Prop :=
  ∃ v : Volume, (t.desk = { d with volume := v } ∧ t.whole = true) ∨
    ∃ c : Call, c.id = ev.id ∧ t.desk = (({ d with volume := v } : Desk).call c).1 ∧
      t.whole = !d.breaks c

theorem Outcome.keep (e : Engine) (d : Desk) (ev : FileEvent) : Outcome d ev (e.keep d) :=
  ⟨d.volume, .inl ⟨rfl, rfl⟩⟩

theorem Outcome.calling (e : Engine) (d : Desk) {ev : FileEvent} {c : Call} (h : c.id = ev.id) :
    Outcome d ev (e.calling d c) :=
  ⟨d.volume, .inr ⟨c, h, rfl, by simp⟩⟩

namespace Engine

theorem offered_touch (e : Engine) (d : Desk) (id : TransferId) (name : String) (size : Nat) :
    Touch e (.offered id name size) (e.offered d id name size).engine ∧
      Outcome d (.offered id name size) (e.offered d id name size) := by
  unfold offered
  split
  · exact ⟨.keep, .calling e d rfl⟩
  · split
    · exact ⟨.keep, .keep e d _⟩
    · dsimp only
      split
      · exact ⟨.open _ rfl, _, .inr ⟨_, rfl, rfl, by simp⟩⟩
      · exact ⟨.keep, .calling e d rfl⟩

theorem control_touch (e : Engine) (d : Desk) (id : TransferId) (c : FileControl) :
    Touch e (.control id c) (e.control d id c).engine ∧
      Outcome d (.control id c) (e.control d id c) := by
  unfold control
  rcases ht : e.find? id with _ | t
  · exact ⟨.hold _, .keep _ d _⟩
  · cases c
    · exact ⟨.update t _ ht ⟨rfl, rfl, rfl⟩, .keep _ d _⟩
    · exact ⟨.update t _ ht ⟨rfl, rfl, rfl⟩, .keep _ d _⟩
    · exact ⟨.erase, .keep _ d _⟩

theorem pull_touch (e : Engine) (d : Desk) (id : TransferId) (r : ChunkRequest) :
    Touch e (.pull id r) (e.pull d id r).engine ∧ Outcome d (.pull id r) (e.pull d id r) := by
  unfold pull
  rcases ht : e.find? id with _ | t
  · exact ⟨.hold _, .keep _ d _⟩
  · dsimp only
    split
    · exact ⟨.keep, .keep e d _⟩
    · split
      · exact ⟨.erase, .keep _ d _⟩
      · split
        · exact ⟨.update t _ ht ⟨rfl, by simp, rfl⟩, .calling _ d rfl⟩
        · exact ⟨.update t _ ht ⟨rfl, by simp, rfl⟩, .keep _ d _⟩

theorem chunk_touch (e : Engine) (d : Desk) (id : TransferId) (offset : Nat) (data : ByteArray) :
    Touch e (.chunk id offset data) (e.chunk d id offset data).engine ∧
      Outcome d (.chunk id offset data) (e.chunk d id offset data) := by
  unfold chunk
  rcases ht : e.find? id with _ | t
  · exact ⟨.keep, .keep e d _⟩
  · dsimp only
    split
    · exact ⟨.keep, .keep e d _⟩
    · split
      · exact ⟨.erase, .keep _ d _⟩
      · split
        · exact ⟨.update t _ ht ⟨rfl, by simp, rfl⟩, _, .inl ⟨rfl, rfl⟩⟩
        · exact ⟨.update t _ ht ⟨rfl, by simp, rfl⟩, .keep _ d _⟩

/-- Every file event touches only its own transfer. -/
theorem handle_touch (e : Engine) (d : Desk) (ev : FileEvent) :
    Touch e ev (e.handle d ev).engine ∧ Outcome d ev (e.handle d ev) := by
  cases ev with
  | offered id name size => exact offered_touch e d id name size
  | control id c => exact control_touch e d id c
  | pull id r => exact pull_touch e d id r
  | chunk id offset data => exact chunk_touch e d id offset data
  | failed id err => exact ⟨.erase, .keep _ d _⟩

end Engine

/-! ## A job about another transfer -/

namespace Touch

variable {e e' : Engine} {ev : FileEvent} {id : TransferId}

theorem find?_of_ne (h : Touch e ev e') (hne : ev.id ≠ id) : e'.find? id = e.find? id := by
  cases h with
  | keep => rfl
  | hold now => exact Engine.find?_hold e now ev.id id ev
  | erase => exact Engine.find?_erase_ne e hne
  | update t t' _ _ => exact Engine.find?_insert_ne e t' hne
  | «open» t _ => exact Engine.find?_insert_ne e t hne

theorem heldTagged (h : Touch e ev e') (tag : e.HeldTagged) : e'.HeldTagged := by
  cases h with
  | hold now => exact Engine.hold_heldTagged tag now rfl
  | _ => exact tag

theorem noneHeld (h : Touch e ev e') (hn : e.NoneHeld id) (hne : ev.id ≠ id) : e'.NoneHeld id := by
  cases h with
  | hold now => exact Engine.hold_noneHeld hn now hne ev
  | _ => exact hn

end Touch

namespace Outcome

variable {d : Desk} {ev : FileEvent} {t : Turn} {id : TransferId}

theorem breaks (h : Outcome d ev t) : t.desk.breaks = d.breaks := by
  obtain ⟨v, ⟨hd, -⟩ | ⟨c, -, hd, -⟩⟩ := h <;> simp [hd]

theorem callsFor_of_ne (h : Outcome d ev t) (hne : ev.id ≠ id) :
    t.desk.callsFor id = d.callsFor id := by
  obtain ⟨v, ⟨hd, -⟩ | ⟨c, hc, hd, -⟩⟩ := h
  · rw [hd]; rfl
  · rw [hd]; simp [hc, hne]

/-- A job runs to its end when no call for its transfer breaks down. -/
theorem whole (h : Outcome d ev t) (sure : ∀ c, c.id = ev.id → d.breaks c = false) :
    t.whole = true := by
  obtain ⟨v, ⟨-, hw⟩ | ⟨c, hc, -, hw⟩⟩ := h
  · exact hw
  · simp [hw, sure c hc]

end Outcome

namespace Engine

variable {e : Engine} {d : Desk} {id : TransferId}

theorem handle_view_of_ne (e : Engine) (d : Desk) {ev : FileEvent} (h : ev.id ≠ id) :
    (e.handle d ev).engine.view (e.handle d ev).desk id = e.view d id := by
  obtain ⟨he, hd⟩ := handle_touch e d ev
  simp only [view, he.find?_of_ne h, hd.callsFor_of_ne h]

theorem handle_heldTagged (h : e.HeldTagged) (d : Desk) (ev : FileEvent) :
    (e.handle d ev).engine.HeldTagged :=
  (handle_touch e d ev).1.heldTagged h

theorem handle_noneHeld (h : e.NoneHeld id) (d : Desk) {ev : FileEvent} (hne : ev.id ≠ id) :
    (e.handle d ev).engine.NoneHeld id :=
  (handle_touch e d ev).1.noneHeld h hne

@[simp] theorem handle_breaks (e : Engine) (d : Desk) (ev : FileEvent) :
    (e.handle d ev).desk.breaks = d.breaks :=
  (handle_touch e d ev).2.breaks

theorem replay_view_of_ne (d : Desk) (evs : List FileEvent) (e : Engine)
    (h : ∀ ev ∈ evs, ev.id ≠ id) :
    (replay d evs e).engine.view (replay d evs e).desk id = e.view d id := by
  induction evs generalizing d e with
  | nil => rfl
  | cons ev rest ih =>
    have hev := h ev List.mem_cons_self
    have hrest := fun x hx => h x (List.mem_cons_of_mem _ hx)
    simp only [replay]
    split
    · rw [ih _ _ hrest, handle_view_of_ne e d hev]
    · exact handle_view_of_ne e d hev

theorem replay_heldTagged (d : Desk) (evs : List FileEvent) (h : e.HeldTagged) :
    (replay d evs e).engine.HeldTagged := by
  induction evs generalizing d e with
  | nil => exact h
  | cons ev rest ih =>
    simp only [replay]
    split
    · exact ih _ (handle_heldTagged h d ev)
    · exact handle_heldTagged h d ev

theorem replay_noneHeld (d : Desk) (evs : List FileEvent) (h : e.NoneHeld id)
    (hne : ∀ ev ∈ evs, ev.id ≠ id) : (replay d evs e).engine.NoneHeld id := by
  induction evs generalizing d e with
  | nil => exact h
  | cons ev rest ih =>
    have hev := hne ev List.mem_cons_self
    simp only [replay]
    split
    · exact ih _ (handle_noneHeld h d hev) fun x hx => hne x (List.mem_cons_of_mem _ hx)
    · exact handle_noneHeld h d hev

@[simp] theorem replay_breaks (d : Desk) (evs : List FileEvent) (e : Engine) :
    (replay d evs e).desk.breaks = d.breaks := by
  induction evs generalizing d e with
  | nil => rfl
  | cons ev rest ih =>
    simp only [replay]
    split
    · rw [ih, handle_breaks]
    · exact handle_breaks e d ev

theorem register_view_of_ne (tag : e.HeldTagged) (d : Desk) {id' : TransferId} (path : String)
    (size : Nat) (h : id' ≠ id) :
    (e.register d id' path size).engine.view (e.register d id' path size).desk id = e.view d id := by
  unfold register
  split
  · rfl
  · dsimp only
    split
    · rw [replay_view_of_ne _ _ _ fun ev hev => fun he => h ((takeHeld_about tag id' ev hev).symm.trans he)]
      simp [view, h]
    · rfl

theorem register_heldTagged (tag : e.HeldTagged) (d : Desk) (id : TransferId) (path : String)
    (size : Nat) : (e.register d id path size).engine.HeldTagged := by
  unfold register
  split
  · exact tag
  · dsimp only
    split
    · exact replay_heldTagged _ _ (takeHeld_heldTagged tag id)
    · exact takeHeld_heldTagged tag id

theorem register_noneHeld (tag : e.HeldTagged) (hn : e.NoneHeld id) (d : Desk) {id' : TransferId}
    (path : String) (size : Nat) (h : id' ≠ id) : (e.register d id' path size).engine.NoneHeld id := by
  unfold register
  split
  · exact hn
  · dsimp only
    split
    · exact replay_noneHeld _ _ (takeHeld_noneHeld hn id')
        fun ev hev => fun he => h ((takeHeld_about tag id' ev hev).symm.trans he)
    · exact takeHeld_noneHeld hn id'

@[simp] theorem register_breaks (e : Engine) (d : Desk) (id : TransferId) (path : String)
    (size : Nat) : (e.register d id path size).desk.breaks = d.breaks := by
  unfold register
  split
  · rfl
  · dsimp only
    split
    · exact replay_breaks _ _ _
    · rfl

theorem work_view_of_ne (tag : e.HeldTagged) (d : Desk) {w : Work} (h : w.id ≠ id) :
    (e.work d w).engine.view (e.work d w).desk id = e.view d id := by
  cases w with
  | create id' path size => exact register_view_of_ne tag d path size h
  | event ev => exact handle_view_of_ne e d h

theorem work_heldTagged (tag : e.HeldTagged) (d : Desk) (w : Work) : (e.work d w).engine.HeldTagged := by
  cases w with
  | create id' path size => exact register_heldTagged tag d id' path size
  | event ev => exact handle_heldTagged tag d ev

theorem work_noneHeld (tag : e.HeldTagged) (hn : e.NoneHeld id) (d : Desk) {w : Work} (h : w.id ≠ id) :
    (e.work d w).engine.NoneHeld id := by
  cases w with
  | create id' path size => exact register_noneHeld tag hn d path size h
  | event ev => exact handle_noneHeld hn d h

@[simp] theorem work_breaks (e : Engine) (d : Desk) (w : Work) : (e.work d w).desk.breaks = d.breaks := by
  cases w with
  | create id' path size => exact register_breaks e d id' path size
  | event ev => exact handle_breaks e d ev

/-- A file event runs to its end when no call for its transfer breaks down. -/
theorem handle_whole (e : Engine) {d : Desk} {ev : FileEvent}
    (sure : ∀ c, c.id = ev.id → d.breaks c = false) : (e.handle d ev).whole = true :=
  (handle_touch e d ev).2.whole sure

end Engine

/-! ## A job about the transfer itself -/

end Courier.Transfer

namespace Courier.Files

/-- A read depends only on the bytes of the file read. -/
theorem Volume.readAt_congr {v₁ v₂ : Volume} {n : Nat} (h : v₁.blob n = v₂.blob n)
    (offset length : Nat) : v₁.readAt n offset length = v₂.readAt n offset length := by
  simp only [Volume.readAt, h]

end Courier.Files

namespace Courier.Transfer

open Files

namespace Engine

variable {e₁ e₂ : Engine} {d₁ d₂ : Desk} {id : TransferId}

/-- Two engines that agree on a transfer, with the same bytes in its file and the same calls that
break down, agree on it after a control, pull, chunk or file error about it. -/
theorem handle_view_congr (d₁ d₂ : Desk) {ev : FileEvent} (hoff : ev.isOffer = false)
    (hv : e₁.view d₁ ev.id = e₂.view d₂ ev.id)
    (hblob : ∀ t, e₁.find? ev.id = some t → d₁.volume.blob t.inode = d₂.volume.blob t.inode)
    (hb : d₁.breaks = d₂.breaks) :
    (e₁.handle d₁ ev).engine.view (e₁.handle d₁ ev).desk ev.id =
      (e₂.handle d₂ ev).engine.view (e₂.handle d₂ ev).desk ev.id := by
  have hf : e₁.find? ev.id = e₂.find? ev.id := congrArg Prod.fst hv
  have hc : d₁.callsFor ev.id = d₂.callsFor ev.id := congrArg Prod.snd hv
  cases ev with
  | offered id name size => simp [FileEvent.isOffer] at hoff
  | control id c =>
    simp only [FileEvent.id] at hf hc ⊢
    rcases ht : e₂.find? id with _ | t
    · simp [handle, control, view, hf, hc, ht]
    · simp only [handle, control, hf, ht]
      cases c <;> simp [view, hc]
  | pull id r =>
    simp only [FileEvent.id] at hf hc hblob ⊢
    rcases ht : e₂.find? id with _ | t
    · simp [handle, pull, view, hf, hc, ht]
    · have hr := Volume.readAt_congr (hblob t (hf.trans ht)) r.offset r.length
      have hread := FileState.readChunk_congr t.file r (hblob t (hf.trans ht))
      simp only [handle, pull, hf, ht, hr]
      split
      · simp [view, hf, ht, hc]
      · split
        · simp [view, hc]
        · split <;> simp [view, hc, hb, hread]
  | chunk id offset data =>
    simp only [FileEvent.id] at hf hc ⊢
    rcases ht : e₂.find? id with _ | t
    · simp [handle, chunk, view, hf, hc, ht]
    · simp only [handle, chunk, hf, ht]
      split
      · simp [view, hf, ht, hc]
      · split
        · simp [view, hc]
        · have hwrite := FileState.writeChunk_file_volume d₁.volume d₂.volume t.file offset data
          simp only [Volume.writeAt]
          by_cases h₁ : offset > maxOffset
          · simp [h₁, view, hc, hwrite]
          · by_cases h₂ : offset + data.size > maxOffset <;> simp [h₁, h₂, view, hc, hwrite]
  | failed id err =>
    simp only [FileEvent.id] at hc ⊢
    simp [handle, view, hc]

end Engine

end Courier.Transfer
