-- What the engine does with the events of a transfer that goes well, one event at a time, and how
-- the events held for a transfer not open yet stay while it works on others.
import Courier.Proofs.HeldReplay
import Courier.Proofs.VolumeWrites

namespace Courier.Transfer

open Files

namespace Engine

variable {e : Engine} {d : Desk} {id : TransferId} {t : Ongoing}

/-! ## One event of an open transfer -/

theorem handle_resume (h : e.find? id = some t) :
    e.handle d (.control id .resume) = (e.insert id { t with activity := .active }).keep d := by
  simp [handle, control, h]

/-- A pull within the file of an active outgoing transfer sends the bytes asked for. -/
theorem handle_pull_within (h : e.find? id = some t) (hout : t.direction = .outbound)
    (hact : t.activity = .active) {r : ChunkRequest} (hlen : r.length ≠ 0) (hmax : r.offset ≤ maxOffset)
    (hfit : r.offset + r.length ≤ (d.volume.blob t.inode).size) :
    e.handle d (.pull id r) =
      (e.insert id { t with file := (t.file.readChunk d.volume r).1 }).calling d
        (.chunk id r.offset ((d.volume.blob t.inode).extract r.offset (r.offset + r.length))) := by
  simp [handle, pull, h, hout, hact, hlen, Volume.readAt_within _ hmax hfit]

/-- A pull of length zero closes an active outgoing transfer. -/
theorem handle_pull_end (h : e.find? id = some t) (hout : t.direction = .outbound)
    (hact : t.activity = .active) {r : ChunkRequest} (hlen : r.length = 0) :
    e.handle d (.pull id r) = (e.erase id).keep d := by
  simp [handle, pull, h, hout, hact, hlen]

/-- An offer with a usable name, for a transfer not open yet, opens it on a new file in the
receive directory and resumes it. -/
theorem handle_offered {name nm : String} {size ino : Nat} {v : Volume} (hn : sanitizeName name = some nm)
    (h : e.find? id = none) (hc : d.volume.createFile (join e.receiveDir nm) = .ok (v, ino)) :
    e.handle d (.offered id name size) =
      (e.insert id (.inbound ino size (join e.receiveDir nm))).calling
        { d with volume := v } (.control id .resume) := by
  simp [handle, offered, hn, h, hc]

/-- A chunk of an active incoming transfer is written into its file. -/
theorem handle_chunk_write (h : e.find? id = some t) (hin : t.direction = .inbound)
    (hact : t.activity = .active) {o : Nat} {data : ByteArray} {v : Volume} (hz : data.size ≠ 0)
    (hw : d.volume.writeAt t.inode o data = .ok v) :
    e.handle d (.chunk id o data) =
      (e.insert id { t with file := (t.file.writeChunk d.volume o data).1.2 }).keep { d with volume := v } := by
  simp [handle, chunk, h, hin, hact, hz, hw]

/-- An empty chunk closes an active incoming transfer. -/
theorem handle_chunk_end (h : e.find? id = some t) (hin : t.direction = .inbound)
    (hact : t.activity = .active) {o : Nat} {data : ByteArray} (hz : data.size = 0) :
    e.handle d (.chunk id o data) = (e.erase id).keep d := by
  simp [handle, chunk, h, hin, hact, hz]

/-- A control or pull for a transfer that is not open is held. -/
theorem handle_of_closed {ev : FileEvent} (hh : ev.holdable = true) (hn : e.find? ev.id = none) :
    e.handle d ev = (e.hold d.clock ev.id ev).keep d := by
  cases ev with
  | control id c => simp only [FileEvent.id] at hn ⊢; simp [handle, control, hn]
  | pull id r => simp only [FileEvent.id] at hn ⊢; simp [handle, pull, hn]
  | _ => simp [FileEvent.holdable] at hh

/-! ## The clock -/

theorem Outcome.clock {ev : FileEvent} {u : Turn} (h : Outcome d ev u) : u.desk.clock = d.clock := by
  obtain ⟨v, ⟨hd, -⟩ | ⟨c, -, hd, -⟩⟩ := h
  · rw [hd]
  · rw [hd]; unfold Desk.call; split <;> rfl

@[simp] theorem handle_clock (e : Engine) (d : Desk) (ev : FileEvent) :
    (e.handle d ev).desk.clock = d.clock :=
  Outcome.clock (handle_touch e d ev).2

@[simp] theorem replay_clock (d : Desk) (evs : List FileEvent) (e : Engine) :
    (replay d evs e).desk.clock = d.clock := by
  induction evs generalizing d e with
  | nil => rfl
  | cons ev rest ih =>
    simp only [replay]
    split
    · rw [ih, handle_clock]
    · exact handle_clock e d ev

/-! ## Held events -/

/-- How many events the engine holds. -/
def heldCount (e : Engine) : Nat := e.held.foldl (fun n h => n + h.events.length) 0

/-- The groups held for a transfer are young at `now`: none of them is dropped by a hold then. -/
def Young (e : Engine) (id : TransferId) (now : Nat) : Prop :=
  ∀ h ∈ e.held, h.id = id → now - h.since < heldFor

theorem takeHeld_snd_congr {e' : Engine} (h : e'.held = e.held) (id : TransferId) :
    (e'.takeHeld id).2 = (e.takeHeld id).2 := by
  simp [takeHeld, h]

theorem Young.of_held {e' : Engine} {now : Nat} (hy : e.Young id now) (h : e'.held = e.held) :
    e'.Young id now := by
  rw [Young, h]
  exact hy

theorem find?_live {now : Nat} (hy : e.Young id now) :
    (e.held.filter fun h => now - h.since < heldFor).find? (·.id == id) = e.held.find? (·.id == id) := by
  rw [List.find?_filter]
  apply List.find?_congr
  intro h hh
  by_cases hid : h.id = id
  · simp [hid, hy h hh hid]
  · simp [hid]

theorem foldl_count_filter_le (p : Held → Bool) (l : List Held) :
    ∀ m n, m ≤ n → (l.filter p).foldl (fun n h => n + h.events.length) m ≤
      l.foldl (fun n h => n + h.events.length) n := by
  induction l with
  | nil => exact fun _ _ h => h
  | cons h l ih =>
    intro m n hmn
    by_cases hp : p h = true
    · simpa [List.filter_cons, hp] using ih (m + h.events.length) (n + h.events.length) (by omega)
    · simpa [List.filter_cons, hp] using ih m (n + h.events.length) (by omega)

/-- After a hold every group is young: the old ones are dropped first. -/
theorem young_hold (e : Engine) (id : TransferId) (now : Nat) (id' : TransferId) (ev : FileEvent) :
    (e.hold now id' ev).Young id now := by
  have live : ∀ h ∈ e.held.filter (fun h => now - h.since < heldFor), now - h.since < heldFor :=
    fun h hh => by simpa using (List.mem_filter.mp hh).2
  unfold Engine.hold
  dsimp only
  split
  · exact fun h hh _ => live h hh
  · split
    · intro h hh _
      obtain ⟨g, hg, rfl⟩ := List.mem_map.mp hh
      split <;> exact live g hg
    · intro h hh _
      rcases List.mem_append.mp hh with hh | hh
      · exact live h hh
      · simp only [List.mem_singleton] at hh
        subst hh
        simp [heldFor]

theorem takeHeld_hold_ne {now : Nat} (hy : e.Young id now) {id' : TransferId} (hne : id' ≠ id)
    (ev : FileEvent) : ((e.hold now id' ev).takeHeld id).2 = (e.takeHeld id).2 := by
  have hfind := find?_live hy
  simp only [takeHeld]
  unfold hold
  dsimp only
  split
  · rw [hfind]
  · split
    · rw [List.find?_map]
      have hq : ((·.id == id) ∘ fun h : Held => if h.id == id' then { h with events := h.events ++ [ev] } else h) =
          (·.id == id) := by
        funext h
        simp only [Function.comp]
        split <;> rfl
      rw [hq, hfind]
      rcases hf : e.held.find? (·.id == id) with _ | g
      · simp [hf]
      · have hg : g.id = id := by simpa using List.find?_some hf
        simp [hf, hg, Ne.symm hne]
    · rw [List.find?_append, hfind]
      rcases hf : e.held.find? (·.id == id) with _ | g
      · simp [hf, hne]
      · simp [hf]

/-- Holding an event of a transfer whose groups are young, with room left, adds it after what is
held for the transfer. -/
theorem takeHeld_hold_self {now : Nat} (hy : e.Young id now) (room : e.heldCount < maxHeld)
    (ev : FileEvent) : ((e.hold now id ev).takeHeld id).2 = (e.takeHeld id).2 ++ [ev] := by
  have hfind := find?_live hy
  have hroom : ¬ (e.held.filter fun h => now - h.since < heldFor).foldl
      (fun n h => n + h.events.length) 0 ≥ maxHeld := by
    have := foldl_count_filter_le (fun h => now - h.since < heldFor) e.held 0 0 (Nat.le_refl 0)
    unfold heldCount at room
    omega
  simp only [takeHeld]
  unfold hold
  dsimp only
  rw [if_neg hroom]
  split
  · -- a young group of the transfer is there: the event joins it
    rename_i hany
    rw [List.find?_map]
    have hq : ((·.id == id) ∘ fun h : Held => if h.id == id then { h with events := h.events ++ [ev] } else h) =
        (·.id == id) := by
      funext h
      simp only [Function.comp]
      split <;> rfl
    rw [hq, hfind]
    rcases hf : e.held.find? (·.id == id) with _ | g
    · rw [← hfind, List.find?_eq_none] at hf
      obtain ⟨g, hg, hgid⟩ := List.any_eq_true.mp hany
      exact absurd hgid (by simpa using hf g hg)
    · have hg : g.id = id := by simpa using List.find?_some hf
      simp [hf, hg]
  · -- no group of the transfer: a new one is made
    rename_i hany
    have hnone : (e.held.filter fun h => now - h.since < heldFor).find? (·.id == id) = none := by
      rw [List.find?_eq_none]
      intro g hg hgid
      exact hany (List.any_eq_true.mpr ⟨g, hg, hgid⟩)
    rw [List.find?_append, hnone, ← hfind, hnone]
    simp

/-- What an event does to the held groups: nothing, or a hold of the event, a control or a pull,
at the desk's clock. -/
theorem handle_held (e : Engine) (d : Desk) (ev : FileEvent) :
    (e.handle d ev).engine.held = e.held ∨
      ev.holdable = true ∧ (e.handle d ev).engine = e.hold d.clock ev.id ev := by
  cases ev with
  | offered id name size =>
    left
    simp only [handle, offered]
    split
    · rfl
    · split
      · rfl
      · split <;> simp
  | control id c =>
    simp only [handle, control]
    split
    · right; exact ⟨rfl, rfl⟩
    · left; split <;> simp
  | pull id r =>
    simp only [handle, pull]
    split
    · right; exact ⟨rfl, rfl⟩
    · left
      split
      · rfl
      · split
        · simp
        · split <;> simp
  | chunk id o data =>
    left
    simp only [handle, chunk]
    split
    · rfl
    · split
      · rfl
      · split
        · simp
        · split <;> simp
  | failed id err => left; simp [handle]

theorem handle_takeHeld_ne (hy : e.Young id d.clock) {ev : FileEvent} (hne : ev.id ≠ id) :
    ((e.handle d ev).engine.takeHeld id).2 = (e.takeHeld id).2 ∧ (e.handle d ev).engine.Young id d.clock := by
  rcases handle_held e d ev with h | ⟨-, h⟩
  · exact ⟨takeHeld_snd_congr h id, hy.of_held h⟩
  · rw [h]
    exact ⟨takeHeld_hold_ne hy hne ev, young_hold e id d.clock ev.id ev⟩

theorem replay_takeHeld_ne (d : Desk) (evs : List FileEvent) (hy : e.Young id d.clock)
    (hne : ∀ ev ∈ evs, ev.id ≠ id) :
    ((replay d evs e).engine.takeHeld id).2 = (e.takeHeld id).2 ∧ (replay d evs e).engine.Young id d.clock := by
  induction evs generalizing d e with
  | nil => exact ⟨rfl, hy⟩
  | cons ev rest ih =>
    have hev := hne ev List.mem_cons_self
    obtain ⟨h₁, h₂⟩ := @handle_takeHeld_ne _ d _ hy _ hev
    simp only [replay]
    split
    · have h₂' : (e.handle d ev).engine.Young id (e.handle d ev).desk.clock := by
        rw [handle_clock]; exact h₂
      obtain ⟨h₃, h₄⟩ := ih (e.handle d ev).desk h₂' fun x hx => hne x (List.mem_cons_of_mem _ hx)
      rw [handle_clock] at h₄
      exact ⟨h₃.trans h₁, h₄⟩
    · exact ⟨h₁, h₂⟩

theorem takeHeld_takeHeld_ne (e : Engine) {id' : TransferId} (hne : id' ≠ id) :
    ((e.takeHeld id').1.takeHeld id).2 = (e.takeHeld id).2 := by
  simp only [takeHeld, List.find?_filter]
  congr 2
  apply List.find?_congr
  intro h _
  by_cases hid : h.id = id
  · simp [hid, Ne.symm hne]
  · simp [hid]

theorem Young.takeHeld {now : Nat} (hy : e.Young id now) (id' : TransferId) :
    (e.takeHeld id').1.Young id now :=
  fun h hh => hy h (List.mem_filter.mp hh).1

theorem noneHeld_takeHeld (e : Engine) (id : TransferId) : (e.takeHeld id).1.NoneHeld id := by
  intro h hh hid
  simp [takeHeld, hid] at hh

theorem register_takeHeld_ne (tag : e.HeldTagged) (hy : e.Young id d.clock) {id' : TransferId}
    (path : String) (size : Nat) (hne : id' ≠ id) :
    ((e.register d id' path size).engine.takeHeld id).2 = (e.takeHeld id).2 ∧
      (e.register d id' path size).engine.Young id d.clock := by
  unfold register
  split
  · exact ⟨rfl, hy⟩
  · dsimp only
    have hkeep := takeHeld_takeHeld_ne e hne
    split
    · obtain ⟨h₁, h₂⟩ := @replay_takeHeld_ne
        ((e.takeHeld id').1.insert id' (.outbound _ size path)) _ d (e.takeHeld id').2
        ((hy.takeHeld id').of_held rfl)
        fun ev hev he => hne ((takeHeld_about tag id' ev hev).symm.trans he)
      exact ⟨h₁.trans hkeep, h₂⟩
    · exact ⟨hkeep, hy.takeHeld id'⟩

theorem work_takeHeld_ne (tag : e.HeldTagged) (hy : e.Young id d.clock) {w : Work} (hne : w.id ≠ id) :
    ((e.work d w).engine.takeHeld id).2 = (e.takeHeld id).2 ∧ (e.work d w).engine.Young id d.clock := by
  cases w with
  | create id' path size => exact register_takeHeld_ne tag hy path size hne
  | event ev => exact handle_takeHeld_ne hy hne

/-- Every held event is a control or a pull. -/
def HeldHoldable (e : Engine) : Prop := ∀ h ∈ e.held, ∀ ev ∈ h.events, ev.holdable = true

theorem hold_heldHoldable (h : e.HeldHoldable) (now : Nat) (id : TransferId) {ev : FileEvent}
    (hev : ev.holdable = true) : (e.hold now id ev).HeldHoldable := by
  have live : ∀ g ∈ e.held.filter (fun g => now - g.since < heldFor), ∀ x ∈ g.events, x.holdable = true :=
    fun g hg => h g (List.mem_filter.mp hg).1
  unfold hold
  dsimp only
  split
  · exact live
  · split
    · intro g hg x hx
      obtain ⟨g', hg', rfl⟩ := List.mem_map.mp hg
      split at hx
      · rcases List.mem_append.mp hx with hx | hx
        · exact live g' hg' x hx
        · rw [List.mem_singleton.mp hx]; exact hev
      · exact live g' hg' x hx
    · intro g hg x hx
      rcases List.mem_append.mp hg with hg | hg
      · exact live g hg x hx
      · rw [List.mem_singleton.mp hg] at hx
        rw [List.mem_singleton.mp hx]
        exact hev

theorem handle_heldHoldable (h : e.HeldHoldable) (d : Desk) (ev : FileEvent) :
    (e.handle d ev).engine.HeldHoldable := by
  rcases handle_held e d ev with hs | ⟨hh, hs⟩
  · intro g hg; rw [hs] at hg; exact h g hg
  · rw [hs]; exact hold_heldHoldable h d.clock ev.id hh

theorem replay_heldHoldable (d : Desk) (evs : List FileEvent) (h : e.HeldHoldable) :
    (replay d evs e).engine.HeldHoldable := by
  induction evs generalizing d e with
  | nil => exact h
  | cons ev rest ih =>
    simp only [replay]
    split
    · exact ih _ (handle_heldHoldable h d ev)
    · exact handle_heldHoldable h d ev

theorem register_heldHoldable (h : e.HeldHoldable) (d : Desk) (id : TransferId) (path : String)
    (size : Nat) : (e.register d id path size).engine.HeldHoldable := by
  have htake : (e.takeHeld id).1.HeldHoldable := fun g hg => h g (List.mem_filter.mp hg).1
  unfold register
  split
  · exact h
  · dsimp only
    split
    · exact replay_heldHoldable _ _ htake
    · exact htake

theorem work_heldHoldable (h : e.HeldHoldable) (d : Desk) (w : Work) : (e.work d w).engine.HeldHoldable := by
  cases w with
  | create id path size => exact register_heldHoldable h d id path size
  | event ev => exact handle_heldHoldable h d ev

theorem takeHeld_holdable (h : e.HeldHoldable) (id : TransferId) :
    ∀ ev ∈ (e.takeHeld id).2, ev.holdable = true := by
  intro ev hev
  simp only [takeHeld] at hev
  rcases hf : e.held.find? (·.id == id) with _ | g
  · simp [hf] at hev
  · rw [hf] at hev
    exact h g (List.mem_of_find?_eq_some hf) ev hev

/-! ## The settings of the engine -/

/-- What no job of the worker changes: the root, the receive directory, and whether the engine
has stopped. -/
def settings (e : Engine) : String × String × Bool := (e.root, e.receiveDir, e.stopped)

theorem touch_settings {e e' : Engine} {ev : FileEvent} (h : Touch e ev e') :
    e'.settings = e.settings := by
  cases h with
  | hold now =>
    unfold hold
    dsimp only
    split
    · rfl
    · split <;> rfl
  | _ => rfl

theorem replay_settings (d : Desk) (evs : List FileEvent) (e : Engine) :
    (replay d evs e).engine.settings = e.settings := by
  induction evs generalizing d e with
  | nil => rfl
  | cons ev rest ih =>
    have h := touch_settings (handle_touch e d ev).1
    simp only [replay]
    split
    · rw [ih, h]
    · exact h

theorem register_settings (e : Engine) (d : Desk) (id : TransferId) (path : String) (size : Nat) :
    (e.register d id path size).engine.settings = e.settings := by
  unfold register
  split
  · rfl
  · dsimp only
    split
    -- the held events are replayed on the engine with the new transfer, whose settings are `e`'s
    · exact replay_settings _ _ _
    · rfl

theorem work_settings (e : Engine) (d : Desk) (w : Work) :
    (e.work d w).engine.settings = e.settings := by
  cases w with
  | event ev => exact touch_settings (handle_touch e d ev).1
  | create id path size => exact register_settings e d id path size

/-- No job moves the receive directory. -/
theorem work_receiveDir (e : Engine) (d : Desk) (w : Work) :
    (e.work d w).engine.receiveDir = e.receiveDir :=
  congrArg (·.2.1) (work_settings e d w)

/-! ## The volume -/

theorem replay_volume_of_holdable (d : Desk) (evs : List FileEvent) (e : Engine)
    (hh : ∀ ev ∈ evs, ev.holdable = true) : (replay d evs e).desk.volume = d.volume := by
  induction evs generalizing d e with
  | nil => rfl
  | cons ev rest ih =>
    have hev := handle_volume_of_holdable e d (hh ev List.mem_cons_self)
    simp only [replay]
    split
    · rw [ih _ _ fun x hx => hh x (List.mem_cons_of_mem _ hx), hev]
    · exact hev

/-- Opening an outgoing transfer reads the volume only, when the held events are controls and
pulls. -/
theorem register_volume (h : e.HeldHoldable) (d : Desk) (id : TransferId) (path : String) (size : Nat) :
    (e.register d id path size).desk.volume = d.volume := by
  unfold register
  split
  · rfl
  · dsimp only
    split
    · exact replay_volume_of_holdable _ _ _ (takeHeld_holdable h id)
    · rfl

end Engine

end Courier.Transfer

namespace Courier.Files.Volume

/-- `v'` comes from `v` by making and writing files: it is sound, has as many inodes at least,
and the bytes of an inode change only where `mine` allows. -/
structure WritesOnly (v v' : Volume) (mine : Nat → Prop) : Prop where
  sound : v'.Sound
  size : v.blobs.size ≤ v'.blobs.size
  blob : ∀ m, v'.blob m = v.blob m ∨ mine m

theorem WritesOnly.refl {v : Volume} (hs : v.Sound) (mine : Nat → Prop) : v.WritesOnly v mine :=
  ⟨hs, Nat.le_refl _, fun _ => .inl rfl⟩

end Courier.Files.Volume

namespace Courier.Transfer

open Files

namespace Engine

variable {e : Engine}

/-- The files an engine writes after a job: those of its incoming transfers that are open. -/
def Writes (e : Engine) (id : TransferId) (m : Nat) : Prop :=
  ∃ u, e.find? id = some u ∧ u.direction = .inbound ∧ u.inode = m

/-- An event keeps the volume sound and changes only the file of an incoming transfer of its own
that is open after it. -/
theorem handle_writesOnly (e : Engine) (d : Desk) (ev : FileEvent) (hs : d.volume.Sound) :
    d.volume.WritesOnly (e.handle d ev).desk.volume ((e.handle d ev).engine.Writes ev.id) := by
  cases ev with
  | offered id name size =>
    simp only [handle, offered, FileEvent.id]
    split
    · simpa using Volume.WritesOnly.refl hs _
    · split
      · exact Volume.WritesOnly.refl hs _
      · split
        · rename_i nm _ _ _ v ino hc
          obtain ⟨hs', -, -, hle, hblob⟩ := Volume.createFile_blob hs hc
          refine ⟨by simpa using hs', by simpa using hle, fun m => ?_⟩
          by_cases hm : m = ino
          · exact .inr ⟨.inbound ino size (join e.receiveDir nm), by simp, rfl, hm.symm⟩
          · exact .inl (by simpa using hblob m hm)
        · simpa using Volume.WritesOnly.refl hs _
  | control id c =>
    rw [handle_volume_of_holdable e d (show (FileEvent.control id c).holdable = true from rfl)]
    exact Volume.WritesOnly.refl hs _
  | pull id r =>
    rw [handle_volume_of_holdable e d (show (FileEvent.pull id r).holdable = true from rfl)]
    exact Volume.WritesOnly.refl hs _
  | chunk id o data =>
    simp only [handle, chunk, FileEvent.id]
    split
    · exact Volume.WritesOnly.refl hs _
    · rename_i t ht
      split
      · exact Volume.WritesOnly.refl hs _
      · rename_i hact
        split
        · exact Volume.WritesOnly.refl hs _
        · split
          · rename_i v hw
            obtain ⟨-, hsize, hblob⟩ := Volume.writeAt_blob hw
            have hin : t.direction = .inbound := by
              simp only [Bool.or_eq_true, bne_iff_ne, ne_eq, not_or, Decidable.not_not] at hact
              exact hact.1
            refine ⟨hs.of_writeAt hw, by simp [hsize], fun m => ?_⟩
            by_cases hm : m = t.inode
            · exact .inr ⟨{ t with file := (t.file.writeChunk d.volume o data).1.2 }, by simp, hin, by simp [hm]⟩
            · exact .inl (hblob m hm)
          · exact Volume.WritesOnly.refl hs _
  | failed id err => exact Volume.WritesOnly.refl hs _

theorem work_writesOnly (h : e.HeldHoldable) (d : Desk) (w : Work) (hs : d.volume.Sound) :
    d.volume.WritesOnly (e.work d w).desk.volume ((e.work d w).engine.Writes w.id) := by
  cases w with
  | create id path size =>
    show d.volume.WritesOnly (e.register d id path size).desk.volume _
    rw [register_volume h]
    exact Volume.WritesOnly.refl hs _
  | event ev => exact handle_writesOnly e d ev hs

end Engine

end Courier.Transfer
