-- Holding a transfer's early events and replaying them when it opens, against opening it first,
-- carried through the later jobs too: an offer of the transfer among them may make its file anew.
import Courier.Proofs.EngineSteps

namespace Courier.Transfer

open Files

/-! ## The frame of the volume -/

namespace Engine

theorem handle_frame (e : Engine) (d : Desk) (ev : FileEvent) :
    (e.handle d ev).desk.volume.frame = d.volume.frame := by
  cases ev with
  | offered id name size =>
    simp only [handle, offered]
    split
    · simp
    · split
      · rfl
      · split
        · rename_i hc
          simpa using Volume.createFile_frame hc
        · simp
  | control id c => rw [handle_volume_of_holdable e d rfl]
  | pull id r => rw [handle_volume_of_holdable e d rfl]
  | chunk id o data =>
    simp only [handle, chunk]
    split
    · rfl
    · split
      · rfl
      · split
        · rfl
        · split
          · rename_i hw
            simpa using Volume.writeAt_frame hw
          · rfl
  | failed id err => rfl

theorem replay_frame (d : Desk) (evs : List FileEvent) (e : Engine) :
    (replay d evs e).desk.volume.frame = d.volume.frame := by
  induction evs generalizing d e with
  | nil => rfl
  | cons ev rest ih =>
    simp only [replay]
    split
    · rw [ih, handle_frame]
    · exact handle_frame e d ev

theorem work_frame (e : Engine) (d : Desk) (w : Work) : (e.work d w).desk.volume.frame = d.volume.frame := by
  cases w with
  | event ev => exact handle_frame e d ev
  | create id path size =>
    simp only [work, register]
    split
    · rfl
    · split
      · exact replay_frame _ _ _
      · rfl

/-- The worker makes files and writes them, and so never changes where a file can be made. -/
theorem run_frame (e : Engine) (d : Desk) (xs : List (Nat × Work)) :
    (run e d xs).2.volume.frame = d.volume.frame := by
  induction xs generalizing e d with
  | nil => rfl
  | cons x xs ih =>
    obtain ⟨now, w⟩ := x
    rw [run_cons, ih]
    exact work_frame e _ w

theorem run_receiveDir (e : Engine) (d : Desk) (xs : List (Nat × Work)) :
    (run e d xs).1.receiveDir = e.receiveDir := by
  induction xs generalizing e d with
  | nil => rfl
  | cons x xs ih =>
    obtain ⟨now, w⟩ := x
    rw [run_cons, ih]
    exact work_receiveDir e _ w

end Engine

/-! ## What can be told of a transfer -/

/-- A transfer's file as it can be told: all but its inode. -/
def FileState.sight (c : FileState) : FileState := { c with handle := { c.handle with inode := 0 } }

/-- A transfer as the peer and the user can tell it: all but which inode its file is. -/
def Ongoing.sight (t : Ongoing) : Ongoing := { t with file := t.file.sight }

/-- What can be told of a transfer: its state but for the inode, and the calls made for it. -/
def Engine.sight (e : Engine) (d : Desk) (id : TransferId) : Option Ongoing × List Call :=
  ((e.find? id).map Ongoing.sight, d.callsFor id)

theorem FileState.writeChunk_sight {c₁ c₂ : FileState} (v₁ v₂ : Volume) (o : Nat) (data : ByteArray)
    (h : c₁.sight = c₂.sight) :
    (c₁.writeChunk v₁ o data).1.2.sight = (c₂.writeChunk v₂ o data).1.2.sight := by
  rw [FileState.writeChunk_file_volume v₁ v₂]
  obtain ⟨⟨i₁, p₁, m₁⟩, cur₁, pr₁⟩ := c₁
  obtain ⟨⟨i₂, p₂, m₂⟩, cur₂, pr₂⟩ := c₂
  simp only [sight, FileState.mk.injEq, Handle.mk.injEq, true_and] at h
  obtain ⟨⟨rfl, rfl⟩, rfl, rfl⟩ := h
  -- the write goes through on one inode when it does on the other
  have hw := Volume.writeAt_isOk v₂ v₂ i₁ i₂
  unfold FileState.writeChunk FileState.seekTo Handle.seek Handle.writeAll
  by_cases hc : cur₁ = some o
  · simp only [hc, if_true]
    cases m₁
    · rfl
    · by_cases hz : data.size = 0
      · simp [hz, sight]
      · simp only [hz, if_false]
        have := hw p₁ data
        rcases w₁ : v₂.writeAt i₁ p₁ data with _ | _ <;> rcases w₂ : v₂.writeAt i₂ p₁ data with _ | _ <;>
          simp [w₁, w₂, Except.isOk, Except.toBool, Except.map, sight] at this ⊢
  · simp only [hc, if_false]
    by_cases ho : o > maxOffset
    · simp [ho, Except.map, sight]
    · simp only [ho, if_false, Except.map]
      cases m₁
      · rfl
      · by_cases hz : data.size = 0
        · simp [hz, sight]
        · simp only [hz, if_false]
          have := hw o data
          rcases w₁ : v₂.writeAt i₁ o data with _ | _ <;> rcases w₂ : v₂.writeAt i₂ o data with _ | _ <;>
            simp [w₁, w₂, Except.isOk, Except.toBool, sight] at this ⊢

namespace Ongoing

theorem eq_of_sight {t₁ t₂ : Ongoing} (h : t₁.sight = t₂.sight) (hi : t₁.inode = t₂.inode) : t₁ = t₂ := by
  obtain ⟨d₁, a₁, ⟨⟨i₁, p₁, m₁⟩, c₁, g₁⟩, x₁⟩ := t₁
  obtain ⟨d₂, a₂, ⟨⟨i₂, p₂, m₂⟩, c₂, g₂⟩, x₂⟩ := t₂
  simp only [sight, FileState.sight, mk.injEq, FileState.mk.injEq, Handle.mk.injEq, true_and] at h
  simp only [inode] at hi
  obtain ⟨rfl, rfl, ⟨⟨rfl, rfl⟩, rfl, rfl⟩, rfl⟩ := h
  rw [hi]

@[simp] theorem direction_sight (t : Ongoing) : t.sight.direction = t.direction := rfl

@[simp] theorem activity_sight (t : Ongoing) : t.sight.activity = t.activity := rfl

@[simp] theorem path_sight (t : Ongoing) : t.sight.path = t.path := rfl

@[simp] theorem file_sight (t : Ongoing) : t.sight.file = t.file.sight := rfl

@[simp] theorem sight_activity (t : Ongoing) (a : Activity) :
    ({ t with activity := a } : Ongoing).sight = { t.sight with activity := a } := rfl

@[simp] theorem sight_inbound (ino size : Nat) (path : String) :
    (Ongoing.inbound ino size path).sight = Ongoing.inbound 0 size path := rfl

end Ongoing

namespace Engine

/-- While the transfer sends, it reads the file `ino`. -/
def Reads (e : Engine) (id : TransferId) (ino : Nat) : Prop :=
  ∀ t, e.find? id = some t → t.direction = .outbound → t.inode = ino

variable {e₁ e₂ : Engine} {d₁ d₂ : Desk} {id : TransferId} {ino : Nat}

theorem find?_sight_cases (hf : (e₁.find? id).map Ongoing.sight = (e₂.find? id).map Ongoing.sight) :
    (e₁.find? id = none ∧ e₂.find? id = none) ∨
      ∃ t₁ t₂, e₁.find? id = some t₁ ∧ e₂.find? id = some t₂ ∧ t₁.sight = t₂.sight := by
  rcases h₁ : e₁.find? id with _ | t₁ <;> rcases h₂ : e₂.find? id with _ | t₂ <;> simp_all

theorem sight_of_view (h : e₁.view d₁ id = e₂.view d₂ id) : e₁.sight d₁ id = e₂.sight d₂ id := by
  have hf : e₁.find? id = e₂.find? id := congrArg Prod.fst h
  have hc : d₁.callsFor id = d₂.callsFor id := congrArg Prod.snd h
  simp only [sight, hf, hc]

theorem control_sight_congr (hf : (e₁.find? id).map Ongoing.sight = (e₂.find? id).map Ongoing.sight)
    (hc : d₁.callsFor id = d₂.callsFor id) (c : FileControl) :
    (e₁.control d₁ id c).engine.sight (e₁.control d₁ id c).desk id =
      (e₂.control d₂ id c).engine.sight (e₂.control d₂ id c).desk id := by
  rcases find?_sight_cases hf with ⟨h₁, h₂⟩ | ⟨t₁, t₂, h₁, h₂, ht⟩
  · simp [control, sight, h₁, h₂, hc]
  · cases c <;> simp [control, sight, h₁, h₂, hc, ht]

theorem pull_sight_congr (hf : (e₁.find? id).map Ongoing.sight = (e₂.find? id).map Ongoing.sight)
    (hc : d₁.callsFor id = d₂.callsFor id) (hr₁ : e₁.Reads id ino) (hr₂ : e₂.Reads id ino)
    (hblob : d₁.volume.blob ino = d₂.volume.blob ino) (hb : d₁.breaks = d₂.breaks) (r : ChunkRequest) :
    (e₁.pull d₁ id r).engine.sight (e₁.pull d₁ id r).desk id =
      (e₂.pull d₂ id r).engine.sight (e₂.pull d₂ id r).desk id := by
  rcases find?_sight_cases hf with ⟨h₁, h₂⟩ | ⟨t₁, t₂, h₁, h₂, ht⟩
  · simp [pull, sight, h₁, h₂, hc]
  · have hdir : t₁.direction = t₂.direction := by simpa using congrArg Ongoing.direction ht
    cases hout : t₁.direction with
    | inbound =>
      -- an incoming transfer lets pulls pass
      simp [pull, sight, h₁, h₂, hc, hout, ← hdir, ht]
    | outbound =>
      -- a sending transfer reads the same file on both engines, so it is the same on both
      have heq : t₁ = t₂ :=
        Ongoing.eq_of_sight ht ((hr₁ t₁ h₁ hout).trans (hr₂ t₂ h₂ (hdir ▸ hout)).symm)
      subst heq
      have hv : e₁.view d₁ id = e₂.view d₂ id := by simp [view, h₁, h₂, hc]
      refine sight_of_view
        (handle_view_congr d₁ d₂ (show (FileEvent.pull id r).isOffer = false from rfl) hv ?_ hb)
      intro t ht'
      rw [show (FileEvent.pull id r).id = id from rfl, h₁, Option.some.injEq] at ht'
      subst ht'
      rw [hr₁ t₁ h₁ hout, hblob]

theorem chunk_sight_congr (hf : (e₁.find? id).map Ongoing.sight = (e₂.find? id).map Ongoing.sight)
    (hc : d₁.callsFor id = d₂.callsFor id) (o : Nat) (data : ByteArray) :
    (e₁.chunk d₁ id o data).engine.sight (e₁.chunk d₁ id o data).desk id =
      (e₂.chunk d₂ id o data).engine.sight (e₂.chunk d₂ id o data).desk id := by
  rcases find?_sight_cases hf with ⟨h₁, h₂⟩ | ⟨t₁, t₂, h₁, h₂, ht⟩
  · simp [chunk, sight, h₁, h₂, hc]
  · have hdir : t₁.direction = t₂.direction := by simpa using congrArg Ongoing.direction ht
    have hact : t₁.activity = t₂.activity := by simpa using congrArg Ongoing.activity ht
    have hpath : t₁.path = t₂.path := by simpa using congrArg Ongoing.path ht
    have hfile : t₁.file.sight = t₂.file.sight := by simpa using congrArg Ongoing.file ht
    simp only [chunk, h₁, h₂, ← hdir, ← hact]
    split
    · simp [sight, h₁, h₂, hc, ht]
    · split
      · simp [sight, hc]
      · -- the write goes through on both files or on neither, and moves the two alike
        have hw := Volume.writeAt_isOk d₁.volume d₂.volume t₁.inode t₂.inode o data
        have hmove := FileState.writeChunk_sight d₁.volume d₂.volume o data hfile
        rcases w₁ : d₁.volume.writeAt t₁.inode o data with _ | v₁ <;>
          rcases w₂ : d₂.volume.writeAt t₂.inode o data with _ | v₂ <;>
          simp [w₁, w₂, Except.isOk, Except.toBool] at hw ⊢ <;>
          simp [sight, Ongoing.sight, hmove, hc, hdir, hact, hpath]

theorem offered_sight_congr (hf : (e₁.find? id).map Ongoing.sight = (e₂.find? id).map Ongoing.sight)
    (hc : d₁.callsFor id = d₂.callsFor id) (hframe : d₁.volume.frame = d₂.volume.frame)
    (hb : d₁.breaks = d₂.breaks) (hdir : e₁.receiveDir = e₂.receiveDir) (name : String) (size : Nat) :
    (e₁.offered d₁ id name size).engine.sight (e₁.offered d₁ id name size).desk id =
      (e₂.offered d₂ id name size).engine.sight (e₂.offered d₂ id name size).desk id := by
  simp only [offered]
  cases hn : sanitizeName name with
  | none => simp [sight, hf, hc, hb]
  | some n =>
    rcases find?_sight_cases hf with ⟨h₁, h₂⟩ | ⟨t₁, t₂, h₁, h₂, ht⟩
    · -- a transfer open on neither: its file is made on both volumes or on neither
      have hok := Volume.createFile_isOk_frame hframe (join e₂.receiveDir n)
      simp only [h₁, h₂, Option.isSome_none, Bool.false_eq_true, if_false, hdir]
      rcases c₁ : d₁.volume.createFile (join e₂.receiveDir n) with _ | ⟨v₁, i₁⟩ <;>
        rcases c₂ : d₂.volume.createFile (join e₂.receiveDir n) with _ | ⟨v₂, i₂⟩ <;>
        simp [c₁, c₂, Except.isOk, Except.toBool] at hok ⊢ <;> simp [sight, hc, h₁, h₂] <;> simp [hb]
    · simp [h₁, h₂, sight, hc, ht]

/-- Every file event does the same to a transfer that two engines show alike, given the same bytes
in the file it sends from, volumes with one frame, one receive directory, and the same calls that
break down. -/
theorem handle_sight_congr (ev : FileEvent) (hv : e₁.sight d₁ ev.id = e₂.sight d₂ ev.id)
    (hr₁ : e₁.Reads ev.id ino) (hr₂ : e₂.Reads ev.id ino) (hblob : d₁.volume.blob ino = d₂.volume.blob ino)
    (hframe : d₁.volume.frame = d₂.volume.frame) (hb : d₁.breaks = d₂.breaks)
    (hdir : e₁.receiveDir = e₂.receiveDir) :
    (e₁.handle d₁ ev).engine.sight (e₁.handle d₁ ev).desk ev.id =
      (e₂.handle d₂ ev).engine.sight (e₂.handle d₂ ev).desk ev.id := by
  have hf : (e₁.find? ev.id).map Ongoing.sight = (e₂.find? ev.id).map Ongoing.sight := congrArg Prod.fst hv
  have hc : d₁.callsFor ev.id = d₂.callsFor ev.id := congrArg Prod.snd hv
  cases ev with
  | offered id name size => exact offered_sight_congr hf hc hframe hb hdir name size
  | control id c => exact control_sight_congr hf hc c
  | pull id r => exact pull_sight_congr hf hc hr₁ hr₂ hblob hb r
  | chunk id o data => exact chunk_sight_congr hf hc o data
  | failed id err => simp [handle, sight, FileEvent.id] at hc ⊢; exact hc

end Engine

/-! ## The file a sending transfer reads -/

theorem Touch.reads {e e' : Engine} {ev : FileEvent} {id : TransferId} {ino : Nat} (h : Touch e ev e')
    (hr : e.Reads id ino) (hoff : ev.isOffer = false) : e'.Reads id ino := by
  cases h with
  | keep => exact hr
  | hold now => intro t ht; exact hr t (by simpa using ht)
  | erase =>
    intro t ht
    by_cases hid : ev.id = id
    · subst hid; simp at ht
    · exact hr t (by simpa [hid] using ht)
  | update t t' hft same =>
    intro u hu hout
    by_cases hid : ev.id = id
    · subst hid
      simp only [Engine.find?_insert_self, Option.some.injEq] at hu
      subst hu
      exact same.2.1.trans (hr t hft (same.1 ▸ hout))
    · exact hr u (by simpa [hid] using hu) hout
  | «open» t hof => simp [hof] at hoff

namespace Engine

variable {e : Engine} {id : TransferId} {ino : Nat}

/-- An offer opens an incoming transfer, which reads no file. -/
theorem offered_reads (hr : e.Reads id ino) (d : Desk) (id' : TransferId) (name : String) (size : Nat) :
    (e.offered d id' name size).engine.Reads id ino := by
  intro t ht hout
  simp only [offered] at ht
  split at ht
  · exact hr t (by simpa using ht) hout
  · split at ht
    · exact hr t ht hout
    · split at ht
      · by_cases hid : id' = id
        · subst hid
          simp only [calling_engine, find?_insert_self, Option.some.injEq] at ht
          subst ht
          simp at hout
        · exact hr t (by simpa [hid] using ht) hout
      · exact hr t (by simpa using ht) hout

theorem handle_reads (hr : e.Reads id ino) (d : Desk) (ev : FileEvent) : (e.handle d ev).engine.Reads id ino := by
  cases hoff : ev.isOffer
  · exact (handle_touch e d ev).1.reads hr hoff
  · cases ev with
    | offered id' name size => exact offered_reads hr d id' name size
    | _ => simp [FileEvent.isOffer] at hoff

theorem Reads.of_find? {e e' : Engine} (hr : e.Reads id ino) (h : e'.find? id = e.find? id) : e'.Reads id ino :=
  fun t ht => hr t (h ▸ ht)

theorem Sends.reads {e : Engine} (hs : e.Sends id ino) : e.Reads id ino := fun t ht _ => (hs t ht).2

variable {e₁ e₂ : Engine} {d₁ d₂ : Desk} {bytes : ByteArray}

/-- Two engines that show a transfer alike still show it alike after the same jobs, when none of
them opens it again: offers of it included, which may make its file anew on each volume. -/
theorem run_sight_congr (xs : List (Nat × Work)) (hv : e₁.sight d₁ id = e₂.sight d₂ id)
    (tag₁ : e₁.HeldTagged) (tag₂ : e₂.HeldTagged) (hr₁ : e₁.Reads id ino) (hr₂ : e₂.Reads id ino)
    (file₁ : Keeps (fun v => v.blob ino = bytes) e₁ d₁ xs) (file₂ : Keeps (fun v => v.blob ino = bytes) e₂ d₂ xs)
    (hframe : d₁.volume.frame = d₂.volume.frame) (hb : d₁.breaks = d₂.breaks)
    (hdir : e₁.receiveDir = e₂.receiveDir) (later : ∀ x ∈ xs, x.2.id = id → ∃ ev, x.2 = .event ev) :
    (run e₁ d₁ xs).1.sight (run e₁ d₁ xs).2 id = (run e₂ d₂ xs).1.sight (run e₂ d₂ xs).2 id := by
  induction xs generalizing e₁ d₁ e₂ d₂ with
  | nil => exact hv
  | cons x rest ih =>
    obtain ⟨now, w⟩ := x
    have hrest := fun y hy => later y (List.mem_cons_of_mem _ hy)
    rw [run_cons, run_cons]
    refine ih ?_ (work_heldTagged tag₁ _ _) (work_heldTagged tag₂ _ _) ?_ ?_ file₁.2 file₂.2
      (by rw [work_frame, work_frame]; exact hframe) (by simp [hb])
      (by rw [work_receiveDir, work_receiveDir]; exact hdir) hrest
    all_goals by_cases hw : w.id = id
    -- the job is an event of the transfer
    · obtain ⟨ev, rfl, -⟩ := later _ List.mem_cons_self hw
      simp only [Work.id] at hw
      subst hw
      exact handle_sight_congr ev hv hr₁ hr₂ (file₁.1.trans file₂.1.symm) hframe hb hdir
    -- a job about another transfer leaves it alone on both
    · have h₁ := sight_of_view (work_view_of_ne tag₁ { d₁ with clock := now } hw)
      have h₂ := sight_of_view (work_view_of_ne tag₂ { d₂ with clock := now } hw)
      exact h₁.trans (hv.trans h₂.symm)
    · obtain ⟨ev, rfl, -⟩ := later _ List.mem_cons_self hw
      exact handle_reads hr₁ _ ev
    · exact hr₁.of_find? (congrArg Prod.fst (work_view_of_ne tag₁ _ hw))
    · obtain ⟨ev, rfl, -⟩ := later _ List.mem_cons_self hw
      exact handle_reads hr₂ _ ev
    · exact hr₂.of_find? (congrArg Prod.fst (work_view_of_ne tag₂ _ hw))

end Engine

open Engine

/-- Holding a transfer's early events and replaying them when it opens does to it what opening it
first does: the same state at the end, but perhaps for the inode of a file an offer makes anew,
and the same calls for it in the same order. The transfer is opened once, after jobs `a` about
other transfers and `b` in which its own are controls, pulls and chunks; every event held for it
is still held when it opens; the file keeps its place and bytes throughout; no call for it breaks
down; and the jobs after do not open it again, though their events for it may offer it. -/
theorem replay_agrees_with_opening_first (e : Engine) (d : Desk) (id : TransferId) (path : String)
    (size now now' ino : Nat) (bytes : ByteArray) (a b post : List (Nat × Work))
    (fresh : e.find? id = none) (unheld : e.NoneHeld id) (tagged : e.HeldTagged)
    (before : ∀ x ∈ a, x.2.id ≠ id)
    (early : ∀ x ∈ b, x.2.id = id → ∃ ev, x.2 = .event ev ∧ ev.inFlow = true)
    (kept : ((run e d (a ++ b)).1.takeHeld id).2 = heldEvents id b)
    (file₁ : (run e d a).1.Keeps (FileAt path ino bytes) (run e d a).2
      (b ++ (now, .create id path size) :: post))
    (file₂ : (run e d a).1.Keeps (FileAt path ino bytes) (run e d a).2
      ((now', .create id path size) :: b ++ post))
    (sure : ∀ c, c.id = id → d.breaks c = false)
    (later : ∀ x ∈ post, x.2.id = id → ∃ ev, x.2 = .event ev) :
    (run e d (a ++ b ++ (now, .create id path size) :: post)).1.sight
        (run e d (a ++ b ++ (now, .create id path size) :: post)).2 id =
      (run e d (a ++ (now', .create id path size) :: b ++ post)).1.sight
        (run e d (a ++ (now', .create id path size) :: b ++ post)).2 id := by
  let S : Ongoing := .outbound ino size path
  let A := run e d a
  have tagA : A.1.HeldTagged := run_heldTagged tagged d a
  have viewA : A.1.view A.2 id = e.view d id := run_view_of_ne tagged d before
  have freshA : A.1.find? id = none := (congrArg Prod.fst viewA).trans fresh
  -- the held order: `b` leaves the transfer closed, then opening it replays what `b` held
  let B := run A.1 A.2 b
  have viewB : B.1.view B.2 id = A.1.view A.2 id := run_view_of_closed tagA A.2 freshA early
  have freshB : B.1.find? id = none := (congrArg Prod.fst viewB).trans freshA
  have keptB : (B.1.takeHeld id).2 = heldEvents id b := by rw [← kept, run_append]
  have fileB := keeps_append file₁
  let dR : Desk := { B.2 with clock := now }
  let R := replay dR (heldEvents id b) ((B.1.takeHeld id).1.insert id S)
  have held : run e d (a ++ b ++ (now, .create id path size) :: post) = run R.engine R.desk post := by
    rw [run_append, run_append, run_cons]
    simp only [work]
    rw [register_eq_replay dR size freshB fileB.head.1, keptB]
  have fileR : R.engine.Keeps (FileAt path ino bytes) R.desk post := by
    have h := fileB.2
    simp only [work] at h
    rwa [register_eq_replay dR size freshB fileB.head.1, keptB] at h
  -- the opened order: opening first finds nothing held, then `b` comes as it is
  let dM : Desk := { A.2 with clock := now' }
  let M1 := (A.1.takeHeld id).1.insert id S
  have openM : A.1.work dM (.create id path size) = M1.keep dM :=
    register_of_noneHeld dM size freshA (run_noneHeld tagged unheld d before) file₂.head.1
  have opened : run e d (a ++ (now', .create id path size) :: b ++ post) =
      run (run M1 dM b).1 (run M1 dM b).2 post := by
    rw [run_append, run_append, run_cons, openM]
    rfl
  have fileM1 : M1.Keeps (FileAt path ino bytes) dM (b ++ post) := by
    have h := file₂.2
    rwa [openM] at h
  -- `b` taken as it comes on the opened transfer does what replaying it does
  have blob : ∀ v, FileAt path ino bytes v → v.blob ino = bytes := fun _ h => h.2
  have sendsM1 : M1.Sends id ino := sends_insert id rfl
  have tagM1 : M1.HeldTagged := takeHeld_heldTagged tagA id
  have viewM1 : M1.view dM id = ((B.1.takeHeld id).1.insert id S).view dR id := by
    simp only [view, M1, find?_insert_self]
    exact congrArg (Prod.mk (some S)) (congrArg Prod.snd viewB).symm
  have breaksB : dM.breaks = dR.breaks := by
    simp [dM, dR, B]
  have sureR : ∀ c, c.id = id → dR.breaks c = false := by
    simpa [dR, B, A] using sure
  have phaseB := run_view_replay b viewM1 tagM1 sendsM1 ((keeps_of_append fileM1).mono blob)
    (fileB.head.2) breaksB sureR early
  -- the same jobs `post` keep the two alike: both volumes keep the frame they started from, and
  -- the transfer, while it sends, reads the same file on both
  have tagR : R.engine.HeldTagged :=
    replay_heldTagged _ _ (takeHeld_heldTagged (run_heldTagged tagA _ b) id)
  have readsM : (run M1 dM b).1.Reads id ino :=
    (run_sends sendsM1 dM tagM1 (offers_of_inFlow early)).reads
  have frames : (run M1 dM b).2.volume.frame = R.desk.volume.frame := by
    rw [run_frame, replay_frame]
    exact (run_frame A.1 A.2 b).symm
  have dirs : (run M1 dM b).1.receiveDir = R.engine.receiveDir := by
    rw [run_receiveDir, show R.engine.receiveDir = _ from congrArg (·.2.1) (replay_settings _ _ _)]
    exact (run_receiveDir A.1 A.2 b).symm
  have phaseC := run_sight_congr post (sight_of_view phaseB) (run_heldTagged tagM1 dM b) tagR readsM
    (readsM.of_find? (congrArg Prod.fst phaseB).symm) ((keeps_append fileM1).mono blob) (fileR.mono blob)
    frames (by simp [breaksB]) dirs later
  rw [held, opened]
  exact phaseC.symm

/-- A send of a two-byte file whose resume and first pull come before it is opened; after it the
last pull, the end marker, and an offer of the same transfer, which makes a new file: holding the
early two and opening first end alike. -/
theorem replay_agrees_before_a_later_offer :
    let e : Engine := { root := "/r", receiveDir := "/r" }
    let d : Desk := { volume := ({} : Volume).plantFile ["r", "f"] ⟨#[97, 98]⟩ }
    let id : TransferId := ⟨0, 7⟩
    let b : List (Nat × Work) := [(0, .event (.control id .resume)), (0, .event (.pull id ⟨0, 1⟩))]
    let post : List (Nat × Work) :=
      [(5, .event (.pull id ⟨1, 1⟩)), (6, .event (.pull id ⟨2, 0⟩)), (7, .event (.offered id "g" 1))]
    (run e d ([] ++ b ++ (1, .create id "/r/f" 2) :: post)).1.sight
        (run e d ([] ++ b ++ (1, .create id "/r/f" 2) :: post)).2 id =
      (run e d ([] ++ (0, .create id "/r/f" 2) :: b ++ post)).1.sight
        (run e d ([] ++ (0, .create id "/r/f" 2) :: b ++ post)).2 id := by
  intro e d id b post
  refine replay_agrees_with_opening_first e d id "/r/f" 2 1 0 0 ⟨#[97, 98]⟩ [] b post rfl
    (fun _ h => (List.not_mem_nil h).elim) (fun _ h => (List.not_mem_nil h).elim)
    (fun _ h => (List.not_mem_nil h).elim) ?_ ?_ ?_ ?_ (fun _ _ => rfl) ?_
  · intro x hx _
    simp only [b, List.mem_cons, List.not_mem_nil, or_false] at hx
    rcases hx with rfl | rfl <;> exact ⟨_, rfl, rfl⟩
  · cbv
  · cbv
  · cbv
  · intro x hx _
    simp only [post, List.mem_cons, List.not_mem_nil, or_false] at hx
    rcases hx with rfl | rfl | rfl <;> exact ⟨_, rfl⟩

set_option maxRecDepth 20000 in
/-- Where holding parts from opening first. A call that breaks down stops the replay of what was
held, where the events taken one by one go on: a resume, a pull whose chunk cannot be sent, and a
pause leave the held transfer active and the one opened first paused. And a second opening replays
what the held table had room for, which the order of the first one changes: with 4093 events of
another transfer held, every early event of the transfer is held in both orders, but a pull after
the opening finds room in the held order only, so opening again sends two chunks in one order and
one in the other. -/
theorem replay_differs_on_a_broken_call_or_a_reopening :
    (let e : Engine := { root := "/r", receiveDir := "/r" }
     let d : Desk := { volume := ({} : Volume).plantFile ["r", "f"] ⟨#[97, 98]⟩,
                       breaks := fun c => match c with | .chunk .. => true | _ => false }
     let id : TransferId := ⟨0, 7⟩
     let b : List (Nat × Work) :=
       [(0, .event (.control id .resume)), (0, .event (.pull id ⟨0, 1⟩)), (0, .event (.control id .pause))]
     ((run e d (b ++ [(0, .create id "/r/f" 2)])).1.find? id).map (·.activity) = some .active ∧
       ((run e d ((0, .create id "/r/f" 2) :: b)).1.find? id).map (·.activity) = some .paused) ∧
    (let id : TransferId := ⟨0, 7⟩
     let other : TransferId := ⟨0, 8⟩
     let e : Engine := { root := "/r", receiveDir := "/r",
                         held := [⟨other, 0, List.replicate 4093 (.control other .pause)⟩] }
     let d : Desk := { volume := ({} : Volume).plantFile ["r", "f"] ⟨#[97, 98]⟩ }
     let b : List (Nat × Work) :=
       [(0, .event (.control id .cancel)), (0, .event (.control id .resume)),
        (0, .event (.pull id ⟨0, 1⟩)), (0, .event (.control other .pause))]
     let post : List (Nat × Work) := [(0, .event (.pull id ⟨1, 1⟩)), (0, .create id "/r/f" 2)]
     ((run e d b).1.takeHeld id).2 = heldEvents id b ∧
       ((run e d (b ++ (0, .create id "/r/f" 2) :: post)).2.callsFor id).length = 2 ∧
       ((run e d ((0, .create id "/r/f" 2) :: b ++ post)).2.callsFor id).length = 1) := by
  constructor
  · cbv
  · -- the held events come out as they went in; the two counts need no comparison of events
    cbv
    exact ⟨rfl, trivial⟩

end Courier.Transfer
