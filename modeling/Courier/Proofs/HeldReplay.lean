-- Early events and their replay: a control or a pull for an outgoing transfer not open yet is held
-- and replayed when it opens, which for that transfer is opening it first and taking each event as
-- it comes.
import Mathlib
import Courier.Proofs.TransferFrame

namespace Courier.Transfer

open Files

/-- The kinds of event a transfer on its way gets: controls, pulls and chunks. -/
def FileEvent.inFlow : FileEvent → Bool
  | .control .. | .pull .. | .chunk .. => true
  | _ => false

theorem FileEvent.isOffer_of_inFlow {ev : FileEvent} (h : ev.inFlow = true) : ev.isOffer = false := by
  cases ev <;> simp_all [FileEvent.inFlow, FileEvent.isOffer]

theorem FileEvent.eq_chunk_of_inFlow {ev : FileEvent} (hin : ev.inFlow = true) (hh : ev.holdable = false) :
    ∃ id offset data, ev = .chunk id offset data := by
  cases ev <;> simp_all [FileEvent.inFlow, FileEvent.holdable]

/-- The file at a path: the inode the path names and the bytes it holds. -/
def FileAt (path : String) (ino : Nat) (bytes : ByteArray) (v : Volume) : Prop :=
  v.openFile path = .ok ino ∧ v.blob ino = bytes

/-- The events of a transfer that the engine holds while the transfer is not open: its controls
and pulls among the jobs, in order. -/
def heldEvents (id : TransferId) (jobs : List (Nat × Work)) : List FileEvent :=
  jobs.filterMap fun x => match x.2 with
    | .event ev => if ev.id = id ∧ ev.holdable then some ev else none
    | .create .. => none

namespace Engine

/-- A property of the volume that holds before and after every job of a run. -/
def Keeps (P : Volume → Prop) : Engine → Desk → List (Nat × Work) → Prop
  | _, d, [] => P d.volume
  | e, d, (now, w) :: rest =>
    P d.volume ∧ Keeps P (e.work { d with clock := now } w).engine (e.work { d with clock := now } w).desk rest

/-- The transfer is, when open, an outgoing one of the file `ino`. -/
def Sends (e : Engine) (id : TransferId) (ino : Nat) : Prop :=
  ∀ t, e.find? id = some t → t.direction = .outbound ∧ t.inode = ino

/-! ## Runs -/

@[simp] theorem run_nil (e : Engine) (d : Desk) : run e d [] = (e, d) := rfl

theorem run_cons (e : Engine) (d : Desk) (now : Nat) (w : Work) (rest : List (Nat × Work)) :
    run e d ((now, w) :: rest) =
      run (e.work { d with clock := now } w).engine (e.work { d with clock := now } w).desk rest :=
  rfl

theorem run_append (e : Engine) (d : Desk) (xs ys : List (Nat × Work)) :
    run e d (xs ++ ys) = run (run e d xs).1 (run e d xs).2 ys := by
  induction xs generalizing e d with
  | nil => rfl
  | cons x xs ih => exact ih _ _

@[simp] theorem run_breaks (e : Engine) (d : Desk) (xs : List (Nat × Work)) :
    (run e d xs).2.breaks = d.breaks := by
  induction xs generalizing e d with
  | nil => rfl
  | cons x xs ih => rw [run_cons, ih, work_breaks]

theorem run_heldTagged {e : Engine} (tag : e.HeldTagged) (d : Desk) (xs : List (Nat × Work)) :
    (run e d xs).1.HeldTagged := by
  induction xs generalizing e d with
  | nil => exact tag
  | cons x xs ih => exact ih (work_heldTagged tag _ _) _

/-- Jobs about other transfers leave a transfer alone. -/
theorem run_view_of_ne {e : Engine} {id : TransferId} (tag : e.HeldTagged) (d : Desk)
    {xs : List (Nat × Work)} (h : ∀ x ∈ xs, x.2.id ≠ id) :
    (run e d xs).1.view (run e d xs).2 id = e.view d id := by
  induction xs generalizing e d with
  | nil => rfl
  | cons x xs ih =>
    obtain ⟨now, w⟩ := x
    have hw := h _ List.mem_cons_self
    rw [run_cons, ih (work_heldTagged tag _ _) _ fun y hy => h y (List.mem_cons_of_mem _ hy),
      work_view_of_ne tag _ hw]
    rfl

theorem run_noneHeld {e : Engine} {id : TransferId} (tag : e.HeldTagged) (hn : e.NoneHeld id)
    (d : Desk) {xs : List (Nat × Work)} (h : ∀ x ∈ xs, x.2.id ≠ id) : (run e d xs).1.NoneHeld id := by
  induction xs generalizing e d with
  | nil => exact hn
  | cons x xs ih =>
    obtain ⟨now, w⟩ := x
    exact ih (work_heldTagged tag _ _) (work_noneHeld tag hn _ (h _ List.mem_cons_self)) _
      fun y hy => h y (List.mem_cons_of_mem _ hy)

theorem keeps_append {P : Volume → Prop} {e : Engine} {d : Desk} {xs ys : List (Nat × Work)}
    (h : Keeps P e d (xs ++ ys)) : Keeps P (run e d xs).1 (run e d xs).2 ys := by
  induction xs generalizing e d with
  | nil => exact h
  | cons x xs ih => exact ih h.2

theorem Keeps.mono {P Q : Volume → Prop} (hPQ : ∀ v, P v → Q v) {e : Engine} {d : Desk}
    {xs : List (Nat × Work)} (h : Keeps P e d xs) : Keeps Q e d xs := by
  induction xs generalizing e d with
  | nil => exact hPQ _ h
  | cons x xs ih => exact ⟨hPQ _ h.1, ih h.2⟩

theorem keeps_of_append {P : Volume → Prop} {e : Engine} {d : Desk} {xs ys : List (Nat × Work)}
    (h : Keeps P e d (xs ++ ys)) : Keeps P e d xs := by
  induction xs generalizing e d with
  | nil => cases ys with
    | nil => exact h
    | cons y ys => exact h.1
  | cons x xs ih => exact ⟨h.1, ih h.2⟩

theorem Keeps.head {P : Volume → Prop} {e : Engine} {d : Desk} {xs : List (Nat × Work)}
    (h : Keeps P e d xs) : P d.volume := by
  cases xs with
  | nil => exact h
  | cons x xs => exact h.1

end Engine

/-! ## The outgoing transfer -/

theorem Touch.sends {e e' : Engine} {ev : FileEvent} {id : TransferId} {ino : Nat}
    (h : Touch e ev e') (hs : e.Sends id ino) (hoff : ev.isOffer = false) : e'.Sends id ino := by
  cases h with
  | keep => exact hs
  | hold now => intro t ht; exact hs t (by simpa using ht)
  | erase =>
    intro t ht
    by_cases hid : ev.id = id
    · subst hid; simp at ht
    · exact hs t (by simpa [hid] using ht)
  | update t t' hft same =>
    intro u hu
    by_cases hid : ev.id = id
    · subst hid
      simp only [Engine.find?_insert_self, Option.some.injEq] at hu
      subst hu
      obtain ⟨hd, hi⟩ := hs t hft
      exact ⟨same.1.trans hd, same.2.1.trans hi⟩
    · exact hs u (by simpa [hid] using hu)
  | «open» t hof => simp [hof] at hoff

namespace Engine

/-- Jobs other than offers and openings of a transfer keep it an outgoing one of its file. -/
theorem run_sends {e : Engine} {id : TransferId} {ino : Nat} (hs : e.Sends id ino) (d : Desk)
    {xs : List (Nat × Work)} (tag : e.HeldTagged)
    (h : ∀ x ∈ xs, x.2.id = id → ∃ ev, x.2 = .event ev ∧ ev.isOffer = false) :
    (run e d xs).1.Sends id ino := by
  induction xs generalizing e d with
  | nil => exact hs
  | cons x xs ih =>
    obtain ⟨now, w⟩ := x
    have hrest := fun y hy => h y (List.mem_cons_of_mem _ hy)
    rw [run_cons]
    refine ih ?_ _ (work_heldTagged tag _ _) hrest
    by_cases hw : w.id = id
    · obtain ⟨ev, rfl, hoff⟩ := h _ List.mem_cons_self hw
      exact (handle_touch e _ ev).1.sends hs hoff
    · intro t ht
      have hv : (e.work { d with clock := now } w).engine.find? id = e.find? id :=
        congrArg Prod.fst (work_view_of_ne tag { d with clock := now } hw)
      exact hs t (by rw [← hv]; exact ht)

theorem chunk_of_sends {e : Engine} {id : TransferId} {ino : Nat} (hs : e.Sends id ino) (d : Desk)
    (offset : Nat) (data : ByteArray) : e.chunk d id offset data = e.keep d := by
  unfold chunk
  rcases ht : e.find? id with _ | t
  · rfl
  · simp [(hs t ht).1]

/-- While a transfer is not open, its controls, pulls and chunks leave it closed and make no calls
for it. -/
theorem handle_view_of_closed (e : Engine) (d : Desk) {ev : FileEvent} (hin : ev.inFlow = true)
    (hn : e.find? ev.id = none) :
    (e.handle d ev).engine.view (e.handle d ev).desk ev.id = e.view d ev.id := by
  cases ev with
  | control id c => simp only [FileEvent.id] at hn ⊢; simp [handle, control, view, hn]
  | pull id r => simp only [FileEvent.id] at hn ⊢; simp [handle, pull, view, hn]
  | chunk id offset data => simp only [FileEvent.id] at hn ⊢; simp [handle, chunk, view, hn]
  | offered | failed => simp [FileEvent.inFlow] at hin

theorem run_view_of_closed {e : Engine} {id : TransferId} (tag : e.HeldTagged) (d : Desk)
    {xs : List (Nat × Work)} (hn : e.find? id = none)
    (h : ∀ x ∈ xs, x.2.id = id → ∃ ev, x.2 = .event ev ∧ ev.inFlow = true) :
    (run e d xs).1.view (run e d xs).2 id = e.view d id := by
  induction xs generalizing e d with
  | nil => rfl
  | cons x xs ih =>
    obtain ⟨now, w⟩ := x
    have hrest := fun y hy => h y (List.mem_cons_of_mem _ hy)
    have step : (e.work { d with clock := now } w).engine.view
        (e.work { d with clock := now } w).desk id = e.view d id := by
      by_cases hw : w.id = id
      · obtain ⟨ev, rfl, hin⟩ := h _ List.mem_cons_self hw
        simp only [Work.id] at hw
        subst hw
        exact handle_view_of_closed e _ hin hn
      · exact work_view_of_ne tag _ hw
    rw [run_cons, ih (work_heldTagged tag _ _) _ (congrArg Prod.fst step |>.trans hn) hrest, step]

theorem handle_volume_of_holdable (e : Engine) (d : Desk) {ev : FileEvent}
    (hh : ev.holdable = true) : (e.handle d ev).desk.volume = d.volume := by
  cases ev with
  | control id c =>
    simp only [handle, control]
    split
    · rfl
    · split <;> rfl
  | pull id r =>
    simp only [handle, pull]
    split
    · rfl
    · split
      · rfl
      · split
        · rfl
        · split <;> simp
  | _ => simp [FileEvent.holdable] at hh

theorem replay_cons_of_whole (d : Desk) (e : Engine) {ev : FileEvent} (rest : List FileEvent)
    (h : (e.handle d ev).whole = true) :
    replay d (ev :: rest) e = replay (e.handle d ev).desk rest (e.handle d ev).engine := by
  simp [replay, h]

end Engine

theorem heldEvents_cons_of_ne {id : TransferId} (now : Nat) {w : Work} (rest : List (Nat × Work))
    (hw : w.id ≠ id) : heldEvents id ((now, w) :: rest) = heldEvents id rest := by
  cases w with
  | create => rfl
  | event ev =>
    simp only [Work.id] at hw
    simp [heldEvents, hw]

theorem heldEvents_cons_holdable {id : TransferId} (now : Nat) {ev : FileEvent}
    (rest : List (Nat × Work)) (hid : ev.id = id) (hh : ev.holdable = true) :
    heldEvents id ((now, .event ev) :: rest) = ev :: heldEvents id rest := by
  simp [heldEvents, hid, hh]

theorem heldEvents_cons_chunk {id : TransferId} (now : Nat) {ev : FileEvent}
    (rest : List (Nat × Work)) (hh : ev.holdable = false) :
    heldEvents id ((now, .event ev) :: rest) = heldEvents id rest := by
  simp [heldEvents, hh]

namespace Engine

variable {id : TransferId} {ino : Nat} {bytes : ByteArray}

/-- Taking a transfer's controls and pulls as they come, between jobs about other transfers, does
to it what replaying them in one go does. -/
theorem run_view_replay (xs : List (Nat × Work)) {eM eR : Engine} {dM dR : Desk}
    (hv : eM.view dM id = eR.view dR id) (tag : eM.HeldTagged) (hs : eM.Sends id ino)
    (file : Keeps (fun v => v.blob ino = bytes) eM dM xs) (blobR : dR.volume.blob ino = bytes)
    (hb : dM.breaks = dR.breaks) (sure : ∀ c, c.id = id → dR.breaks c = false)
    (early : ∀ x ∈ xs, x.2.id = id → ∃ ev, x.2 = .event ev ∧ ev.inFlow = true) :
    (run eM dM xs).1.view (run eM dM xs).2 id =
      (replay dR (heldEvents id xs) eR).engine.view (replay dR (heldEvents id xs) eR).desk id := by
  induction xs generalizing eM dM eR dR with
  | nil => exact hv
  | cons x rest ih =>
    obtain ⟨now, w⟩ := x
    have hrest := fun y hy => early y (List.mem_cons_of_mem _ hy)
    rw [run_cons]
    by_cases hw : w.id = id
    · obtain ⟨ev, rfl, hin⟩ := early _ List.mem_cons_self hw
      simp only [Work.id] at hw
      subst hw
      have hoff := FileEvent.isOffer_of_inFlow hin
      cases hh : ev.holdable
      · -- a chunk: the outgoing transfer lets it pass, and nothing is held for it
        rw [heldEvents_cons_chunk _ _ hh]
        obtain ⟨id', offset, data, rfl⟩ := FileEvent.eq_chunk_of_inFlow hin hh
        simp only [FileEvent.id] at hs hv sure hrest ⊢
        have file' := file.2
        simp only [work, handle, chunk_of_sends hs, keep_engine, keep_desk] at file' ⊢
        exact ih hv tag hs file' blobR hb sure hrest
      · rw [heldEvents_cons_holdable _ _ rfl hh,
          replay_cons_of_whole _ _ _ (handle_whole eR fun c hc => sure c hc)]
        have hblob : ∀ t, eM.find? ev.id = some t →
            ({ dM with clock := now } : Desk).volume.blob t.inode = dR.volume.blob t.inode := by
          intro t ht
          rw [(hs t ht).2, blobR]
          exact file.1
        have hstep := handle_view_congr { dM with clock := now } dR hoff hv hblob hb
        refine ih hstep (handle_heldTagged tag _ _) ((handle_touch eM _ ev).1.sends hs hoff) file.2
          ?_ (by simp [hb]) (by simpa using sure) hrest
        rw [handle_volume_of_holdable _ _ hh, blobR]
    · rw [heldEvents_cons_of_ne _ _ hw]
      have hstep := work_view_of_ne tag { dM with clock := now } hw
      have hf : (eM.work { dM with clock := now } w).engine.find? id = eM.find? id :=
        congrArg Prod.fst hstep
      refine ih (hstep.trans hv) (work_heldTagged tag _ _) ?_ file.2 blobR (by simp [hb]) sure hrest
      intro t ht
      rw [hf] at ht
      exact hs t ht

/-- Opening a transfer that is not open, from a file that opens, replays what is held for it on the
new transfer: outgoing, paused, at the start of the file. -/
theorem register_eq_replay {e : Engine} (d : Desk) {id : TransferId} {path : String} {ino : Nat}
    (size : Nat) (hn : e.find? id = none) (hopen : d.volume.openFile path = .ok ino) :
    e.register d id path size =
      replay d (e.takeHeld id).2 ((e.takeHeld id).1.insert id (.outbound ino size path)) := by
  simp [register, hn, hopen]

/-- Opening a transfer for which nothing is held just inserts it. -/
theorem register_of_noneHeld {e : Engine} (d : Desk) {id : TransferId} {path : String} {ino : Nat}
    (size : Nat) (hn : e.find? id = none) (hh : e.NoneHeld id)
    (hopen : d.volume.openFile path = .ok ino) :
    e.register d id path size =
      ((e.takeHeld id).1.insert id (.outbound ino size path)).keep d := by
  rw [register_eq_replay d size hn hopen, takeHeld_of_noneHeld hh]
  rfl

theorem sends_insert {e : Engine} (id : TransferId) {t : Ongoing} (ht : t.direction = .outbound) :
    (e.insert id t).Sends id t.inode := by
  intro t' h
  rw [find?_insert_self, Option.some.injEq] at h
  subst h
  exact ⟨ht, rfl⟩

end Engine

theorem offers_of_inFlow {id : TransferId} {xs : List (Nat × Work)}
    (h : ∀ x ∈ xs, x.2.id = id → ∃ ev, x.2 = .event ev ∧ ev.inFlow = true) :
    ∀ x ∈ xs, x.2.id = id → ∃ ev, x.2 = .event ev ∧ ev.isOffer = false := by
  intro x hx hid
  obtain ⟨ev, hev, hin⟩ := h x hx hid
  exact ⟨ev, hev, FileEvent.isOffer_of_inFlow hin⟩

end Courier.Transfer
