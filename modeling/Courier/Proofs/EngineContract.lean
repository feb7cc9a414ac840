-- The worker's contract: what the work of one file event may call and do to the open transfers, and
-- that every run of the worker is a chain of such steps, so the contract holds over a whole run.
import Courier.Proofs.TransferFrame
import Mathlib

namespace Courier.Files.Volume

theorem size_of_readAt {v : Volume} {i o len : Nat} {data : ByteArray} (h : v.readAt i o len = .ok data) :
    data.size = len := by
  unfold readAt at h
  split at h
  · cases h
  · dsimp only at h
    split at h
    · cases h
      simp only [ByteArray.size_extract]
      omega
    · cases h

end Courier.Files.Volume

namespace Courier.Transfer

open Files

/-! ## What one step may do -/

/-- The calls a desk has made since an earlier one. -/
def Desk.since (d' d : Desk) : List Call := d'.calls.toList.drop d.calls.size

/-- The step opens a new incoming, active transfer under the id. -/
def Engine.OpensIncoming (e e' : Engine) (id : TransferId) : Prop :=
  e.find? id = none ∧ ∃ st, e'.find? id = some st ∧ st.direction = .inbound ∧ st.activity = .active

/-- An offer is refused: its name is unusable, or the transfer is not open yet and the file for
its name cannot be made in the receive directory. -/
def Engine.Refuses (e : Engine) (d : Desk) (id : TransferId) (name : String) : Prop :=
  sanitizeName name = none ∨
    (e.find? id = none ∧ ∃ n err, sanitizeName name = some n ∧
      d.volume.createFile (join e.receiveDir n) = .error err)

/-- The events that may drop an open transfer: a cancel, a file error, a pull of length zero of
an active outgoing transfer, and an empty chunk of an active incoming one. -/
def FileEvent.Ends (ev : FileEvent) (id : TransferId) (st : Ongoing) : Prop :=
  ev = .control id .cancel ∨ (∃ err, ev = .failed id err) ∨
    (∃ r, ev = .pull id r ∧ r.length = 0 ∧ st.direction = .outbound ∧ st.activity = .active) ∨
    (∃ o data, ev = .chunk id o data ∧ data.size = 0 ∧ st.direction = .inbound ∧
      st.activity = .active)

/-- The calls the work of one file event `ev` may make, from engine `e` and desk `d` to the turn
`t`. -/
structure Engine.Issues (e : Engine) (d : Desk) (ev : FileEvent) (t : Turn) : Prop where
  /-- The calls made before stay, and at most one is added. -/
  calls_grow : t.desk.calls.toList = d.calls.toList ++ t.desk.since d
  one_call : (t.desk.since d).length ≤ 1
  /-- A chunk answers a pull of nonzero length of an open, outgoing, active transfer whose read
  succeeds, with the bytes read from the offset asked for. -/
  chunk_sent : ∀ id o data, Call.chunk id o data ∈ t.desk.since d →
    ∃ r st, ev = .pull id r ∧ r.length ≠ 0 ∧ e.find? id = some st ∧ st.direction = .outbound ∧
      st.activity = .active ∧ d.volume.readAt st.inode r.offset r.length = .ok data ∧
      o = r.offset ∧ data.size = r.length
  /-- A control answers an offer. -/
  control_sent : ∀ id c, Call.control id c ∈ t.desk.since d → ∃ name size, ev = .offered id name size
  resume_sent : ∀ id name size, ev = .offered id name size →
    (Call.control id .resume ∈ t.desk.since d ↔
      e.OpensIncoming t.engine id ∧ d.breaks (.control id .resume) = false)
  cancel_sent : ∀ id name size, ev = .offered id name size →
    (Call.control id .cancel ∈ t.desk.since d ↔
      e.Refuses d id name ∧ d.breaks (.control id .cancel) = false)

/-- What the work of one file event `ev` may do to the open transfers, from `e` to `e'`: it
respects them. -/
structure Engine.Respects (e : Engine) (ev : FileEvent) (e' : Engine) : Prop where
  /-- An open transfer keeps its direction. -/
  direction_kept : ∀ id st st', e.find? id = some st → e'.find? id = some st' →
    st'.direction = st.direction
  /-- Its activity changes only on a pause or a resume. -/
  activity_kept : ∀ id st st', e.find? id = some st → e'.find? id = some st' →
    st'.activity ≠ st.activity → ev = .control id .pause ∨ ev = .control id .resume
  /-- It is dropped only by an event that ends it. -/
  dropped_by_end : ∀ id st, e.find? id = some st → e'.find? id = none → ev.Ends id st

/-- The contract of the work of one file event: its calls and what it does to the transfers. -/
structure Engine.Obeys (e : Engine) (d : Desk) (ev : FileEvent) (t : Turn) : Prop where
  issues : e.Issues d ev t
  respects : e.Respects ev t.engine

/-! ## Calls -/

namespace Desk

theorem since_of_calls {d' d : Desk} (h : d'.calls = d.calls) : d'.since d = [] := by
  rw [since, h, ← Array.length_toList, List.drop_length]

theorem since_call_of {d' d : Desk} (h : d'.calls = d.calls) (hb : d'.breaks = d.breaks) (c : Call) :
    (d'.call c).1.since d = if d.breaks c then [] else [c] := by
  unfold call since
  rw [hb]
  split
  · rw [h, ← Array.length_toList, List.drop_length]
  · simp [h, Array.length_toList]

theorem since_call (d : Desk) (c : Call) : (d.call c).1.since d = if d.breaks c then [] else [c] :=
  since_call_of rfl rfl c

theorem since_call_setVolume (d : Desk) (v : Volume) (c : Call) :
    (({ d with volume := v } : Desk).call c).1.since d = if d.breaks c then [] else [c] :=
  @since_call_of { d with volume := v } d rfl rfl c

theorem calls_of_prefix {d' d : Desk} (h : d.calls.toList <+: d'.calls.toList) :
    d'.calls.toList = d.calls.toList ++ d'.since d := by
  rw [since, ← Array.length_toList]
  exact (List.prefix_iff_eq_append.1 h).symm

theorem since_trans {d₀ d₁ d₂ : Desk} (h₀₁ : d₀.calls.toList <+: d₁.calls.toList)
    (h₁₂ : d₁.calls.toList <+: d₂.calls.toList) : d₂.since d₀ = d₁.since d₀ ++ d₂.since d₁ := by
  have h₁ := calls_of_prefix h₀₁
  have h₂ := calls_of_prefix h₁₂
  have h₀₂ := calls_of_prefix (h₀₁.trans h₁₂)
  rw [h₁, List.append_assoc] at h₂
  rw [h₂] at h₀₂
  exact (List.append_cancel_left h₀₂).symm

theorem calls_prefix_call (d' : Desk) {d : Desk} (h : d'.calls = d.calls) (c : Call) :
    d.calls.toList <+: (d'.call c).1.calls.toList := by
  unfold call
  split
  · rw [h]
  · simp [h]

end Desk

namespace Engine

variable {e : Engine} {d : Desk} {ev : FileEvent} {t : Turn}

theorem issues_none (hc : t.desk.calls = d.calls)
    (hoff : ∀ id name size, ev = .offered id name size → ¬ e.Refuses d id name ∧ (e.find? id).isSome) :
    e.Issues d ev t where
  calls_grow := by rw [Desk.since_of_calls hc, hc, List.append_nil]
  one_call := by simp [Desk.since_of_calls hc]
  chunk_sent := by simp [Desk.since_of_calls hc]
  control_sent := by simp [Desk.since_of_calls hc]
  resume_sent := by
    intro id name size hev
    have hsome := (hoff id name size hev).2
    simp only [Desk.since_of_calls hc, List.not_mem_nil, false_iff]
    rintro ⟨⟨hnone, -⟩, -⟩
    simp [hnone] at hsome
  cancel_sent := by
    intro id name size hev
    simp only [Desk.since_of_calls hc, List.not_mem_nil, false_iff]
    exact fun h => (hoff id name size hev).1 h.1

theorem issues_none_of_not_offer (hc : t.desk.calls = d.calls) (hoff : ev.isOffer = false) :
    e.Issues d ev t :=
  issues_none hc fun _ _ _ hev => by subst hev; cases hoff

/-! ## What one step does to the transfers -/

theorem respects_of_find? {e' : Engine} (hf : ∀ id, e'.find? id = e.find? id) : e.Respects ev e' where
  direction_kept := by
    intro id st st' h h'
    rw [hf, h] at h'
    cases h'
    rfl
  activity_kept := by
    intro id st st' h h' hne
    rw [hf, h] at h'
    cases h'
    exact absurd rfl hne
  dropped_by_end := by
    intro id st h h'
    rw [hf, h] at h'
    cases h'

theorem respects_at {e' : Engine} {id : TransferId} (hother : ∀ id', id' ≠ id → e'.find? id' = e.find? id')
    (hdir : ∀ st st', e.find? id = some st → e'.find? id = some st' → st'.direction = st.direction)
    (hact : ∀ st st', e.find? id = some st → e'.find? id = some st' → st'.activity ≠ st.activity →
      ev = .control id .pause ∨ ev = .control id .resume)
    (hdrop : ∀ st, e.find? id = some st → e'.find? id = none → ev.Ends id st) :
    e.Respects ev e' := by
  -- away from `id` the step changes nothing, so there each field holds as of a step that stays
  refine ⟨?_, ?_, ?_⟩
  · intro id' s s' hs hs'
    by_cases hid : id' = id
    · subst hid
      exact hdir s s' hs hs'
    · rw [hother id' hid, hs] at hs'
      cases hs'
      rfl
  · intro id' s s' hs hs' hne
    by_cases hid : id' = id
    · subst hid
      exact hact s s' hs hs' hne
    · rw [hother id' hid, hs] at hs'
      cases hs'
      exact absurd rfl hne
  · intro id' s hs hs'
    by_cases hid : id' = id
    · subst hid
      exact hdrop s hs hs'
    · rw [hother id' hid, hs] at hs'
      cases hs'

/-- A step that changes one open transfer, keeping its direction, and its activity unless the
event is a pause or a resume of it, respects the transfers. -/
theorem respects_insert {id : TransferId} {st st' : Ongoing} (h : e.find? id = some st)
    (hdir : st'.direction = st.direction)
    (hact : st'.activity ≠ st.activity → ev = .control id .pause ∨ ev = .control id .resume) :
    e.Respects ev (e.insert id st') := by
  refine respects_at (fun id' hid => find?_insert_ne e st' (Ne.symm hid)) ?_ ?_ ?_
  · intro s s' hs hs'
    rw [h] at hs
    rw [find?_insert_self] at hs'
    cases hs
    cases hs'
    exact hdir
  · intro s s' hs hs'
    rw [h] at hs
    rw [find?_insert_self] at hs'
    cases hs
    cases hs'
    exact hact
  · intro s _ hs'
    rw [find?_insert_self] at hs'
    cases hs'

theorem respects_insert_new {id : TransferId} {st' : Ongoing} (h : e.find? id = none) :
    e.Respects ev (e.insert id st') := by
  refine respects_at (fun id' hid => find?_insert_ne e st' (Ne.symm hid)) ?_ ?_ ?_ <;>
    intros <;> simp_all

/-- A step that drops one transfer, by an event that ends it, respects the others. -/
theorem respects_erase {id : TransferId} (h : ∀ st, e.find? id = some st → ev.Ends id st) :
    e.Respects ev (e.erase id) := by
  refine respects_at (fun id' hid => find?_erase_ne e (Ne.symm hid)) ?_ ?_ (fun st hs _ => h st hs) <;>
    intros <;> simp_all

/-! ## What one step sends -/

theorem mem_since_call {d' : Desk} {c c' : Call} (hm : c' ∈ (d'.call c).1.since d)
    (h : d'.calls = d.calls) (hb : d'.breaks = d.breaks) : c' = c ∧ d.breaks c = false := by
  rw [Desk.since_call_of h hb] at hm
  split at hm
  · cases hm
  · rename_i hb
    simp only [List.mem_singleton] at hm
    exact ⟨hm, by simpa using hb⟩

/-- A pull of nonzero length of an open, outgoing, active transfer whose read succeeds sends the
bytes read. -/
theorem issues_chunk {id : TransferId} {r : ChunkRequest} {st st' : Ongoing} {data : ByteArray}
    (hlen : r.length ≠ 0) (h : e.find? id = some st) (hout : st.direction = .outbound)
    (hact : st.activity = .active) (hread : d.volume.readAt st.inode r.offset r.length = .ok data) :
    e.Issues d (.pull id r) ((e.insert id st').calling d (.chunk id r.offset data)) where
  calls_grow := Desk.calls_of_prefix (Desk.calls_prefix_call d rfl _)
  one_call := by rw [calling_desk, Desk.since_call]; split <;> simp
  chunk_sent := by
    intro id' o data' hm
    obtain ⟨hc, -⟩ := mem_since_call hm rfl rfl
    cases hc
    exact ⟨r, st, rfl, hlen, h, hout, hact, hread, rfl, Files.Volume.size_of_readAt hread⟩
  control_sent := by
    intro id' c hm
    obtain ⟨hc, -⟩ := mem_since_call hm rfl rfl
    cases hc
  resume_sent := by intro _ _ _ hev; cases hev
  cancel_sent := by intro _ _ _ hev; cases hev

/-- An offer with a usable name, for a transfer not open yet, whose file is made, opens an
incoming active transfer and resumes it. -/
theorem issues_resume {id : TransferId} {name n : String} {size ino : Nat} {v : Volume}
    (hn : sanitizeName name = some n) (h : e.find? id = none)
    (hc : d.volume.createFile (join e.receiveDir n) = .ok (v, ino)) :
    e.Issues d (.offered id name size)
      ((e.insert id (.inbound ino size (join e.receiveDir n))).calling
        { d with volume := v } (.control id .resume)) where
  calls_grow := Desk.calls_of_prefix (Desk.calls_prefix_call { d with volume := v } rfl _)
  one_call := by rw [calling_desk, Desk.since_call_setVolume]; split <;> simp
  chunk_sent := by
    intro id' o data hm
    obtain ⟨hc, -⟩ := mem_since_call hm rfl rfl
    cases hc
  control_sent := by
    intro id' c hm
    obtain ⟨hc, -⟩ := mem_since_call hm rfl rfl
    cases hc
    exact ⟨name, size, rfl⟩
  resume_sent := by
    intro id' name' size' hev
    cases hev
    have hopen : e.OpensIncoming (e.insert id (.inbound ino size (join e.receiveDir n))) id :=
      ⟨h, _, find?_insert_self e id _, rfl, rfl⟩
    rw [calling_desk, calling_engine, Desk.since_call_setVolume]
    split <;> simp_all
  cancel_sent := by
    intro id' name' size' hev
    cases hev
    have hnot : ¬ e.Refuses d id name := by
      rintro (hnone | ⟨-, n', err, hn', herr⟩)
      · rw [hn] at hnone
        cases hnone
      · rw [hn] at hn'
        cases hn'
        rw [hc] at herr
        cases herr
    rw [calling_desk, Desk.since_call_setVolume]
    split <;> simp_all

/-- A refused offer is cancelled. -/
theorem issues_cancel {id : TransferId} {name : String} {size : Nat} (hr : e.Refuses d id name) :
    e.Issues d (.offered id name size) (e.calling d (.control id .cancel)) where
  calls_grow := Desk.calls_of_prefix (Desk.calls_prefix_call d rfl _)
  one_call := by rw [calling_desk, Desk.since_call]; split <;> simp
  chunk_sent := by
    intro id' o data hm
    obtain ⟨hc, -⟩ := mem_since_call hm rfl rfl
    cases hc
  control_sent := by
    intro id' c hm
    obtain ⟨hc, -⟩ := mem_since_call hm rfl rfl
    cases hc
    exact ⟨name, size, rfl⟩
  resume_sent := by
    intro id' name' size' hev
    cases hev
    rw [calling_desk, calling_engine, Desk.since_call]
    -- the engine is left as it was, so no transfer opened
    have hno : ¬ e.OpensIncoming e id := by
      rintro ⟨hnone, st, hst, -⟩
      rw [hnone] at hst
      cases hst
    split <;> simp_all
  cancel_sent := by
    intro id' name' size' hev
    cases hev
    rw [calling_desk, Desk.since_call]
    split <;> simp_all

/-! ## Each kind of event keeps the contract -/

theorem obeys_still (hc : t.desk.calls = d.calls) (hf : ∀ id, t.engine.find? id = e.find? id)
    (hoff : ∀ id name size, ev = .offered id name size → ¬ e.Refuses d id name ∧ (e.find? id).isSome) :
    e.Obeys d ev t :=
  ⟨issues_none hc hoff, respects_of_find? hf⟩

theorem obeys_keep {e' : Engine} (hoff : ev.isOffer = false) (hf : ∀ id, e'.find? id = e.find? id) :
    e.Obeys d ev (e'.keep d) :=
  ⟨issues_none_of_not_offer rfl hoff, respects_of_find? hf⟩

theorem offered_obeys (id : TransferId) (name : String) (size : Nat) :
    e.Obeys d (.offered id name size) (e.offered d id name size) := by
  unfold offered
  split
  · rename_i hnone
    exact ⟨issues_cancel (.inl hnone), respects_of_find? fun _ => rfl⟩
  · rename_i n hn
    split
    · rename_i hsome
      refine obeys_still rfl (fun _ => rfl) ?_
      intro id' name' size' hev
      cases hev
      refine ⟨?_, hsome⟩
      rintro (hnone | ⟨hnone, -⟩)
      · rw [hn] at hnone
        cases hnone
      · rw [hnone] at hsome
        cases hsome
    · rename_i hnone
      have hnone : e.find? id = none := by simpa using hnone
      dsimp only
      split
      · rename_i v ino hc
        exact ⟨issues_resume hn hnone hc, respects_insert_new hnone⟩
      · rename_i err hc
        exact ⟨issues_cancel (.inr ⟨hnone, n, err, hn, hc⟩), respects_of_find? fun _ => rfl⟩

/-- A control is held for a transfer not open yet, and otherwise cancels, pauses or resumes it. -/
theorem control_obeys (id : TransferId) (c : FileControl) :
    e.Obeys d (.control id c) (e.control d id c) := by
  unfold control
  rcases ht : e.find? id with _ | st
  · exact obeys_keep rfl fun id' => find?_hold e _ _ id' _
  · dsimp only
    cases c with
    | resume =>
      exact ⟨issues_none_of_not_offer rfl rfl,
        respects_insert ht rfl fun _ => .inr rfl⟩
    | pause =>
      exact ⟨issues_none_of_not_offer rfl rfl,
        respects_insert ht rfl fun _ => .inl rfl⟩
    | cancel =>
      exact ⟨issues_none_of_not_offer rfl rfl,
        respects_erase fun _ _ => .inl rfl⟩

/-- A pull is held for a transfer not open yet; of an active outgoing one it ends it when empty
and otherwise sends the bytes read, if the read succeeds. -/
theorem pull_obeys (id : TransferId) (r : ChunkRequest) : e.Obeys d (.pull id r) (e.pull d id r) := by
  unfold pull
  rcases ht : e.find? id with _ | st
  · exact obeys_keep rfl fun id' => find?_hold e _ _ id' _
  · dsimp only
    split
    · exact obeys_keep rfl fun _ => rfl
    · rename_i hmoves
      have hout : st.direction = .outbound := by simp_all
      have hact : st.activity = .active := by simp_all
      split
      · rename_i hz
        have hz : r.length = 0 := by simpa using hz
        refine ⟨issues_none_of_not_offer rfl rfl, respects_erase fun s hs => ?_⟩
        rw [ht] at hs
        cases hs
        exact .inr (.inr (.inl ⟨r, rfl, hz, hout, hact⟩))
      · rename_i hz
        have hz : r.length ≠ 0 := by simpa using hz
        split
        · rename_i data hread
          exact ⟨issues_chunk hz ht hout hact hread, respects_insert ht rfl fun hne => absurd rfl hne⟩
        · exact ⟨issues_none_of_not_offer rfl rfl, respects_insert ht rfl fun hne => absurd rfl hne⟩

/-- A chunk of an active incoming transfer ends it when empty and is otherwise written; any other
chunk changes nothing. -/
theorem chunk_obeys (id : TransferId) (o : Nat) (data : ByteArray) :
    e.Obeys d (.chunk id o data) (e.chunk d id o data) := by
  unfold chunk
  rcases ht : e.find? id with _ | st
  · exact obeys_keep rfl fun _ => rfl
  · dsimp only
    split
    · exact obeys_keep rfl fun _ => rfl
    · rename_i hmoves
      have hin : st.direction = .inbound := by simp_all
      have hact : st.activity = .active := by simp_all
      split
      · rename_i hz
        have hz : data.size = 0 := by simpa using hz
        refine ⟨issues_none_of_not_offer rfl rfl, respects_erase fun s hs => ?_⟩
        rw [ht] at hs
        cases hs
        exact .inr (.inr (.inr ⟨o, data, rfl, hz, hin, hact⟩))
      · -- the file moves whether the write goes through or not
        split <;> exact ⟨issues_none_of_not_offer rfl rfl, respects_insert ht rfl fun hne => absurd rfl hne⟩

/-- The work of every file event keeps the contract. -/
theorem handle_obeys (e : Engine) (d : Desk) (ev : FileEvent) : e.Obeys d ev (e.handle d ev) := by
  cases ev with
  | offered id name size => exact offered_obeys id name size
  | control id c => exact control_obeys id c
  | pull id r => exact pull_obeys id r
  | chunk id o data => exact chunk_obeys id o data
  | failed id err =>
    exact ⟨issues_none_of_not_offer rfl rfl,
      respects_erase fun _ _ => .inr (.inl ⟨err, rfl⟩)⟩

/-! ## A run is a chain of steps -/

/-- One step of the worker: the clock steps on; one file event is worked; an accepted outgoing
file is opened as a new paused transfer, its held events taken out to be replayed; or one that
cannot be opened is let go, its held events dropped. -/
inductive Step : Engine × Desk → Engine × Desk → Prop
  | tick (e : Engine) (d : Desk) (now : Nat) : Step (e, d) (e, { d with clock := now })
  | event (e : Engine) (d : Desk) (ev : FileEvent) :
      Step (e, d) ((e.handle d ev).engine, (e.handle d ev).desk)
  | opening (e : Engine) (d : Desk) (id : TransferId) (path : String) (size ino : Nat)
      (hnone : e.find? id = none) (hopen : d.volume.openFile path = .ok ino) :
      Step (e, d) ((e.takeHeld id).1.insert id (.outbound ino size path), d)
  | refusal (e : Engine) (d : Desk) (id : TransferId) (path : String) (err : Errno)
      (hnone : e.find? id = none) (hopen : d.volume.openFile path = .error err) :
      Step (e, d) ((e.takeHeld id).1, d)

/-- The steps of a run, one after another. -/
abbrev Steps : Engine × Desk → Engine × Desk → Prop := Relation.ReflTransGen Step

/-- A replay works its events one by one, and stops after one that breaks down. -/
theorem replay_steps (d : Desk) (evs : List FileEvent) (e : Engine) :
    Steps (e, d) ((replay d evs e).engine, (replay d evs e).desk) := by
  induction evs generalizing e d with
  | nil => exact Relation.ReflTransGen.refl
  | cons ev rest ih =>
    have hstep : Steps (e, d) ((e.handle d ev).engine, (e.handle d ev).desk) :=
      Relation.ReflTransGen.single (.event e d ev)
    simp only [replay]
    split
    · exact hstep.trans (ih _ _)
    · exact hstep

/-- Opening an outgoing file is an opening or a refusal, then the replay of its held events. -/
theorem register_steps (e : Engine) (d : Desk) (id : TransferId) (path : String) (size : Nat) :
    Steps (e, d) ((e.register d id path size).engine, (e.register d id path size).desk) := by
  unfold register
  split
  · exact Relation.ReflTransGen.refl
  · rename_i hsome
    have hnone : e.find? id = none := by simpa using hsome
    dsimp only
    split
    · rename_i ino hopen
      exact (Relation.ReflTransGen.single (.opening e d id path size ino hnone hopen)).trans
        (replay_steps _ _ _)
    · rename_i err hopen
      exact Relation.ReflTransGen.single (.refusal e d id path err hnone hopen)

theorem work_steps (e : Engine) (d : Desk) (w : Work) :
    Steps (e, d) ((e.work d w).engine, (e.work d w).desk) := by
  cases w with
  | create id path size => exact register_steps e d id path size
  | event ev => exact Relation.ReflTransGen.single (.event e d ev)

/-- Every run of the worker is a chain of steps. -/
theorem run_steps (e : Engine) (d : Desk) (ws : List (Nat × Work)) : Steps (e, d) (e.run d ws) := by
  induction ws generalizing e d with
  | nil => exact Relation.ReflTransGen.refl
  | cons w rest ih =>
    obtain ⟨now, w⟩ := w
    exact (Relation.ReflTransGen.single (.tick e d now)).trans
      ((work_steps e _ w).trans (ih _ _))

/-! ## What a whole run does -/

/-- The run from `s` to `s'` works the file event `ev` at engine `e` and desk `d` on its way. -/
def Works (s s' : Engine × Desk) (e : Engine) (d : Desk) (ev : FileEvent) : Prop :=
  Steps s (e, d) ∧ Steps ((e.handle d ev).engine, (e.handle d ev).desk) s'

theorem Works.tail {s s₁ s₂ : Engine × Desk} {ev : FileEvent} (h : Works s s₁ e d ev)
    (step : Step s₁ s₂) : Works s s₂ e d ev :=
  ⟨h.1, h.2.tail step⟩

theorem Works.last {s : Engine × Desk} (hs : Steps s (e, d)) (ev : FileEvent) :
    Works s ((e.handle d ev).engine, (e.handle d ev).desk) e d ev :=
  ⟨hs, .refl⟩

/-- Over a run the calls made before stay, and every call made comes from the work of one file
event on the way. -/
theorem Steps.calls_from_events {s s' : Engine × Desk} (h : Steps s s') :
    s.2.calls.toList <+: s'.2.calls.toList ∧
      ∀ c ∈ s'.2.since s.2, ∃ e d ev, Works s s' e d ev ∧ c ∈ (e.handle d ev).desk.since d := by
  induction h with
  | refl => exact ⟨List.prefix_refl _, by simp [Desk.since_of_calls rfl]⟩
  | @tail s₁ s₂ hsteps step ih =>
    obtain ⟨hpre, hcalls⟩ := ih
    have hcalls' : ∀ c ∈ s₁.2.since s.2, ∃ e d ev, Works s s₂ e d ev ∧ c ∈ (e.handle d ev).desk.since d := by
      intro c hc
      obtain ⟨e, d, ev, hw, hm⟩ := hcalls c hc
      exact ⟨e, d, ev, hw.tail step, hm⟩
    -- only the work of a file event makes calls
    cases step with
    | tick e d now => exact ⟨hpre, hcalls'⟩
    | event e d ev =>
      have hpre' : d.calls.toList <+: (e.handle d ev).desk.calls.toList := by
        rw [(handle_obeys e d ev).issues.calls_grow]
        exact List.prefix_append _ _
      refine ⟨hpre.trans hpre', fun c hc => ?_⟩
      rw [Desk.since_trans hpre hpre', List.mem_append] at hc
      rcases hc with hc | hc
      · exact hcalls' c hc
      · exact ⟨e, d, ev, Works.last hsteps ev, hc⟩
    | opening => exact ⟨hpre, hcalls'⟩
    | refusal => exact ⟨hpre, hcalls'⟩

/-- Over a run, a transfer open at its start is dropped on the way by an event that ends it, or
is open at its end in the same direction, with the same activity unless a pause or a resume of
it was worked on the way while it was open. -/
theorem Steps.transfer_kept {s s' : Engine × Desk} (h : Steps s s') {id : TransferId} {st : Ongoing}
    (hst : s.1.find? id = some st) :
    (∃ e d ev st₁, Works s s' e d ev ∧ e.find? id = some st₁ ∧
      (e.handle d ev).engine.find? id = none ∧ ev.Ends id st₁) ∨
    ∃ st', s'.1.find? id = some st' ∧ st'.direction = st.direction ∧
      (st'.activity ≠ st.activity → ∃ e d ev, Works s s' e d ev ∧ (e.find? id).isSome ∧
        (ev = .control id .pause ∨ ev = .control id .resume)) := by
  induction h with
  | refl => exact .inr ⟨st, hst, rfl, fun hne => absurd rfl hne⟩
  | @tail s₁ s₂ hsteps step ih =>
    rcases ih with ⟨e, d, ev, st₁, hw, h₁, h₂, hend⟩ | ⟨st₁, h₁, hdir, hact⟩
    · exact .inl ⟨e, d, ev, st₁, hw.tail step, h₁, h₂, hend⟩
    · have hact' : st₁.activity ≠ st.activity → ∃ e d ev, Works s s₂ e d ev ∧
          (e.find? id).isSome ∧ (ev = .control id .pause ∨ ev = .control id .resume) := by
        intro hne
        obtain ⟨e, d, ev, hw, ho, hev⟩ := hact hne
        exact ⟨e, d, ev, hw.tail step, ho, hev⟩
      -- only the work of a file event touches an open transfer; an opening takes a new id
      cases step with
      | tick e d now => exact .inr ⟨st₁, h₁, hdir, hact'⟩
      | event e d ev =>
        have hr := (handle_obeys e d ev).respects
        rcases h₂ : (e.handle d ev).engine.find? id with _ | st₂
        · exact .inl ⟨e, d, ev, st₁, Works.last hsteps ev, h₁, h₂, hr.dropped_by_end id st₁ h₁ h₂⟩
        · refine .inr ⟨st₂, rfl, (hr.direction_kept id st₁ st₂ h₁ h₂).trans hdir, fun hne => ?_⟩
          by_cases hsame : st₂.activity = st₁.activity
          · exact hact' (hsame ▸ hne)
          · exact ⟨e, d, ev, Works.last hsteps ev, by simp [h₁],
              hr.activity_kept id st₁ st₂ h₁ h₂ hsame⟩
      | opening e d id' path size ino hnone =>
        have hne : id' ≠ id := by
          rintro rfl
          simp [hnone] at h₁
        exact .inr ⟨st₁, by dsimp only; rw [find?_insert_ne _ _ hne, find?_takeHeld]; exact h₁, hdir, hact'⟩
      | refusal e d id' path err hnone => exact .inr ⟨st₁, by simpa using h₁, hdir, hact'⟩

end Engine

/-- The contract over a whole run: every call the run makes comes from the work of a file event
on its way, and that work keeps the contract, so a chunk the run sends answers a pull of nonzero
length of a transfer open, outgoing and active there, with the bytes read from the offset asked
for; and a transfer open at the run's start is dropped on the way by an event that ends it, or
open at its end in the same direction, its activity changed only by a pause or a resume of it
worked on the way. -/
theorem worker_runs_keep_the_contract (e : Engine) (d : Desk) (ws : List (Nat × Work)) :
    (∀ c ∈ (e.run d ws).2.since d, ∃ e₁ d₁ ev, Engine.Works (e, d) (e.run d ws) e₁ d₁ ev ∧
      e₁.Obeys d₁ ev (e₁.handle d₁ ev) ∧ c ∈ (e₁.handle d₁ ev).desk.since d₁) ∧
    (∀ id o data, Call.chunk id o data ∈ (e.run d ws).2.since d → ∃ e₁ d₁ r st,
      Engine.Works (e, d) (e.run d ws) e₁ d₁ (.pull id r) ∧ r.length ≠ 0 ∧
      e₁.find? id = some st ∧ st.direction = .outbound ∧ st.activity = .active ∧
      o = r.offset ∧ d₁.volume.readAt st.inode r.offset r.length = .ok data) ∧
    (∀ id st, e.find? id = some st →
      (∃ e₁ d₁ ev st₁, Engine.Works (e, d) (e.run d ws) e₁ d₁ ev ∧ e₁.find? id = some st₁ ∧
        (e₁.handle d₁ ev).engine.find? id = none ∧ ev.Ends id st₁) ∨
      ∃ st', (e.run d ws).1.find? id = some st' ∧ st'.direction = st.direction ∧
        (st'.activity ≠ st.activity → ∃ e₁ d₁ ev, Engine.Works (e, d) (e.run d ws) e₁ d₁ ev ∧
          (e₁.find? id).isSome ∧ (ev = .control id .pause ∨ ev = .control id .resume))) := by
  have hsteps := Engine.run_steps e d ws
  have hcalls := (Engine.Steps.calls_from_events hsteps).2
  refine ⟨fun c hc => ?_, fun id o data hc => ?_, fun id st hst => hsteps.transfer_kept hst⟩
  · obtain ⟨e₁, d₁, ev, hw, hm⟩ := hcalls c hc
    exact ⟨e₁, d₁, ev, hw, Engine.handle_obeys e₁ d₁ ev, hm⟩
  · -- the event whose work sent the chunk was a pull, by the contract of one step
    obtain ⟨e₁, d₁, ev, hw, hm⟩ := hcalls _ hc
    obtain ⟨r, st, rfl, hlen, hf, hdir, hact, hread, ho, -⟩ :=
      (Engine.handle_obeys e₁ d₁ ev).issues.chunk_sent id o data hm
    exact ⟨e₁, d₁, r, st, hw, hlen, hf, hdir, hact, ho, hread⟩

/-- The worker keeps its contract: the work of every file event makes at most one call, a chunk
only for a pull of nonzero length of an open, outgoing, active transfer whose read succeeds and
with the bytes asked for, and a control only for an offer, a resume exactly when the offer opens
a new incoming active transfer and a cancel exactly when it is refused; it never turns a transfer
around, changes its activity only on a pause or a resume, and drops it only on an event that ends
it. Every run of the worker, the early events it replays included, is a chain of such steps,
ticks of the clock, and openings or refusals of accepted outgoing files. -/
theorem worker_steps_keep_the_contract :
    (∀ (e : Engine) (d : Desk) (ev : FileEvent), e.Obeys d ev (e.handle d ev)) ∧
    (∀ (e : Engine) (d : Desk) (ws : List (Nat × Work)), Engine.Steps (e, d) (e.run d ws)) :=
  ⟨Engine.handle_obeys, Engine.run_steps⟩

end Courier.Transfer
