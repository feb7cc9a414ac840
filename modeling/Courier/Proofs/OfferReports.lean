-- The report of a send request: whatever the walk and the order of the replies, one offer is made
-- for each file, one open job for each accepted one, and the report lists both in walk order.
import Courier.Transfer.Offering
import Courier.Proofs.EngineSteps
import Mathlib

namespace Courier.Transfer

namespace Offering

/-! ## What the request should answer -/

/-- The offer of a file: its last name and its size. -/
def info (f : SourceFile) : String × Nat := (Files.offerName f.path, f.size)

/-- The file at place `i` of the walk, when the peer accepted it, with the id it gave. -/
def acceptedAt (files : List SourceFile) (reply : Nat → Except TransportError TransferId)
    (i : Nat) : Option OfferedFile :=
  match files[i]?, reply i with
  | some f, .ok id => some ⟨id, f.path, f.size⟩
  | _, _ => none

/-- The file at place `i` of the walk, when the peer refused it, with the error. -/
def refusedAt (files : List SourceFile) (reply : Nat → Except TransportError TransferId)
    (i : Nat) : Option (String × TransportError) :=
  match files[i]?, reply i with
  | some f, .error e => some (f.path, e)
  | _, _ => none

/-- The entries of a list of places that a function gives, each with its place. -/
def placed {α : Type} (g : Nat → Option α) (places : List Nat) : List (Nat × α) :=
  places.filterMap fun i => (g i).map (i, ·)

/-- The files the peer accepted, with their ids, in walk order. -/
def acceptedOffers (files : List SourceFile) (reply : Nat → Except TransportError TransferId) :
    List OfferedFile :=
  (List.range files.length).filterMap (acceptedAt files reply)

/-- The files the peer refused, with their errors, in walk order. -/
def refusedOffers (files : List SourceFile) (reply : Nat → Except TransportError TransferId) :
    List (String × TransportError) :=
  (List.range files.length).filterMap (refusedAt files reply)

/-- The places of the files whose task has ended. -/
def ended (s : Offering) : List Nat := s.offered.map (·.1) ++ s.failed.map (·.1)

variable {files : List SourceFile} {reply : Nat → Except TransportError TransferId}

theorem refusedAt_eq_none_of_accepted {i : Nat} {o : OfferedFile}
    (h : acceptedAt files reply i = some o) : refusedAt files reply i = none := by
  unfold acceptedAt at h
  unfold refusedAt
  split at h <;> simp_all

theorem acceptedAt_eq_none_of_refused {i : Nat} {r : String × TransportError}
    (h : refusedAt files reply i = some r) : acceptedAt files reply i = none := by
  unfold refusedAt at h
  unfold acceptedAt
  split at h <;> simp_all

/-! ## The invariant of a request -/

/-- What holds at every point of a request: every begun file is waiting to offer, waiting for its
reply or ended, once; the offers made are those of the files that have offered; every ended file
is recorded with what its reply says; an open job is queued for every offered file; and at most 16
tasks are out. -/
structure Inv (files : List SourceFile) (reply : Nat → Except TransportError TransferId)
    (s : Offering) : Prop where
  places : (s.waiting ++ s.asked ++ s.ended).Perm (List.range s.begun)
  begun_le : s.begun ≤ files.length
  made : s.made.Perm ((s.asked ++ s.ended).filterMap fun i => files[i]?.map info)
  offered : ∀ p ∈ s.offered, acceptedAt files reply p.1 = some p.2
  failed : ∀ p ∈ s.failed, refusedAt files reply p.1 = some p.2
  queued : s.queued = s.offered.map fun p => (p.2.id, p.2.path, p.2.size)
  room : s.waiting.length + s.asked.length ≤ offerConcurrency

theorem inv_start : Inv files reply {} where
  places := by simp [ended]
  begun_le := Nat.zero_le _
  made := by simp [ended]
  offered := by simp
  failed := by simp
  queued := rfl
  room := by simp [offerConcurrency]

theorem Inv.begin {s : Offering} (h : Inv files reply s) {f : SourceFile}
    (hf : files[s.begun]? = some f) (room : s.waiting.length + s.asked.length < offerConcurrency) :
    Inv files reply { s with begun := s.begun + 1, waiting := s.waiting ++ [s.begun] } where
  places := by
    have hmid : (s.waiting ++ [s.begun] ++ s.asked ++ s.ended).Perm
        (s.waiting ++ s.asked ++ s.ended ++ [s.begun]) := by
      rw [List.perm_iff_count]
      intro a
      simp only [List.count_append]
      omega
    rw [List.range_succ]
    exact hmid.trans (h.places.append_right _)
  begun_le := (List.getElem?_eq_some_iff.1 hf).1
  made := h.made
  offered := h.offered
  failed := h.failed
  queued := h.queued
  room := by simp only [List.length_append, List.length_singleton]; omega

theorem Inv.ask {s : Offering} (h : Inv files reply s) {i : Nat} (hi : i ∈ s.waiting)
    {f : SourceFile} (hf : files[i]? = some f) :
    Inv files reply { s with waiting := s.waiting.erase i, asked := s.asked ++ [i],
                             made := s.made ++ [(Files.offerName f.path, f.size)] } where
  places := by
    refine List.Perm.trans ?_ h.places
    have hw := List.perm_cons_erase hi
    rw [List.perm_iff_count] at hw ⊢
    intro a
    have := hw a
    simp only [ended, List.count_append, List.count_cons, List.count_nil] at this ⊢
    omega
  begun_le := h.begun_le
  made := by
    have hm := h.made.append_right [(Files.offerName f.path, f.size)]
    refine hm.trans ?_
    simp only [ended, List.filterMap_append, List.filterMap_cons, List.filterMap_nil, hf,
      Option.map_some, info]
    rw [List.perm_iff_count]
    intro a
    simp only [List.count_append]
    omega
  offered := h.offered
  failed := h.failed
  queued := h.queued
  room := by
    have := List.length_pos_of_mem hi
    simp only [List.length_erase_of_mem hi, List.length_append, List.length_singleton]
    have := h.room
    omega

section Answered

variable (s : Offering) (i : Nat) (f : SourceFile) (r : Except TransportError TransferId)

@[simp] theorem answered_begun : (s.answered i f r).begun = s.begun := by cases r <;> rfl

@[simp] theorem answered_waiting : (s.answered i f r).waiting = s.waiting := by cases r <;> rfl

@[simp] theorem answered_asked : (s.answered i f r).asked = s.asked.erase i := by cases r <;> rfl

@[simp] theorem answered_made : (s.answered i f r).made = s.made := by cases r <;> rfl

theorem ended_answered : (s.answered i f r).ended.Perm (s.ended ++ [i]) := by
  cases r with
  | ok id =>
    simp only [answered, ended, List.map_append, List.map_singleton, List.append_assoc]
    exact List.Perm.append_left _ (List.perm_append_comm)
  | error e => simp [answered, ended]

end Answered

theorem Inv.answer {s : Offering} (h : Inv files reply s) {i : Nat} (hi : i ∈ s.asked)
    {f : SourceFile} (hf : files[i]? = some f) : Inv files reply (s.answered i f (reply i)) := by
  -- the answered file moves from the tasks waiting for a reply to the ended ones
  have hmove : (s.asked.erase i ++ (s.answered i f (reply i)).ended).Perm (s.asked ++ s.ended) := by
    have hA := List.perm_cons_erase hi
    have hE := ended_answered s i f (reply i)
    rw [List.perm_iff_count] at hA hE ⊢
    intro a
    have := hA a
    have := hE a
    simp only [List.count_append, List.count_cons, List.count_nil] at *
    omega
  have places : (s.waiting ++ (s.answered i f (reply i)).asked ++
      (s.answered i f (reply i)).ended).Perm (List.range (s.answered i f (reply i)).begun) := by
    rw [answered_asked, answered_begun, List.append_assoc]
    exact (hmove.append_left _).trans (by simpa [List.append_assoc] using h.places)
  have made : (s.answered i f (reply i)).made.Perm
      (((s.answered i f (reply i)).asked ++ (s.answered i f (reply i)).ended).filterMap
        fun i => files[i]?.map info) := by
    rw [answered_made, answered_asked]
    exact h.made.trans (hmove.symm.filterMap _)
  have room : (s.answered i f (reply i)).waiting.length +
      (s.answered i f (reply i)).asked.length ≤ offerConcurrency := by
    rw [answered_waiting, answered_asked, List.length_erase_of_mem hi]
    have := h.room
    omega
  cases hr : reply i with
  | ok id =>
    rw [hr] at places made room
    refine ⟨by simpa using places, h.begun_le, made, ?_, h.failed, ?_, room⟩
    · intro p hp
      simp only [answered, List.mem_append, List.mem_singleton] at hp
      rcases hp with hp | rfl
      · exact h.offered p hp
      · simp [acceptedAt, hf, hr]
    · simp [answered, h.queued]
  | error e =>
    rw [hr] at places made room
    refine ⟨by simpa using places, h.begun_le, made, h.offered, ?_, h.queued, room⟩
    intro p hp
    simp only [answered, List.mem_append, List.mem_singleton] at hp
    rcases hp with hp | rfl
    · exact h.failed p hp
    · simp [refusedAt, hf, hr]

theorem Inv.step {s s' : Offering} (h : Inv files reply s) (hs : Step files reply s s') :
    Inv files reply s' := by
  cases hs with
  | begin f hf room => exact h.begin hf room
  | ask i hi f hf => exact h.ask hi hf
  | answer i hi f hf => exact h.answer hi hf

/-- The invariant holds all along every run of a request. -/
theorem Inv.run {s : Offering} (hs : Relation.ReflTransGen (Step files reply) {} s) :
    Inv files reply s := by
  induction hs with
  | refl => exact inv_start
  | tail _ hstep ih => exact ih.step hstep

/-! ## Every request comes to its end -/

/-- What is left to do: three steps for a file whose task has not begun, two for a task that has
not made its offer, one for a task waiting for its reply. -/
def left (files : List SourceFile) (s : Offering) : Nat :=
  3 * (files.length - s.begun) + 2 * s.waiting.length + s.asked.length

theorem Inv.exists_file {s : Offering} (h : Inv files reply s) {i : Nat}
    (hi : i ∈ s.waiting ++ s.asked) : ∃ f, files[i]? = some f := by
  have hlt : i < files.length :=
    Nat.lt_of_lt_of_le (List.mem_range.1 (h.places.subset (List.mem_append_left _ hi))) h.begun_le
  exact ⟨files[i], List.getElem?_eq_getElem hlt⟩

/-- Until a request has ended, something can happen that brings it closer to its end: a reply
comes in, a task makes its offer, or the next file's task begins. -/
theorem Inv.step_of_unfinished {s : Offering} (h : Inv files reply s) (hnot : ¬s.Finished files) :
    ∃ s', Step files reply s s' ∧ left files s' < left files s := by
  cases ha : s.asked with
  | cons i rest =>
    have hi : i ∈ s.asked := by simp [ha]
    obtain ⟨f, hf⟩ := h.exists_file (List.mem_append_right _ hi)
    refine ⟨_, .answer s i hi f hf, ?_⟩
    have := List.length_pos_of_mem hi
    simp only [left, answered_begun, answered_waiting, answered_asked, List.length_erase_of_mem hi]
    omega
  | nil =>
    cases hw : s.waiting with
    | cons i rest =>
      have hi : i ∈ s.waiting := by simp [hw]
      obtain ⟨f, hf⟩ := h.exists_file (List.mem_append_left _ hi)
      refine ⟨_, .ask s i hi f hf, ?_⟩
      have := List.length_pos_of_mem hi
      simp only [left, List.length_erase_of_mem hi, List.length_append, List.length_singleton, ha,
        List.length_nil]
      omega
    | nil =>
      have hlt : s.begun < files.length := by
        by_contra hge
        exact hnot ⟨Nat.le_antisymm h.begun_le (Nat.le_of_not_lt hge), hw, ha⟩
      refine ⟨_, .begin s files[s.begun] (List.getElem?_eq_getElem hlt)
        (by simp [hw, ha, offerConcurrency]), ?_⟩
      simp only [left, hw, ha, List.nil_append, List.length_singleton, List.length_nil]
      omega

/-- From every point of a request, its tasks can all be brought to their end. -/
theorem Inv.reaches_finished {s : Offering} (h : Inv files reply s) :
    ∃ s', Relation.ReflTransGen (Step files reply) s s' ∧ s'.Finished files := by
  -- on what is left to do, which every step of `step_of_unfinished` lowers
  induction hm : left files s using Nat.strong_induction_on generalizing s with
  | _ n ih =>
    by_cases hfin : s.Finished files
    · exact ⟨s, .refl, hfin⟩
    · obtain ⟨s', hstep, hlt⟩ := h.step_of_unfinished hfin
      obtain ⟨t, hrun, ht⟩ := ih _ (hm ▸ hlt) (h.step hstep) rfl
      exact ⟨t, .head hstep hrun, ht⟩

/-! ## Entries in walk order -/

theorem mem_placed {α : Type} {g : Nat → Option α} {l : List Nat} {p : Nat × α} :
    p ∈ placed g l ↔ p.1 ∈ l ∧ g p.1 = some p.2 := by
  obtain ⟨i, x⟩ := p
  simp only [placed, List.mem_filterMap, Option.map_eq_some_iff, Prod.mk.injEq]
  constructor
  · rintro ⟨j, hj, y, hy, rfl, rfl⟩
    exact ⟨hj, hy⟩
  · rintro ⟨hi, hx⟩
    exact ⟨i, hi, x, hx, rfl, rfl⟩

theorem pairwise_placed {α : Type} {R : Nat → Nat → Prop} {g : Nat → Option α} {l : List Nat}
    (h : l.Pairwise R) : (placed g l).Pairwise fun a b => R a.1 b.1 := by
  refine List.pairwise_filterMap.2 (h.imp fun hij => ?_)
  intro b hb b' hb'
  obtain ⟨x, -, rfl⟩ := Option.map_eq_some_iff.1 hb
  obtain ⟨x', -, rfl⟩ := Option.map_eq_some_iff.1 hb'
  exact hij

/-- A list of entries with their places, each the entry `g` gives at its place, no place twice,
and every place below `n` where `g` gives an entry among them, holds the entries `g` gives below
`n`, in some order. -/
theorem perm_placed {α : Type} {g : Nat → Option α} {L : List (Nat × α)} {n : Nat}
    (hg : ∀ p ∈ L, g p.1 = some p.2) (hnd : (L.map (·.1)).Nodup) (hlt : ∀ p ∈ L, p.1 < n)
    (hall : ∀ i < n, (g i).isSome → i ∈ L.map (·.1)) :
    L.Perm (placed g (List.range n)) := by
  have hnd' : (placed g (List.range n)).Nodup :=
    (pairwise_placed List.nodup_range).imp fun hne heq => hne (congrArg Prod.fst heq)
  refine (List.perm_ext_iff_of_nodup (List.Nodup.of_map _ hnd) hnd').2 fun p => ?_
  rw [mem_placed, List.mem_range]
  constructor
  · intro hp
    exact ⟨hlt p hp, hg p hp⟩
  · rintro ⟨hi, hp⟩
    obtain ⟨q, hq, hqi⟩ := List.mem_map.1 (hall p.1 hi (by simp [hp]))
    have hgq := hg q hq
    rw [hqi, hp, Option.some.injEq] at hgq
    rwa [← Prod.ext hqi hgq.symm]

/-- Sorting by place puts such a list in walk order. -/
theorem mergeSort_of_perm_placed {α : Type} {g : Nat → Option α} {L : List (Nat × α)}
    {n : Nat} (h : L.Perm (placed g (List.range n))) :
    (L.mergeSort fun a b => a.1 ≤ b.1) = placed g (List.range n) := by
  have hsorted : (L.mergeSort fun a b => a.1 ≤ b.1).Pairwise (fun a b => a.1 ≤ b.1) := by
    have hle : (L.mergeSort fun a b => a.1 ≤ b.1).Pairwise
        (fun a b => decide (a.1 ≤ b.1) = true) :=
      List.pairwise_mergeSort (fun a b c hab hbc => by simp at *; omega)
        (fun a b => by simp; omega) L
    simpa using hle
  have hplaced : (placed g (List.range n)).Pairwise (fun a b => a.1 ≤ b.1) :=
    pairwise_placed (List.pairwise_lt_range.imp Nat.le_of_lt)
  refine List.Perm.eq_of_pairwise (fun a b ha hb hab hba => ?_) hsorted hplaced
    ((List.mergeSort_perm _ _).trans h)
  -- two entries at one place are the one entry `g` gives there
  have ha' := (mem_placed.1 (((List.mergeSort_perm _ _).trans h).subset ha)).2
  have hb' := (mem_placed.1 hb).2
  have hplace : a.1 = b.1 := Nat.le_antisymm hab hba
  rw [hplace, hb', Option.some.injEq] at ha'
  exact Prod.ext hplace ha'.symm

theorem map_snd_placed {α : Type} (g : Nat → Option α) (l : List Nat) :
    (placed g l).map (·.2) = l.filterMap g := by
  simp [placed, List.map_filterMap, Option.map_map, Function.comp_def]

theorem filterMap_range_getElem? {α β : Type} (l : List α) (g : α → β) :
    (List.range l.length).filterMap (fun i => l[i]?.map g) = l.map g := by
  induction l using List.reverseRecOn with
  | nil => rfl
  | append_singleton l x ih =>
    rw [List.length_append, List.length_singleton, List.range_succ, List.filterMap_append,
      List.map_append]
    congr 1
    · rw [← ih]
      refine List.filterMap_congr fun i hi => ?_
      rw [List.getElem?_append_left (List.mem_range.1 hi)]
    · simp

theorem filterMap_cons_toList {β γ : Type} (f : β → Option γ) (x : β) (l : List β) :
    (x :: l).filterMap f = (f x).toList ++ l.filterMap f := by
  cases hx : f x <;> simp [hx]

theorem filterMap_append_perm {β γ : Type} {f g h : β → Option γ} (l : List β)
    (hfg : ∀ x ∈ l, (f x).toList ++ (g x).toList = (h x).toList) :
    (l.filterMap f ++ l.filterMap g).Perm (l.filterMap h) := by
  induction l with
  | nil => simp
  | cons x xs ih =>
    have ih := ih fun y hy => hfg y (List.mem_cons_of_mem _ hy)
    rw [filterMap_cons_toList, filterMap_cons_toList, filterMap_cons_toList,
      ← hfg x List.mem_cons_self]
    simp only [List.append_assoc]
    exact List.Perm.append_left _
      ((List.perm_append_comm_assoc _ _ _).trans (List.Perm.append_left _ ih))

theorem perm_placed_of_split {α β : Type} {g : Nat → Option α} {L : List (Nat × α)}
    {K : List (Nat × β)} {n : Nat} (hperm : (L.map (·.1) ++ K.map (·.1)).Perm (List.range n))
    (hg : ∀ p ∈ L, g p.1 = some p.2) (hK : ∀ q ∈ K, g q.1 = none) :
    L.Perm (placed g (List.range n)) := by
  have hlt : ∀ i ∈ L.map (·.1) ++ K.map (·.1), i < n :=
    fun i hi => List.mem_range.1 (hperm.subset hi)
  refine perm_placed hg (List.nodup_append.1 (hperm.nodup_iff.2 List.nodup_range)).1
    (fun p hp => hlt _ (List.mem_append_left _ (List.mem_map_of_mem hp))) fun i hi hsome => ?_
  rcases List.mem_append.1 (hperm.symm.subset (List.mem_range.2 hi)) with hL | hK'
  · exact hL
  · obtain ⟨q, hq, rfl⟩ := List.mem_map.1 hK'
    simp [hK q hq] at hsome

section Finished

variable {s : Offering} (h : Inv files reply s) (hfin : s.Finished files)
include h hfin

/-- At the end, every file of the walk has ended once. -/
theorem Inv.ended_perm : s.ended.Perm (List.range files.length) := by
  obtain ⟨hb, hw, ha⟩ := hfin
  simpa [hw, ha, hb] using h.places

/-- At the end, the offered files are the accepted ones. -/
theorem Inv.offered_perm :
    s.offered.Perm (placed (acceptedAt files reply) (List.range files.length)) :=
  perm_placed_of_split (h.ended_perm hfin) h.offered
    fun q hq => acceptedAt_eq_none_of_refused (h.failed q hq)

/-- At the end, the failed files are the refused ones. -/
theorem Inv.failed_perm :
    s.failed.Perm (placed (refusedAt files reply) (List.range files.length)) :=
  perm_placed_of_split (List.perm_append_comm.trans (h.ended_perm hfin)) h.failed
    fun q hq => refusedAt_eq_none_of_accepted (h.offered q hq)

/-- At the end, one offer was made for every file of the walk. -/
theorem Inv.made_perm : s.made.Perm (files.map info) := by
  have hm := h.made
  rw [hfin.2.2, List.nil_append] at hm
  rw [← filterMap_range_getElem?]
  exact hm.trans ((h.ended_perm hfin).filterMap _)

/-- At the end, one open job was queued for every accepted file. -/
theorem Inv.queued_perm :
    s.queued.Perm ((acceptedOffers files reply).map fun o => (o.id, o.path, o.size)) := by
  rw [h.queued, acceptedOffers, ← map_snd_placed, List.map_map]
  exact (h.offered_perm hfin).map _

/-- At the end, the report lists the accepted and the refused files in walk order. -/
theorem Inv.report_eq :
    s.report = { offered := acceptedOffers files reply, failed := refusedOffers files reply } := by
  simp only [report, mergeSort_of_perm_placed (h.offered_perm hfin),
    mergeSort_of_perm_placed (h.failed_perm hfin), map_snd_placed, acceptedOffers, refusedOffers]

end Finished

/-- Each file of the walk is either accepted or refused. -/
theorem accepted_and_refused_paths (files : List SourceFile)
    (reply : Nat → Except TransportError TransferId) :
    ((acceptedOffers files reply).map (·.path) ++ (refusedOffers files reply).map (·.1)).Perm
      (files.map (·.path)) := by
  rw [acceptedOffers, refusedOffers, List.map_filterMap, List.map_filterMap,
    ← filterMap_range_getElem? files]
  refine filterMap_append_perm _ fun i hi => ?_
  have hlt : i < files.length := List.mem_range.1 hi
  have hf : files[i]? = some files[i] := List.getElem?_eq_getElem hlt
  cases hr : reply i <;> simp [acceptedAt, refusedAt, hf, hr]

end Offering

/-- A reply of the peer, not a task that broke down. -/
def OfferReply.isAnswer : OfferReply → Bool
  | .broke _ _ => false
  | _ => true

namespace Engine

theorem settle_accepted {e : Engine} (hrun : e.stopped = false) (d : Desk) (peer : UInt32)
    (src : SourceFile) (file : UInt32) (rest : List (SourceFile × OfferReply)) :
    (e.settle d peer ((src, .accepted file) :: rest)).2.2 =
      ((e.register d ⟨peer, file⟩ src.path src.size).engine.settle
          (e.register d ⟨peer, file⟩ src.path src.size).desk peer rest).2.2.map
        fun rep => { rep with offered := ⟨⟨peer, file⟩, src.path, src.size⟩ :: rep.offered } := by
  simp only [settle, hrun]
  rfl

theorem settle_refused (e : Engine) (d : Desk) (peer : UInt32) (src : SourceFile)
    (err : TransportError) (rest : List (SourceFile × OfferReply)) :
    (e.settle d peer ((src, .refused err) :: rest)).2.2 =
      (e.settle d peer rest).2.2.map fun rep => { rep with failed := (src.path, err) :: rep.failed } :=
  rfl

end Engine

namespace Offering

/-! ## The request settled in walk order

The engine settles a request with the replies to its offers in walk order, one by one. When every
task got a reply from the peer and no job is refused by a stopped engine, what it reports is what
the request reports, whatever the order the replies came in. -/

/-- The peer's reply to the offer at place `i`, read from the replies a request is settled with.
A broken task, or a place with no reply, does not come up where this is used. -/
def replyAt (peer : UInt32) (answers : List OfferReply) (i : Nat) :
    Except TransportError TransferId :=
  match answers[i]? with
  | some (.accepted file) => .ok ⟨peer, file⟩
  | some (.refused e) => .error e
  | _ => .error .shutdown

theorem replyAt_succ (peer : UInt32) (a : OfferReply) (answers : List OfferReply) :
    (fun i => replyAt peer (a :: answers) (i + 1)) = replyAt peer answers := rfl

theorem filterMap_range_succ {α : Type} (g : Nat → Option α) (n : Nat) :
    (List.range (n + 1)).filterMap g =
      (g 0).toList ++ (List.range n).filterMap fun i => g (i + 1) := by
  rw [List.range_succ_eq_map, filterMap_cons_toList, List.filterMap_map]
  rfl

theorem acceptedOffers_cons (f : SourceFile) (files : List SourceFile)
    (reply : Nat → Except TransportError TransferId) :
    acceptedOffers (f :: files) reply =
      (acceptedAt [f] reply 0).toList ++ acceptedOffers files fun i => reply (i + 1) := by
  rw [acceptedOffers, List.length_cons, filterMap_range_succ]
  rfl

theorem refusedOffers_cons (f : SourceFile) (files : List SourceFile)
    (reply : Nat → Except TransportError TransferId) :
    refusedOffers (f :: files) reply =
      (refusedAt [f] reply 0).toList ++ refusedOffers files fun i => reply (i + 1) := by
  rw [refusedOffers, List.length_cons, filterMap_range_succ]
  rfl

/-- The engine, settling a request whose offers all got a reply from the peer, reports the
accepted and the refused files in walk order. -/
theorem settle_of_answered (peer : UInt32) {files : List SourceFile} {answers : List OfferReply}
    (hlen : answers.length = files.length) (hsure : ∀ a ∈ answers, a.isAnswer) {e : Engine}
    (hrun : e.stopped = false) (d : Desk) :
    (e.settle d peer (files.zip answers)).2.2 =
      .ok { offered := acceptedOffers files (replyAt peer answers)
            failed := refusedOffers files (replyAt peer answers) } := by
  induction files generalizing answers e d with
  | nil => simp [Engine.settle, acceptedOffers, refusedOffers]
  | cons f fs ih =>
    obtain ⟨a, as, rfl⟩ := List.exists_cons_of_length_eq_add_one hlen
    have hlen' : as.length = fs.length := by simpa using hlen
    have hsure' := fun b hb => hsure b (List.mem_cons_of_mem a hb)
    rw [acceptedOffers_cons, refusedOffers_cons, replyAt_succ, List.zip_cons_cons]
    cases a with
    | accepted file =>
      -- the accepted file is opened first, and opening it leaves the engine running
      have hstop : (e.register d ⟨peer, file⟩ f.path f.size).engine.stopped = false := by
        rw [← hrun]
        exact congrArg (·.2.2) (Engine.register_settings e d _ f.path f.size)
      rw [Engine.settle_accepted hrun, ih hlen' hsure' hstop]
      simp [acceptedAt, refusedAt, replyAt, Except.map]
    | refused err =>
      rw [Engine.settle_refused, ih hlen' hsure' hrun]
      simp [acceptedAt, refusedAt, replyAt, Except.map]
    | broke task msg => exact absurd (hsure _ List.mem_cons_self) (by simp [OfferReply.isAnswer])

end Offering

open Offering in
/-- Every run of the offers of a send request, for every walk of files, every reply of the peer to
each offer and every order in which the replies come in: at no point are more than 16 offers
waiting for their reply, and the request can always be brought to its end. Once it has ended, one
offer was made for each file, under the file's last name and with its size; one open job was
queued for each accepted file, with its id, path and size; and the report lists the accepted files
with their ids and the refused files with their errors, each in walk order, the two lists together
holding every file of the walk. When the replies are those of the peer to a running engine, that
report is the one the engine settles the request with, taking the replies in walk order. -/
theorem offers_end_in_walk_order (files : List SourceFile)
    (reply : Nat → Except TransportError TransferId) {s : Offering}
    (run : Relation.ReflTransGen (Offering.Step files reply) {} s) :
    s.asked.length ≤ offerConcurrency ∧
    (∃ s', Relation.ReflTransGen (Offering.Step files reply) s s' ∧ s'.Finished files) ∧
    (s.Finished files →
      s.made.Perm (files.map fun f => (Files.offerName f.path, f.size)) ∧
      s.queued.Perm ((acceptedOffers files reply).map fun o => (o.id, o.path, o.size)) ∧
      s.report = { offered := acceptedOffers files reply, failed := refusedOffers files reply } ∧
      ((acceptedOffers files reply).map (·.path) ++ (refusedOffers files reply).map (·.1)).Perm
        (files.map (·.path)) ∧
      ∀ (peer : UInt32) (answers : List OfferReply), reply = replyAt peer answers →
        answers.length = files.length → (∀ a ∈ answers, a.isAnswer) →
        ∀ (e : Engine) (d : Desk), e.stopped = false →
          (e.settle d peer (files.zip answers)).2.2 = .ok s.report) := by
  have h := Inv.run run
  refine ⟨Nat.le_trans (Nat.le_add_left _ _) h.room, h.reaches_finished, fun hfin => ?_⟩
  refine ⟨h.made_perm hfin, h.queued_perm hfin, h.report_eq hfin,
    accepted_and_refused_paths files reply, ?_⟩
  rintro peer answers rfl hlen hsure e d hrun
  rw [h.report_eq hfin]
  exact settle_of_answered peer hlen hsure hrun d

/-- Three files offered at once; the peer accepts the first and the third and refuses the second,
and the replies come in last file first. The report still lists the files in walk order. -/
theorem replies_in_reverse_keep_walk_order :
    let files : List SourceFile := [⟨"/r/a", 1⟩, ⟨"/r/b", 2⟩, ⟨"/r/c", 3⟩]
    let reply : Nat → Except TransportError TransferId := fun i =>
      if i = 1 then .error .shutdown else .ok ⟨0, i.toUInt32⟩
    ∃ s, Relation.ReflTransGen (Offering.Step files reply) {} s ∧ s.Finished files ∧
      s.offered.map (·.1) = [2, 0] ∧
      s.report = { offered := [⟨⟨0, 0⟩, "/r/a", 1⟩, ⟨⟨0, 2⟩, "/r/c", 3⟩],
                   failed := [("/r/b", .shutdown)] } := by
  intro files reply
  have run : Relation.ReflTransGen (Offering.Step files reply) {} _ :=
    ((((((((Relation.ReflTransGen.refl.tail (.begin {} _ rfl (by decide))).tail
    (.begin _ _ rfl (by decide))).tail (.begin _ _ rfl (by decide))).tail
    (.ask _ 0 (by decide) _ rfl)).tail (.ask _ 1 (by decide) _ rfl)).tail
    (.ask _ 2 (by decide) _ rfl)).tail (.answer _ 2 (by decide) _ rfl)).tail
    (.answer _ 1 (by decide) _ rfl)).tail (.answer _ 0 (by decide) _ rfl)
  refine ⟨_, run, ⟨rfl, rfl, rfl⟩, rfl, ?_⟩
  rw [((offers_end_in_walk_order files reply run).2.2 ⟨rfl, rfl, rfl⟩).2.2.1]
  rfl

end Courier.Transfer
