-- The progress mark is the furthest end confirmed: after any ranges from a new progress it is the
-- largest of their ends, whatever their order, repeats or gaps.
import Courier.Transfer.Progress
import Mathlib

namespace Courier

theorem satAdd_le_u64Max (a b : Nat) : satAdd a b ≤ u64Max := Nat.min_le_right _ _

/-- The furthest end of a list of ranges `(offset, length)`, each end stopping at the largest
64-bit number; 0 for no ranges. -/
def furthestEnd : List (Nat × Nat) → Nat
  | [] => 0
  | u :: us => max (satAdd u.1 u.2) (furthestEnd us)

section FurthestEnd

variable {us vs : List (Nat × Nat)} {m : Nat}

/-- The furthest end is within a bound exactly when every end is. -/
theorem furthestEnd_le_iff : furthestEnd us ≤ m ↔ ∀ u ∈ us, satAdd u.1 u.2 ≤ m := by
  induction us with
  | nil => simp [furthestEnd]
  | cons u us ih => simp [furthestEnd, ih]

theorem le_furthestEnd {u : Nat × Nat} (hu : u ∈ us) : satAdd u.1 u.2 ≤ furthestEnd us :=
  furthestEnd_le_iff.1 le_rfl u hu

/-- The furthest end reaches a bound exactly when the bound is 0 or some end reaches it. -/
theorem le_furthestEnd_iff : m ≤ furthestEnd us ↔ m = 0 ∨ ∃ u ∈ us, m ≤ satAdd u.1 u.2 := by
  induction us with
  | nil => simp [furthestEnd]
  | cons u us ih =>
    rw [furthestEnd, le_max_iff, ih]
    simp only [List.mem_cons, exists_eq_or_imp]
    tauto

theorem furthestEnd_le_u64Max (us : List (Nat × Nat)) : furthestEnd us ≤ u64Max :=
  furthestEnd_le_iff.2 fun u _ => satAdd_le_u64Max u.1 u.2

/-- Lists of the same ranges have the same furthest end, whatever their order and repeats. -/
theorem furthestEnd_congr (h : ∀ u, u ∈ us ↔ u ∈ vs) : furthestEnd us = furthestEnd vs :=
  le_antisymm (furthestEnd_le_iff.2 fun _ hu => le_furthestEnd ((h _).1 hu))
    (furthestEnd_le_iff.2 fun _ hu => le_furthestEnd ((h _).2 hu))

theorem furthestEnd_le_append (vs : List (Nat × Nat)) : furthestEnd us ≤ furthestEnd (us ++ vs) :=
  furthestEnd_le_iff.2 fun _ hu => le_furthestEnd (List.mem_append_left vs hu)

end FurthestEnd

attribute [ext] Progress

namespace Progress

/-- Confirms the ranges of a list one after another. -/
def updateAll (p : Progress) (us : List (Nat × Nat)) : Progress :=
  us.foldl (fun p u => p.update u.1 u.2) p

theorem updateAll_cons (p : Progress) (u : Nat × Nat) (us : List (Nat × Nat)) :
    p.updateAll (u :: us) = (p.update u.1 u.2).updateAll us := rfl

theorem updateAll_append_single (p : Progress) (us : List (Nat × Nat)) (u : Nat × Nat) :
    p.updateAll (us ++ [u]) = (p.updateAll us).update u.1 u.2 := by
  rw [updateAll, List.foldl_append, List.foldl_cons, List.foldl_nil, ← updateAll]

@[simp] theorem update_total (p : Progress) (o l : Nat) : (p.update o l).total = p.total := by
  rw [update]
  split_ifs <;> rfl

/-- The three cases of an update are one: a mark that is a 64-bit number becomes the larger of
itself and the range's end. -/
theorem update_mark {p : Progress} (hp : p.mark ≤ u64Max) (o l : Nat) :
    (p.update o l).mark = max p.mark (satAdd o l) := by
  have hend : satAdd o l = min (o + l) u64Max := rfl
  rw [update]
  split_ifs with hadv hjump
  · -- the range starts at or below the mark and ends above it: the mark advances to its end
    simp only [Bool.and_eq_true, decide_eq_true_eq] at hadv
    exact (max_eq_right hadv.2.le).symm
  · -- the range starts above the mark, so its end is above the mark too: the end stops at
    -- the offset plus the length or at the largest 64-bit number, both at least the mark
    dsimp only
    omega
  · -- the range ends at or below the mark: it is stale and leaves the mark
    simp only [Bool.and_eq_true, decide_eq_true_eq, not_and, not_lt] at hadv
    exact (max_eq_left (hadv (Nat.le_of_not_lt hjump))).symm

@[simp] theorem total_updateAll (p : Progress) (us : List (Nat × Nat)) :
    (p.updateAll us).total = p.total := by
  induction us generalizing p with
  | nil => rfl
  | cons u us ih => rw [updateAll_cons, ih, update_total]

/-- Along a sequence of ranges the mark, a 64-bit number to start with, becomes the larger of
itself and the furthest end. -/
theorem mark_updateAll {p : Progress} (hp : p.mark ≤ u64Max) (us : List (Nat × Nat)) :
    (p.updateAll us).mark = max p.mark (furthestEnd us) := by
  induction us generalizing p with
  | nil => simp [updateAll, furthestEnd]
  | cons u us ih =>
    -- the first update keeps the mark a 64-bit number, and the rest move it from there
    have hmark := update_mark hp u.1 u.2
    have hfits : (p.update u.1 u.2).mark ≤ u64Max := by
      rw [hmark]
      exact max_le hp (satAdd_le_u64Max u.1 u.2)
    rw [updateAll_cons, ih hfits, hmark, furthestEnd, max_assoc]

/-- From a new progress the mark is the furthest end of the ranges confirmed. -/
theorem mark_updateAll_new (total : Nat) (us : List (Nat × Nat)) :
    (Progress.updateAll ⟨total, 0⟩ us).mark = furthestEnd us := by
  rw [mark_updateAll (Nat.zero_le _), Nat.zero_max]

theorem mark_updateAll_new_le (total : Nat) (us : List (Nat × Nat)) :
    (Progress.updateAll ⟨total, 0⟩ us).mark ≤ u64Max := by
  rw [mark_updateAll_new]
  exact furthestEnd_le_u64Max us

theorem isComplete_iff (p : Progress) : p.isComplete = true ↔ p.total ≤ p.mark := by
  simp [isComplete]

end Progress

/-- After any sequence of confirmed ranges from a new progress, each update has moved the mark
to the larger of the mark and the range's end, so the mark is the furthest end among the
ranges, 0 for none. The progress depends on the ranges only, not on their order or on repeats;
its mark never goes down; and it is complete exactly when the transfer is empty or some range
reaches its size, whatever gaps lie below that range's end. -/
theorem mark_is_the_furthest_end (total : Nat) (us : List (Nat × Nat)) :
    (∀ (pre : List (Nat × Nat)) (o l : Nat),
      (Progress.updateAll ⟨total, 0⟩ (pre ++ [(o, l)])).mark =
        max (Progress.updateAll ⟨total, 0⟩ pre).mark (satAdd o l)) ∧
    (Progress.updateAll ⟨total, 0⟩ us).mark = furthestEnd us ∧
    (∀ vs : List (Nat × Nat), (∀ u, u ∈ vs ↔ u ∈ us) →
      Progress.updateAll ⟨total, 0⟩ vs = Progress.updateAll ⟨total, 0⟩ us) ∧
    (∀ pre post : List (Nat × Nat),
      (Progress.updateAll ⟨total, 0⟩ pre).mark ≤
        (Progress.updateAll ⟨total, 0⟩ (pre ++ post)).mark) ∧
    ((Progress.updateAll ⟨total, 0⟩ us).isComplete = true ↔
      total = 0 ∨ ∃ u ∈ us, total ≤ satAdd u.1 u.2) := by
  refine ⟨fun pre o l => ?_, Progress.mark_updateAll_new total us, fun vs hvs => ?_,
    fun pre post => ?_, ?_⟩
  · -- one more update, from a mark that a run keeps a 64-bit number
    rw [Progress.updateAll_append_single]
    exact Progress.update_mark (Progress.mark_updateAll_new_le total pre) o l
  · -- the same ranges give the same furthest end, and the size is never touched
    ext
    · simp
    · rw [Progress.mark_updateAll_new, Progress.mark_updateAll_new, furthestEnd_congr hvs]
  · rw [Progress.mark_updateAll_new, Progress.mark_updateAll_new]
    exact furthestEnd_le_append post
  · rw [Progress.isComplete_iff, Progress.total_updateAll, Progress.mark_updateAll_new]
    exact le_furthestEnd_iff

/-- A range past a gap that reaches the size completes the transfer. -/
example : (Progress.updateAll ⟨100, 0⟩ [(0, 10), (50, 50)]).isComplete = true := by decide

end Courier
