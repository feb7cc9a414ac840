-- The offers of one send request, at most 16 out at once, with replies in any order; the report
-- puts the offered and failed files back in walk order.
import Courier.Transfer.Engine

namespace Courier.Transfer

/-- How many offers of one send request are out at once. -/
def offerConcurrency : Nat := 16

/-- A send request while its offers are out: the files whose task has begun (the first `begun` of
the walk), the tasks that have not made their offer yet and those waiting for a reply (each by its
place in the walk), the offers made, the open jobs queued for the worker, and the files offered and
refused so far, each with its place, in the order their tasks ended. -/
structure Offering where
  begun : Nat := 0
  waiting : List Nat := []
  asked : List Nat := []
  made : List (String × Nat) := []
  queued : List (TransferId × String × Nat) := []
  offered : List (Nat × OfferedFile) := []
  failed : List (Nat × String × TransportError) := []

namespace Offering

/-- The reply to the offer of file `i` comes in. An accepted file is queued to be opened with the
id the peer gave it and added to the offered files; a refused one is added to the failed files with
its error. -/
def answered (s : Offering) (i : Nat) (f : SourceFile) : Except TransportError TransferId → Offering
  | .ok id =>
    { s with asked := s.asked.erase i, queued := s.queued ++ [(id, f.path, f.size)],
             offered := s.offered ++ [(i, ⟨id, f.path, f.size⟩)] }
  | .error e => { s with asked := s.asked.erase i, failed := s.failed ++ [(i, f.path, e)] }

/-- One thing that may happen next, for the walk `files` and the peer's replies `reply` to the
offer of each file by its place. -/
inductive Step (files : List SourceFile) (reply : Nat → Except TransportError TransferId) :
    Offering → Offering → Prop
  /-- The next file of the walk gets its task, when fewer than 16 tasks are out. -/
  | begin (s : Offering) (f : SourceFile) (hf : files[s.begun]? = some f)
      (room : s.waiting.length + s.asked.length < offerConcurrency) :
      Step files reply s { s with begun := s.begun + 1, waiting := s.waiting ++ [s.begun] }
  /-- A task offers its file under the file's last name and size. -/
  | ask (s : Offering) (i : Nat) (hi : i ∈ s.waiting) (f : SourceFile) (hf : files[i]? = some f) :
      Step files reply s
        { s with waiting := s.waiting.erase i, asked := s.asked ++ [i],
                 made := s.made ++ [(Files.offerName f.path, f.size)] }
  /-- The reply to a task's offer comes in, and the task ends. -/
  | answer (s : Offering) (i : Nat) (hi : i ∈ s.asked) (f : SourceFile) (hf : files[i]? = some f) :
      Step files reply s (s.answered i f (reply i))

/-- Every file has had its task, and every task has ended. -/
def Finished (files : List SourceFile) (s : Offering) : Prop :=
  s.begun = files.length ∧ s.waiting = [] ∧ s.asked = []

/-- The report of the request: the offered and the failed files, each list in walk order. -/
def report (s : Offering) : SendReport :=
  { offered := (s.offered.mergeSort fun a b => a.1 ≤ b.1).map (·.2)
    failed := (s.failed.mergeSort fun a b => a.1 ≤ b.1).map (·.2) }

end Offering

end Courier.Transfer
