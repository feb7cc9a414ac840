-- Requests in flight and their answers: a transfer's unanswered requests are its window's count in
-- flight, and so within its cap, unless a sweep drops the window while one is out.
import Courier.Proofs.WindowCalls
import Mathlib

namespace Courier

namespace FlowWindow

theorem drain_inFlight (w : FlowWindow) : w.drain.1.inFlight = w.inFlight + w.drain.2.length := by
  simp only [drain, List.length_take]
  omega

@[simp] theorem grow_inFlight (w : FlowWindow) (maxCap : Nat) : (w.grow maxCap).inFlight = w.inFlight := by
  unfold grow
  split <;> rfl

theorem enqueue_inFlight (w : FlowWindow) (r : ChunkRequest) (now : Nat) :
    (w.enqueue r now).1.inFlight = w.inFlight + (w.enqueue r now).2.length :=
  drain_inFlight _

/-- Freeing a slot takes one from the count, none below zero, then counts what is handed on. -/
theorem release_inFlight (w : FlowWindow) (now : Nat) :
    (w.release now).1.inFlight = w.inFlight - 1 + (w.release now).2.length :=
  drain_inFlight _

end FlowWindow

namespace WindowTable

variable {t : WindowTable} {id : TransferId}

/-! ## Counting along a run -/

/-- The requests a transfer's window has in flight; none without a window. -/
def inFlightOf (t : WindowTable) (id : TransferId) : Nat := ((t.get? id).map (·.inFlight)).getD 0

/-- Whether a call answers a request of the transfer, freeing a slot of its window. -/
def Call.answers (id : TransferId) : Call → Bool
  | .release i _ => i == id
  | _ => false

/-- How many of the calls answer a request of the transfer. -/
def answeredFor (id : TransferId) (calls : List Call) : Nat := (calls.filter (·.answers id)).length

/-- How many requests of the transfer a run of calls hands on. -/
def handedFor (id : TransferId) (t : WindowTable) (calls : List Call) : Nat :=
  (requestsFor id (t.run calls).2).length

/-- Every call of the run that answers a request of the transfer comes while fewer of its
requests have been answered than handed on: it answers one handed on before and not answered
yet. -/
def AnswersHanded (id : TransferId) (t : WindowTable) (calls : List Call) : Prop :=
  ∀ i (hi : i < calls.length), calls[i].answers id = true →
    answeredFor id (calls.take i) < handedFor id t (calls.take i)

/-- Every sweep of the run that drops the transfer's window comes when each of its requests
handed on has been answered. -/
def DropsWhenAnswered (id : TransferId) (t : WindowTable) (calls : List Call) : Prop :=
  ∀ i (hi : i < calls.length), (t.run (calls.take i)).1.drops id calls[i] = true →
    handedFor id t (calls.take i) = answeredFor id (calls.take i)

instance (id : TransferId) (t : WindowTable) (calls : List Call) : Decidable (AnswersHanded id t calls) :=
  inferInstanceAs (Decidable (∀ i (hi : i < calls.length), calls[i].answers id = true →
    answeredFor id (calls.take i) < handedFor id t (calls.take i)))

instance (id : TransferId) (t : WindowTable) (calls : List Call) :
    Decidable (DropsWhenAnswered id t calls) :=
  inferInstanceAs (Decidable (∀ i (hi : i < calls.length), (t.run (calls.take i)).1.drops id calls[i] = true →
    handedFor id t (calls.take i) = answeredFor id (calls.take i)))

theorem run_append (t : WindowTable) (cs ds : List Call) :
    t.run (cs ++ ds) = (((t.run cs).1.run ds).1, (t.run cs).2 ++ ((t.run cs).1.run ds).2) := by
  induction cs generalizing t with
  | nil => simp
  | cons c cs ih => simp [ih]

theorem handedFor_snoc (t : WindowTable) (cs : List Call) (c : Call) :
    handedFor id t (cs ++ [c]) = handedFor id t cs + (requestsFor id ((t.run cs).1.call c).2).length := by
  simp [handedFor, run_append]

theorem answeredFor_snoc (cs : List Call) (c : Call) :
    answeredFor id (cs ++ [c]) = answeredFor id cs + if c.answers id then 1 else 0 := by
  unfold answeredFor
  cases h : c.answers id <;> simp [List.filter_append, h]

/-- What the conditions ask of a run that ends with one more call: the same of the run before it,
and the condition on that call. -/
theorem AnswersHanded.snoc {cs : List Call} {c : Call} (h : AnswersHanded id t (cs ++ [c])) :
    AnswersHanded id t cs ∧ (c.answers id = true → answeredFor id cs < handedFor id t cs) := by
  refine ⟨fun i hi ha => ?_, fun ha => ?_⟩
  · have hi' : i < (cs ++ [c]).length := by simp; omega
    have := h i hi' (by rwa [List.getElem_append_left hi])
    rwa [List.take_append_of_le_length (Nat.le_of_lt hi)] at this
  · have := h cs.length (by simp) (by simpa using ha)
    simpa using this

theorem DropsWhenAnswered.snoc {cs : List Call} {c : Call} (h : DropsWhenAnswered id t (cs ++ [c])) :
    DropsWhenAnswered id t cs ∧ ((t.run cs).1.drops id c = true → handedFor id t cs = answeredFor id cs) := by
  refine ⟨fun i hi hd => ?_, fun hd => ?_⟩
  · have hi' : i < (cs ++ [c]).length := by simp; omega
    have := h i hi' (by rwa [List.getElem_append_left hi, List.take_append_of_le_length (Nat.le_of_lt hi)])
    rwa [List.take_append_of_le_length (Nat.le_of_lt hi)] at this
  · have := h cs.length (by simp) (by simpa using hd)
    simpa using this

theorem answersHanded_of_silent {calls : List Call} (h : ∀ c ∈ calls, c.answers id = false) :
    AnswersHanded id t calls := fun i hi ha => by
  rw [h _ (List.getElem_mem hi)] at ha
  cases ha

/-! ## What one call does to the count in flight -/

theorem inFlightOf_put (t : WindowTable) (id : TransferId) (w : FlowWindow) :
    (t.put id w).inFlightOf id = w.inFlight := by
  simp [inFlightOf, get?_put]

theorem inFlightOf_put_ne (t : WindowTable) {id id' : TransferId} (w : FlowWindow) (h : id ≠ id') :
    (t.put id' w).inFlightOf id = t.inFlightOf id := by
  simp [inFlightOf, get?_put, h]

theorem inFlight_opened (t : WindowTable) (id : TransferId) (now : Nat) :
    ((t.get? id).getD (FlowWindow.empty t.config.initialCap now)).inFlight = t.inFlightOf id := by
  unfold inFlightOf
  cases t.get? id <;> rfl

theorem get?_sweep_of_none (h : t.get? id = none) (now : Nat) : (t.sweep now).1.get? id = none := by
  cases hs : (t.sweep now).1.get? id with
  | none => rfl
  | some w =>
    obtain ⟨q, hq, hqe⟩ := mem_sweep (mem_of_get? hs)
    have hkey : q.1 = id := (congrArg Prod.fst hqe).symm
    have hnone := List.find?_eq_none.1 (Option.map_eq_none_iff.1 h) q hq
    simp [hkey] at hnone

/-- A sweep that keeps the transfer's window counts in flight what it hands on for it. -/
theorem inFlightOf_sweep (h : t.Ordered) {now : Nat} (hd : t.drops id (.sweep now) = false) :
    (t.sweep now).1.inFlightOf id = t.inFlightOf id + (requestsFor id (t.sweep now).2).length := by
  have hk : t.Keeps id now := fun w hw => .inl (by simpa [drops, hw] using hd)
  have hout := sweep_out h hk
  cases hw : t.get? id with
  | none =>
    -- nothing waited, so nothing is handed on, and no window is made
    have hnil : requestsFor id (t.sweep now).2 = [] := by
      simp only [pendingOf, hw, Option.map_none, Option.getD_none, List.append_eq_nil_iff] at hout
      exact hout.1
    simp [inFlightOf, hw, get?_sweep_of_none hw, hnil]
  | some w =>
    have hs : w.isStale now t.config.idleTimeout = false := by simpa [drops, hw] using hd
    have hnew := get?_sweep_of_fresh hw hs
    -- what the sweep hands on for the transfer is what the grown window's drain hands on
    have hdrain := FlowWindow.drain_out (w.grow t.config.maxCap)
    rw [FlowWindow.grow_pending] at hdrain
    have hsame : requestsFor id (t.sweep now).2 = ((w.grow t.config.maxCap).drain).2 := by
      rw [pendingOf, pendingOf, hnew, hw] at hout
      exact List.append_cancel_right (hout.trans hdrain.symm)
    simp [inFlightOf, hw, hnew, hsame, FlowWindow.drain_inFlight]

/-- One call that does not drop the transfer's window: the count in flight loses one for an answer
(none below zero) and gains what the call hands on for the transfer. -/
theorem inFlightOf_call (h : t.Ordered) (c : Call) (hd : t.drops id c = false) :
    (t.call c).1.inFlightOf id =
      t.inFlightOf id - (if c.answers id then 1 else 0) + (requestsFor id (t.call c).2).length := by
  cases c with
  | queue id' r now =>
    by_cases hid : id' = id
    · subst hid
      simp only [WindowTable.call, enqueue_fst, enqueue_snd, requestsFor_self, inFlightOf_put,
        Call.answers, Bool.false_eq_true, ↓reduceIte, Nat.sub_zero]
      rw [FlowWindow.enqueue_inFlight, inFlight_opened]
    · simp [WindowTable.call, enqueue_fst, inFlightOf_put_ne _ _ (Ne.symm hid), Call.answers,
        requestsFor_map_ne _ hid]
  | release id' now =>
    by_cases hid : id' = id
    · subst hid
      simp only [WindowTable.call, WindowTable.release, Call.answers, beq_self_eq_true, ↓reduceIte]
      cases hw : t.get? id' with
      | none => simp [inFlightOf, hw, requestsFor]
      | some w =>
        simp only [requestsFor_self, inFlightOf_put]
        rw [FlowWindow.release_inFlight]
        simp [inFlightOf, hw]
    · have hne : (Call.release id' now).answers id = false := by simp [Call.answers, hid]
      simp only [WindowTable.call, WindowTable.release, hne, Bool.false_eq_true, ↓reduceIte, Nat.sub_zero]
      split <;> simp [inFlightOf_put_ne _ _ (Ne.symm hid), requestsFor, hid]
  | sweep now =>
    simpa [WindowTable.call, Call.answers] using inFlightOf_sweep h hd

/-- A sweep that drops the transfer's window leaves it nothing in flight and hands on nothing for
it. -/
theorem inFlightOf_drop (h : t.Ordered) {c : Call} (hd : t.drops id c = true) :
    (t.call c).1.inFlightOf id = 0 ∧ requestsFor id (t.call c).2 = [] := by
  cases c with
  | sweep now =>
    obtain ⟨hnil, hnone⟩ := sweep_of_drops h hd
    exact ⟨by simp [WindowTable.call, inFlightOf, hnone], hnil⟩
  | _ => simp [drops] at hd

/-! ## Along a run -/

/-- Along a run from a new table that answers only requests handed on and unanswered, and drops
the transfer's window only when all of them are answered, the requests handed on are those
answered and those in flight. -/
theorem handed_eq_answered_add_inFlight (cfg : WindowConfig) (id : TransferId) (calls : List Call)
    (hans : AnswersHanded id { config := cfg } calls) (hdrop : DropsWhenAnswered id { config := cfg } calls) :
    handedFor id { config := cfg } calls =
      answeredFor id calls + (run { config := cfg } calls).1.inFlightOf id := by
  induction calls using List.reverseRecOn with
  | nil => rfl
  | append_singleton cs c ih =>
    obtain ⟨hans', hc⟩ := hans.snoc
    obtain ⟨hdrop', hdc⟩ := hdrop.snoc
    have hinv := ih hans' hdrop'
    have hord : (run { config := cfg } cs).1.Ordered := ((sound_new cfg).run cs).ordered
    rw [handedFor_snoc, answeredFor_snoc, run_append]
    simp only [run_cons, run_nil]
    cases hd : (run { config := cfg } cs).1.drops id c
    · rw [inFlightOf_call hord c hd]
      -- an answer finds a request in flight, so taking one away is exact
      cases ha : c.answers id
      · simp only [Bool.false_eq_true, ↓reduceIte, Nat.sub_zero]
        omega
      · have hlt := hc ha
        simp only [↓reduceIte]
        omega
    · obtain ⟨h0, hnil⟩ := inFlightOf_drop hord hd
      have hsettled := hdc hd
      -- a window dropped with nothing unanswered had nothing in flight, and an answer is not a sweep
      have ha : c.answers id = false := by
        cases c <;> simp_all [drops, Call.answers]
      rw [h0, hnil, ha]
      simp only [List.length_nil, Nat.add_zero, Bool.false_eq_true, ↓reduceIte]
      omega

/-- Requests handed on and not yet answered stay within the window's cap. Along a run of calls
from a new table, with any limits, in which every answer for a transfer is for one of its
requests handed on before and not answered yet, and no sweep drops the transfer's window while
one of its requests is unanswered: the requests of the transfer handed on are those answered and
those its window has in flight, so at most its cap are unanswered, and with no window every one has
been answered. -/
theorem unanswered_requests_within_cap (cfg : WindowConfig) (id : TransferId) (calls : List Call)
    (hans : AnswersHanded id { config := cfg } calls) (hdrop : DropsWhenAnswered id { config := cfg } calls) :
    handedFor id { config := cfg } calls = answeredFor id calls + (run { config := cfg } calls).1.inFlightOf id ∧
      (∀ w, (run { config := cfg } calls).1.get? id = some w →
        handedFor id { config := cfg } calls ≤ answeredFor id calls + w.cap) ∧
      ((run { config := cfg } calls).1.get? id = none → handedFor id { config := cfg } calls = answeredFor id calls) := by
  have heq := handed_eq_answered_add_inFlight cfg id calls hans hdrop
  refine ⟨heq, fun w hw => ?_, fun hw => ?_⟩
  · have hle : w.inFlight ≤ w.cap := (((sound_new cfg).run calls).settled _ (mem_of_get? hw)).inFlight_le
    have hin : (run { config := cfg } calls).1.inFlightOf id = w.inFlight := by simp [inFlightOf, hw]
    omega
  · simpa [inFlightOf, hw] using heq

/-- A window of two slots: three requests, an answer, a sweep that keeps the window, and a second
answer. Two requests are answered and one is in flight, within the cap. -/
theorem answered_run_stays_within_cap :
    let cfg : WindowConfig := { initialCap := 2, maxCap := 4, idleTimeout := 10 }
    let calls : List Call := [.queue ⟨0, 1⟩ ⟨0, 100⟩ 0, .queue ⟨0, 1⟩ ⟨100, 100⟩ 0,
      .queue ⟨0, 1⟩ ⟨200, 100⟩ 0, .release ⟨0, 1⟩ 1, .sweep 5, .release ⟨0, 1⟩ 6]
    AnswersHanded ⟨0, 1⟩ { config := cfg } calls ∧ DropsWhenAnswered ⟨0, 1⟩ { config := cfg } calls ∧
      handedFor ⟨0, 1⟩ { config := cfg } calls =
        answeredFor ⟨0, 1⟩ calls + (run { config := cfg } calls).1.inFlightOf ⟨0, 1⟩ ∧
      (∀ w, (run { config := cfg } calls).1.get? ⟨0, 1⟩ = some w →
        handedFor ⟨0, 1⟩ { config := cfg } calls ≤ answeredFor ⟨0, 1⟩ calls + w.cap) ∧
      ((run { config := cfg } calls).1.get? ⟨0, 1⟩ = none →
        handedFor ⟨0, 1⟩ { config := cfg } calls = answeredFor ⟨0, 1⟩ calls) := by
  intro cfg calls
  have hans : AnswersHanded ⟨0, 1⟩ { config := cfg } calls := by decide
  have hdrop : DropsWhenAnswered ⟨0, 1⟩ { config := cfg } calls := by decide
  exact ⟨hans, hdrop, unanswered_requests_within_cap cfg ⟨0, 1⟩ calls hans hdrop⟩

/-- A window of one slot hands on a request, is dropped as stale by a sweep a minute and more
later, and is made again by the next request, which it hands on at once: two requests are
unanswered, with no answer made, above the new window's cap of one. -/
theorem stale_drop_forgets_requests_in_flight :
    let cfg : WindowConfig := { initialCap := 1 }
    let calls : List Call := [.queue ⟨0, 1⟩ ⟨0, 100⟩ 0, .sweep 70000, .queue ⟨0, 1⟩ ⟨100, 100⟩ 70000]
    AnswersHanded ⟨0, 1⟩ { config := cfg } calls ∧
      ∃ w, (run { config := cfg } calls).1.get? ⟨0, 1⟩ = some w ∧ w.cap = 1 ∧
        answeredFor ⟨0, 1⟩ calls + w.cap < handedFor ⟨0, 1⟩ { config := cfg } calls := by
  intro cfg calls
  refine ⟨answersHanded_of_silent (by decide), ⟨⟨[], 1, 1, 70000⟩, by decide, rfl, by decide⟩⟩

end WindowTable

end Courier
