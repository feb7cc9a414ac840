-- When a flow completes: if every accepted chunk starts within what has arrived, the chunks cover the
-- whole file by then; without that, one chunk ending at the last byte completes a file whose other
-- bytes never came.
import Courier.Proofs.NetworkRuns

namespace Courier

namespace Network

/-! ## Chunks along a run -/

/-- Every byte offset below `n` lies in one of the chunks, each given as offset and length. -/
def Covers (sent : List (Nat × Nat)) (n : Nat) : Prop :=
  ∀ b < n, ∃ c ∈ sent, c.1 ≤ b ∧ b < c.1 + c.2

instance (sent : List (Nat × Nat)) (n : Nat) : Decidable (Covers sent n) :=
  inferInstanceAs (Decidable (∀ b < n, ∃ c ∈ sent, c.1 ≤ b ∧ b < c.1 + c.2))

/-- The chunk an operation hands over for a file, as offset and length: a chunk for that file
that the network accepts. -/
def chunkFor (net : Network) (file : UInt32) : Op → Option (Nat × Nat)
  | .sendChunk me id offset data =>
    match net.sendChunk me id offset data with
    | .ok _ => if id.file = file then some (offset, data.size) else none
    | .error _ => none
  | _ => none

/-- Whether an operation offers a new flow with that file number. -/
def opensFile (net : Network) (file : UInt32) : Op → Bool
  | .offerFile me peer name size =>
    match net.offerFile me peer name size with
    | .ok r => r.2.file == file
    | .error _ => false
  | _ => false

/-- The chunks accepted for a file since its flow was offered, after one more operation: an offer
of that file number starts the list again. -/
def logChunk (net : Network) (file : UInt32) (op : Op) (sent : List (Nat × Nat)) : List (Nat × Nat) :=
  if net.opensFile file op then [] else sent ++ (net.chunkFor file op).toList

/-- The chunks accepted for a file along a run, since its flow was last offered. -/
def sentSince (file : UInt32) : Network → List (Nat × Nat) → List Op → List (Nat × Nat)
  | _, sent, [] => sent
  | net, sent, op :: ops => sentSince file (net.apply op) (net.logChunk file op sent) ops

/-- Whether an operation is a chunk or a resume for the file: the two that can complete it. -/
def endsFlow (file : UInt32) : Op → Bool
  | .sendChunk _ id _ _ => id.file == file
  | .setControl _ id .resume => id.file == file
  | _ => false

/-- An operation completes the flow of a file: a chunk or a resume for it, after which the flow,
live before, is gone. -/
def Completes (net : Network) (file : UInt32) (op : Op) : Prop :=
  endsFlow file op = true ∧ (net.flow? file).isSome = true ∧ (net.apply op).flow? file = none

instance (net : Network) (file : UInt32) (op : Op) : Decidable (net.Completes file op) :=
  inferInstanceAs (Decidable (endsFlow file op = true ∧ (net.flow? file).isSome = true ∧
    (net.apply op).flow? file = none))

/-- A chunk accepted for the file starts at or below the flow's mark, so it skips no byte. -/
def startsInside (net : Network) (file : UInt32) (op : Op) : Bool :=
  (net.chunkFor file op).all fun c => (net.flow? file).all fun f => c.1 ≤ f.delivered

/-- Every chunk accepted for the file along the run starts within what has already arrived. -/
def Gapless (file : UInt32) : Network → List Op → Prop
  | _, [] => True
  | net, op :: ops => net.startsInside file op = true ∧ Gapless file (net.apply op) ops

instance decGapless (file : UInt32) : (net : Network) → (ops : List Op) → Decidable (Gapless file net ops)
  | _, [] => isTrue trivial
  | net, op :: ops =>
    have := decGapless file (net.apply op) ops
    inferInstanceAs (Decidable (net.startsInside file op = true ∧ Gapless file (net.apply op) ops))

theorem sentSince_append (file : UInt32) (net : Network) (sent : List (Nat × Nat)) (ops : List Op) (op : Op) :
    sentSince file net sent (ops ++ [op]) = (net.run ops).logChunk file op (sentSince file net sent ops) := by
  induction ops generalizing net sent with
  | nil => rfl
  | cons op' ops ih => exact ih (net.apply op') _

theorem Gapless.of_append {file : UInt32} {net : Network} {ops more : List Op}
    (h : Gapless file net (ops ++ more)) : Gapless file net ops ∧ Gapless file (net.run ops) more := by
  induction ops generalizing net with
  | nil => exact ⟨trivial, h⟩
  | cons op ops ih =>
    obtain ⟨hop, hrest⟩ := h
    obtain ⟨hops, hmore⟩ := ih hrest
    exact ⟨⟨hop, hops⟩, hmore⟩

/-! ## What one operation does to the file's flow -/

section
variable {net net' : Network} {file : UInt32} {op : Op}

theorem endsFlow_eq_true (h : endsFlow file op = true) :
    (∃ me id offset data, op = .sendChunk me id offset data ∧ id.file = file) ∨
      ∃ me id, op = .setControl me id .resume ∧ id.file = file := by
  unfold endsFlow at h
  split at h
  · exact .inl ⟨_, _, _, _, rfl, by simpa using h⟩
  · exact .inr ⟨_, _, rfl, by simpa using h⟩
  · cases h

theorem chunkFor_eq_some {c : Nat × Nat} (h : net.chunkFor file op = some c) :
    ∃ me id data net', op = .sendChunk me id c.1 data ∧ c.2 = data.size ∧ id.file = file ∧
      net.sendChunk me id c.1 data = .ok net' ∧ net.apply op = net' := by
  unfold chunkFor at h
  split at h
  · rename_i me id offset data
    cases hs : net.sendChunk me id offset data with
    | error e => rw [hs] at h; cases h
    | ok net' =>
      rw [hs] at h
      dsimp only at h
      split at h
      · rename_i hid
        cases h
        exact ⟨me, id, data, net', rfl, rfl, hid, hs, by simp only [Network.apply, hs, orStay]⟩
      · cases h
  · cases h

theorem opensFile_eq_true (h : net.opensFile file op = true) :
    ∃ me peer name size r, op = .offerFile me peer name size ∧ net.offerFile me peer name size = .ok r ∧
      r.2.file = file ∧ net.apply op = r.1 := by
  unfold opensFile at h
  split at h
  · rename_i me peer name size
    cases ho : net.offerFile me peer name size with
    | error e => rw [ho] at h; cases h
    | ok r =>
      rw [ho] at h
      exact ⟨me, peer, name, size, r, rfl, ho, by simpa using h, by simp only [Network.apply, ho, Except.map, orStay]⟩
  · cases h

theorem flow?_complete (net : Network) (file file' : UInt32) :
    (net.complete file).flow? file' = if file' = file then none else net.flow? file' := by
  cases hf : net.flow? file with
  | none =>
    rw [complete_of_none hf]
    split
    · rename_i h
      rw [h, hf]
    · rfl
  | some fl => rw [complete_of_flow hf, flow?_post, flow?_post, flow?_dropFlow]

theorem flow?_post_setFlow (net : Network) (file : UInt32) (f : Flow) (dest src : PublicKey)
    (make : UInt32 → Event) : ((net.setFlow file f).post dest src make).flow? file = some f := by
  rw [flow?_post, flow?_setFlow, if_pos rfl]

/-- A chunk that goes through leaves the flow live with its mark at the chunk's end, or, once the
mark reaches the size, completes it. -/
theorem flow?_sendChunk {me : PublicKey} {id : TransferId} {offset : Nat} {data : ByteArray}
    {f : Flow} (h : net.sendChunk me id offset data = .ok net') (hf : net.flow? id.file = some f) :
    (offset + data.size) % Nat.pow 2 64 ≤ f.size ∧
      (net'.flow? id.file = none ∧ f.size ≤ max f.delivered ((offset + data.size) % Nat.pow 2 64) ∨
        net'.flow? id.file = some { f with
          outstanding := f.outstanding - 1
          delivered := max f.delivered ((offset + data.size) % Nat.pow 2 64) }) := by
  obtain ⟨g, hg, -, -, hstop, rfl⟩ := sendChunk_ok h
  have hgf : g = f := Option.some.inj ((flow?_of_flowOf hg).symm.trans hf)
  subst hgf
  refine ⟨hstop, ?_⟩
  dsimp only
  split
  · rename_i hdone
    exact .inl ⟨by rw [flow?_complete, if_pos rfl], hdone⟩
  · exact .inr (flow?_post_setFlow _ _ _ _ _ _)

/-- A control that goes through finds its flow; afterwards the flow of the transfer's file is gone
or keeps its mark, and a resume ends it only when the file is empty. -/
theorem setControl_ok {me : PublicKey} {id : TransferId} {c : FileControl}
    (h : net.setControl me id c = .ok net') :
    ∃ f, net.flowOf me id = .ok f ∧
      (net'.flow? id.file = none ∨ ∃ f', net'.flow? id.file = some f' ∧ f'.delivered = f.delivered) ∧
      (c = .resume → net'.flow? id.file = none → f.size = 0) := by
  unfold setControl at h
  cases hf : net.flowOf me id with
  | error e => rw [hf] at h; cases h
  | ok f =>
    simp only [hf, bind, Except.bind, pure, Except.pure, Except.ok.injEq] at h
    subst h
    refine ⟨f, rfl, ?_⟩
    cases c with
    | resume =>
      dsimp only
      split
      · -- finished: the flow was accepted and is empty
        rename_i hfin
        refine ⟨.inl (by rw [flow?_complete, if_pos rfl]), fun _ _ => ?_⟩
        simp only [Bool.and_eq_true, beq_iff_eq] at hfin
        exact hfin.2
      · refine ⟨.inr ⟨_, flow?_post_setFlow _ _ _ _ _ _, rfl⟩, fun _ hnone => ?_⟩
        rw [flow?_post_setFlow] at hnone
        cases hnone
    | pause =>
      dsimp only
      rw [if_neg Bool.false_ne_true]
      refine ⟨.inr ⟨_, flow?_post_setFlow _ _ _ _ _ _, rfl⟩, fun hc => ?_⟩
      cases hc
    | cancel =>
      dsimp only
      rw [if_neg Bool.false_ne_true]
      refine ⟨.inl (by rw [flow?_post, flow?_dropFlow, if_pos rfl]), fun hc => ?_⟩
      cases hc

end

/-! ## The mark of the file's flow -/

/-- The live flow of the file, if any, has a mark no higher than before. -/
def MarkHolds (file : UInt32) (net net' : Network) : Prop :=
  ∀ f', net'.flow? file = some f' → ∃ f, net.flow? file = some f ∧ f'.delivered ≤ f.delivered

section
variable {net net' net'' : Network} {file : UInt32}

theorem MarkHolds.refl (file : UInt32) (net : Network) : MarkHolds file net net :=
  fun f hf => ⟨f, hf, Nat.le_refl _⟩

theorem MarkHolds.trans (h₁ : MarkHolds file net net') (h₂ : MarkHolds file net' net'') :
    MarkHolds file net net'' := by
  intro f'' hf''
  obtain ⟨f', hf', hle'⟩ := h₂ f'' hf''
  obtain ⟨f, hf, hle⟩ := h₁ f' hf'
  exact ⟨f, hf, Nat.le_trans hle' hle⟩

theorem markHolds_of_flow? (h : net'.flow? file = none ∨ net'.flow? file = net.flow? file) :
    MarkHolds file net net' := by
  intro f' hf'
  rcases h with h | h
  · rw [h] at hf'
    cases hf'
  · exact ⟨f', h ▸ hf', Nat.le_refl _⟩

theorem Quiet.markHolds (h : Quiet net net') : MarkHolds file net net' :=
  markHolds_of_flow? (.inr (by unfold flow?; rw [h.2]))

theorem markHolds_of_aside (h : Aside file net net') : MarkHolds file net net' :=
  markHolds_of_flow? (.inr h.flow?)

theorem foldl_markHolds {β : Type} (f : Network → β → Network) (hf : ∀ n b, MarkHolds file n (f n b))
    (l : List β) (n : Network) : MarkHolds file n (l.foldl f n) := by
  induction l generalizing n with
  | nil => exact MarkHolds.refl file n
  | cons b l ih => exact (hf n b).trans (ih (f n b))

theorem pullsOf_delivered (id : TransferId) (f : Flow) (fuel : Nat) :
    (pullsOf id f fuel).1.delivered = f.delivered := by
  induction fuel generalizing f with
  | zero => rfl
  | succ fuel ih =>
    simp only [pullsOf]
    split
    · exact ih _
    · rfl

theorem roundEntry_delivered (n : Node) (me : PublicKey) (e : UInt32 × Flow) :
    (roundEntry n me e).1.2.delivered = e.2.delivered := by
  unfold roundEntry
  split
  · split
    · exact pullsOf_delivered _ _ _
    · rfl
  · rfl

theorem markHolds_pump (net : Network) (me : PublicKey) (file : UInt32) :
    MarkHolds file net (net.pump me).1 := by
  cases hn : net.node? me with
  | none =>
    simp only [pump, hn]
    exact MarkHolds.refl file net
  | some n =>
    -- a round only makes pulls, which leave the mark alone
    intro f' hf'
    rw [flow?_eq_entries, entries_pump hn, List.head?_map, Option.map_map] at hf'
    obtain ⟨e, he, rfl⟩ := Option.map_eq_some_iff.1 hf'
    refine ⟨e.2, by rw [flow?_eq_entries, he]; rfl, Nat.le_of_eq (roundEntry_delivered n me e)⟩

theorem markHolds_leave (net : Network) (me : PublicKey) (file : UInt32) :
    MarkHolds file net (net.leave me) := by
  cases hn : net.node? me with
  | none =>
    simp only [leave, hn]
    exact MarkHolds.refl file net
  | some n =>
    simp only [leave, hn]
    -- taking the node away keeps the flows; each step of the fold drops one of them
    refine foldl_markHolds _ (fun m g => markHolds_of_flow? ?_) _ _
    rw [flow?_post, flow?_dropFlow]
    split
    · exact .inl rfl
    · exact .inr rfl

theorem markHolds_setControl {me : PublicKey} {id : TransferId} {c : FileControl}
    (h : net.setControl me id c = .ok net') (file : UInt32) : MarkHolds file net net' := by
  by_cases hid : id.file = file
  · subst hid
    obtain ⟨f, hf, hflow, -⟩ := setControl_ok h
    rcases hflow with hnone | ⟨f', hf', hd⟩
    · exact markHolds_of_flow? (.inl hnone)
    · intro g hg
      rw [hf'] at hg
      cases hg
      exact ⟨f, flow?_of_flowOf hf, Nat.le_of_eq hd⟩
  · exact markHolds_of_aside (aside_setControl h hid)

/-- An operation that neither offers the file nor hands over a chunk for it leaves the mark of its
flow no higher. -/
theorem markHolds_apply {op : Op} (hopen : net.opensFile file op = false)
    (hc : net.chunkFor file op = none) : MarkHolds file net (net.apply op) := by
  cases op with
  | fresh name => exact Quiet.markHolds ⟨widens_append _ _, rfl⟩
  | restore name state =>
    exact orStay_map_cases net (MarkHolds.refl file net) fun _ h => (quiet_restore h).markHolds
  | befriend a b =>
    exact orStay_cases net (MarkHolds.refl file net) fun _ h => (quiet_befriend h).markHolds
  | requestFriend src dest message =>
    exact orStay_cases net (MarkHolds.refl file net) fun _ h => (quiet_requestFriend h).markHolds
  | addFriend me k =>
    exact orStay_map_cases net (MarkHolds.refl file net) fun _ h => (quiet_addFriend h).markHolds
  | sendText me peer text =>
    exact orStay_map_cases net (MarkHolds.refl file net) fun _ h => (quiet_sendText h).markHolds
  | offerFile me peer name size =>
    refine orStay_map_cases net (MarkHolds.refl file net) fun r hr => ?_
    obtain ⟨net', id⟩ := r
    -- an offer of another file number
    obtain ⟨friend, -, rfl⟩ := offerFile_eq_ok hr
    have hne : net.nextFile ≠ file := by simpa [opensFile, hr] using hopen
    exact markHolds_of_aside (aside_offerFile hr hne).1
  | setControl me id c =>
    exact orStay_cases net (MarkHolds.refl file net) fun _ h => markHolds_setControl h file
  | sendChunk me id offset data =>
    refine orStay_cases net (MarkHolds.refl file net) fun _ h => ?_
    by_cases hid : id.file = file
    · -- a chunk for the file that goes through is one `chunkFor` names
      simp [chunkFor, h, hid] at hc
    · exact markHolds_of_aside (aside_sendChunk h hid)
  | pump me => exact markHolds_pump net me file
  | saveState me => exact MarkHolds.refl file net
  | leave me => exact markHolds_leave net me file

end

/-! ## The chunks cover what has arrived -/

theorem Covers.mono {sent : List (Nat × Nat)} {n m : Nat} (h : Covers sent n) (hle : m ≤ n) :
    Covers sent m :=
  fun b hb => h b (Nat.lt_of_lt_of_le hb hle)

theorem Covers.append {sent : List (Nat × Nat)} {n : Nat} (h : Covers sent n) (more : List (Nat × Nat)) :
    Covers (sent ++ more) n := by
  intro b hb
  obtain ⟨c, hc, hcb⟩ := h b hb
  exact ⟨c, List.mem_append_left _ hc, hcb⟩

theorem covers_zero (sent : List (Nat × Nat)) : Covers sent 0 :=
  fun _ hb => absurd hb (Nat.not_lt_zero _)

theorem Covers.chunk {sent : List (Nat × Nat)} {d o l s : Nat} (h : Covers sent d) (ho : o ≤ d)
    (hs : s ≤ o + l) : Covers (sent ++ [(o, l)]) (max d s) := by
  intro b hb
  by_cases hbd : b < d
  · exact (h.append _) b hbd
  · -- a byte past the old mark lies in the new chunk
    have hbs : b < s := by omega
    exact ⟨(o, l), List.mem_append_right _ (List.mem_singleton_self _), by omega, by omega⟩

/-- The chunks cover the file of the live flow up to its mark. -/
def Covered (file : UInt32) (net : Network) (sent : List (Nat × Nat)) : Prop :=
  ∀ f, net.flow? file = some f → Covers sent f.delivered

section
variable {net net' : Network} {file : UInt32} {sent : List (Nat × Nat)}

theorem covered_empty (file : UInt32) : Covered file {} [] := fun _ hf => by cases hf

theorem Covered.hold (h : Covered file net sent) (hm : MarkHolds file net net') : Covered file net' sent := by
  intro f' hf'
  obtain ⟨f, hf, hle⟩ := hm f' hf'
  exact (h f hf).mono hle

/-- A new offer of the file starts with nothing arrived. -/
theorem covered_of_opens {op : Op} (h : net.opensFile file op = true) : Covered file (net.apply op) [] := by
  obtain ⟨me, peer, name, size, ⟨net', id⟩, -, hoff, hfile, happ⟩ := opensFile_eq_true h
  obtain ⟨friend, rfl, rfl⟩ := offerFile_eq_ok hoff
  rw [happ]
  intro f hf
  rw [flow?_post, flow?_setFlow, if_pos hfile.symm] at hf
  cases hf
  exact covers_zero _

/-- A chunk that starts within what has arrived keeps the chunks covering the file up to the mark. -/
theorem Covered.chunk {o l : Nat} {op : Op} (h : Covered file net sent) (hc : net.chunkFor file op = some (o, l))
    (hin : net.startsInside file op = true) : Covered file (net.apply op) (sent ++ [(o, l)]) := by
  obtain ⟨me, id, data, net', rfl, hlen, hfile, hsend, happ⟩ := chunkFor_eq_some hc
  subst hfile
  obtain ⟨f, hflow, -⟩ := sendChunk_ok hsend
  have hf : net.flow? id.file = some f := flow?_of_flowOf hflow
  have hstart : o ≤ f.delivered := by simpa [startsInside, hc, hf] using hin
  rw [happ]
  intro g hg
  obtain ⟨-, hdone | hlive⟩ := flow?_sendChunk hsend hf
  · rw [hdone.1] at hg
    cases hg
  · rw [hlive] at hg
    cases hg
    exact (h f hf).chunk hstart (hlen ▸ Nat.mod_le _ _)

/-- One operation keeps the chunks since the last offer covering the file up to its mark, when a
chunk it hands over starts within what has arrived. -/
theorem Covered.apply {op : Op} (h : Covered file net sent) (hin : net.startsInside file op = true) :
    Covered file (net.apply op) (net.logChunk file op sent) := by
  unfold logChunk
  split
  · exact covered_of_opens ‹_›
  · rename_i hopen
    cases hc : net.chunkFor file op with
    | none =>
      rw [Option.toList_none, List.append_nil]
      exact h.hold (markHolds_apply (by simpa using hopen) hc)
    | some c =>
      obtain ⟨o, l⟩ := c
      exact h.chunk hc hin

theorem Covered.run {ops : List Op} (h : Covered file net sent) (hgap : Gapless file net ops) :
    Covered file (net.run ops) (sentSince file net sent ops) := by
  induction ops generalizing net sent with
  | nil => exact h
  | cons op ops ih => exact ih (h.apply hgap.1) hgap.2

theorem orStay_ok_of_gone {r : Except NativeError Network} {f : Flow} (hf : net.flow? file = some f)
    (hgone : (net.orStay r).flow? file = none) : ∃ net', r = .ok net' ∧ net'.flow? file = none := by
  cases r with
  | ok net' => exact ⟨net', rfl, hgone⟩
  | error e =>
    rw [orStay, hf] at hgone
    cases hgone

/-- At the operation that completes the flow, the chunks cover the whole file. -/
theorem Covered.complete {op : Op} {f : Flow} (h : Covered file net sent) (hdone : net.Completes file op)
    (hf : net.flow? file = some f) (hin : net.startsInside file op = true) :
    Covers (net.logChunk file op sent) f.size := by
  obtain ⟨hends, -, hgone⟩ := hdone
  rcases endsFlow_eq_true hends with ⟨me, id, o, data, rfl, hid⟩ | ⟨me, id, rfl, hid⟩
  · obtain ⟨net', hs, hgone'⟩ := orStay_ok_of_gone hf hgone
    have hc : net.chunkFor file (.sendChunk me id o data) = some (o, data.size) := by
      simp [chunkFor, hs, hid]
    have hopen : net.opensFile file (.sendChunk me id o data) = false := rfl
    rw [logChunk, hopen, if_neg Bool.false_ne_true, hc, Option.toList_some]
    subst hid
    have hstart : o ≤ f.delivered := by simpa [startsInside, hc, hf] using hin
    obtain ⟨hstop, hdone | hlive⟩ := flow?_sendChunk hs hf
    · -- the mark reached the size with this chunk
      exact ((h f hf).chunk hstart (Nat.mod_le _ _)).mono hdone.2
    · rw [hlive] at hgone'
      cases hgone'
  · obtain ⟨net', hs, hgone'⟩ := orStay_ok_of_gone hf hgone
    subst hid
    -- a resume completes only an empty file
    obtain ⟨g, hg, -, hempty⟩ := setControl_ok hs
    have hgf : g = f := Option.some.inj ((flow?_of_flowOf hg).symm.trans hf)
    subst hgf
    rw [hempty rfl hgone']
    exact covers_zero _

end

/-! ## Completion -/

/-- Along any run from the empty network in which every chunk accepted for a file starts within
what has already arrived, the operation that completes the file's flow finds every byte of the
file in one of the chunks accepted for it since it was offered. -/
theorem completed_flow_was_sent_whole {file : UInt32} {pre : List Op} {op : Op}
    (hgap : Gapless file {} (pre ++ [op])) (hdone : (run {} pre).Completes file op) :
    ∃ f, (run {} pre).flow? file = some f ∧ Covers (sentSince file {} [] (pre ++ [op])) f.size := by
  obtain ⟨hpre, hlast⟩ := hgap.of_append
  have hcov : Covered file (run {} pre) (sentSince file {} [] pre) := (covered_empty file).run hpre
  obtain ⟨f, hf⟩ := Option.isSome_iff_exists.1 hdone.2.1
  refine ⟨f, hf, ?_⟩
  rw [sentSince_append]
  exact hcov.complete hdone hf hlast.1

/-- Two nodes that are friends; the first offers a file of two bytes and sends it in two chunks,
front to back. The second chunk completes the flow, with both bytes sent. -/
theorem in_order_chunks_complete_whole :
    let alice := freshKey ({} : Network)
    let bob := freshKey ({ made := 1 } : Network)
    let pre : List Op := [.fresh "alice", .fresh "bob", .befriend alice bob,
      .offerFile alice 0 "f.bin" 2, .sendChunk alice ⟨0, 0⟩ 0 ⟨#[0xaa]⟩]
    let op : Op := .sendChunk alice ⟨0, 0⟩ 1 ⟨#[0xbb]⟩
    Gapless 0 {} (pre ++ [op]) ∧ (run {} pre).Completes 0 op ∧
      ∃ f, (run {} pre).flow? 0 = some f ∧ Covers (sentSince 0 {} [] (pre ++ [op])) f.size :=
  ⟨by decide +kernel, by decide +kernel,
    completed_flow_was_sent_whole (by decide +kernel) (by decide +kernel)⟩

/-- The same file, but only its last byte is sent: that one chunk raises the mark to the size and
completes the flow, though byte 0 never came. The chunk starts past the mark, so the run is not
gapless. -/
theorem lone_last_chunk_completes_flow :
    let alice := freshKey ({} : Network)
    let bob := freshKey ({ made := 1 } : Network)
    let pre : List Op := [.fresh "alice", .fresh "bob", .befriend alice bob,
      .offerFile alice 0 "f.bin" 2]
    let op : Op := .sendChunk alice ⟨0, 0⟩ 1 ⟨#[0xaa]⟩
    ((run {} pre).flow? 0).map Flow.size = some 2 ∧ (run {} pre).Completes 0 op ∧
      ¬ Covers (sentSince 0 {} [] (pre ++ [op])) 2 ∧ ¬ Gapless 0 {} (pre ++ [op]) := by
  decide +kernel

end Network

end Courier
