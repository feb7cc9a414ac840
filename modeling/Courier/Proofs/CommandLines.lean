-- Reading a command line as a verb and an argument, with blanks and case as the reader takes them;
-- and a friend message's commands queued in order until the queue is full.
import Courier.Command
import Courier.Daemon.Handler
import Courier.Proofs.AddressText
import Mathlib

namespace Courier

namespace Text

theorem dropBlank_eq_nil_iff (cs : List Char) : dropBlank cs = [] ↔ ∀ c ∈ cs, isBlank c = true := by
  simp [dropBlank, List.dropWhile_eq_nil_iff]

theorem takeWhile_word {w rest : List Char} (hw : ∀ c ∈ w, isBlank c = false)
    (hrest : ∀ c ∈ rest.head?, isBlank c = true) :
    (w ++ rest).takeWhile (fun c => !isBlank c) = w ∧
      (w ++ rest).dropWhile (fun c => !isBlank c) = rest := by
  induction w with
  | nil =>
    cases rest with
    | nil => exact ⟨rfl, rfl⟩
    | cons r rs =>
      have hr : isBlank r = true := hrest r rfl
      simp [hr]
  | cons c w ih =>
    have hc : isBlank c = false := hw c List.mem_cons_self
    obtain ⟨htake, hdrop⟩ := ih fun x hx => hw x (List.mem_cons_of_mem _ hx)
    simp [hc, htake, hdrop]

/-- Characters with a non-blank among them are their leading blanks, their first word of
non-blanks, and a rest that is empty or starts with a blank. -/
theorem exists_word {cs : List Char} (h : ∃ c ∈ cs, isBlank c = false) :
    ∃ pre w rest, cs = pre ++ w ++ rest ∧ (∀ c ∈ pre, isBlank c = true) ∧ w ≠ [] ∧
      (∀ c ∈ w, isBlank c = false) ∧ (∀ c ∈ rest.head?, isBlank c = true) := by
  have hne : cs.dropWhile isBlank ≠ [] := by
    rw [ne_eq, List.dropWhile_eq_nil_iff]
    obtain ⟨c, hc, hb⟩ := h
    intro hall
    rw [hall c hc] at hb
    cases hb
  obtain ⟨d, ds, hd⟩ := List.exists_cons_of_ne_nil hne
  -- the first character after the leading blanks is no blank
  have hdb : isBlank d = false := by
    have hhead := List.head?_dropWhile_not isBlank cs
    rw [hd] at hhead
    exact hhead
  refine ⟨cs.takeWhile isBlank, (cs.dropWhile isBlank).takeWhile (fun c => !isBlank c),
    (cs.dropWhile isBlank).dropWhile (fun c => !isBlank c), ?_,
    fun c hc => List.mem_takeWhile_imp hc, ?_, fun c hc => by simpa using List.mem_takeWhile_imp hc, ?_⟩
  · rw [List.append_assoc, List.takeWhile_append_dropWhile, List.takeWhile_append_dropWhile]
  · rw [hd, List.takeWhile_cons_of_pos (by simp [hdb])]
    exact List.cons_ne_nil _ _
  · intro c hc
    have hhead := List.head?_dropWhile_not (fun c => !isBlank c) (cs.dropWhile isBlank)
    rw [Option.mem_def] at hc
    rw [hc] at hhead
    simpa using hhead

end Text

namespace Command

/-- The command that a verb and the argument after it name, the verb in any case: `send` with an
argument, `save`, `status` and `help` without one. Anything else is an unknown command, kept as
the line without its outer blanks. -/
def named (verb arg line : String) : Command :=
  if verb.toLower = "send" ∧ arg ≠ "" then .send arg
  else if verb.toLower = "save" ∧ arg = "" then .save
  else if verb.toLower = "status" ∧ arg = "" then .status
  else if verb.toLower = "help" ∧ arg = "" then .help
  else .unknown line

end Command

theorem lowerAscii_eq_toLower (s : String) : lowerAscii s = s.toLower := by
  apply String.ext
  rw [lowerAscii, String.toList_ofList, String.toLower, String.toList_map]
  apply List.map_congr_left
  intro c _
  have hrange : ('A' ≤ c && c ≤ 'Z') = true ↔ 65 ≤ c.toNat ∧ c.toNat ≤ 90 := by
    simp [Char.le_def, UInt32.le_iff_toNat_le, Char.toNat_val]
  apply Char.toNat_inj.1
  rw [Text.toNat_toLower]
  by_cases h : 65 ≤ c.toNat ∧ c.toNat ≤ 90
  · rw [if_pos (hrange.2 h), if_pos h, Text.toNat_ofNat_of_lt (by omega)]
  · rw [if_neg (mt hrange.1 h), if_neg h]

/-- A line of blanks, then a word of non-blanks, then a rest that is empty or starts with a blank,
splits into the word and the rest without its outer blanks, none when that is empty. -/
theorem splitCommand_of_word {line : String} {pre w rest : List Char}
    (hline : line.toList = pre ++ w ++ rest) (hpre : ∀ c ∈ pre, Text.isBlank c = true)
    (hw : w ≠ []) (hword : ∀ c ∈ w, Text.isBlank c = false)
    (hrest : ∀ c ∈ rest.head?, Text.isBlank c = true) (hnl : '\n' ∉ line.toList) :
    splitCommand line = some (String.ofList w,
      if Text.trimBlank (String.ofList rest) = "" then none
      else some (Text.trimBlank (String.ofList rest))) := by
  obtain ⟨c, cs, rfl⟩ := List.exists_cons_of_ne_nil hw
  have hfront : Text.dropBlank line.toList = c :: cs ++ rest := by
    rw [hline, List.append_assoc, Text.dropBlank_append_of_blank hpre, List.cons_append,
      Text.dropBlank_of_head (hword c List.mem_cons_self)]
  obtain ⟨htake, hdrop⟩ := Text.takeWhile_word hword hrest
  have htrim : Text.trimBlank (String.ofList rest) =
      String.ofList (Text.dropBlank (Text.dropBlank rest).reverse).reverse := by
    rw [Text.trimBlank, String.toList_ofList]
  -- the argument is part of the line, so it holds no line feed either
  have hnoline : ((Text.dropBlank (Text.dropBlank rest).reverse).reverse.contains '\n') = false := by
    rw [Bool.eq_false_iff]
    intro h
    have h₁ : '\n' ∈ Text.dropBlank (Text.dropBlank rest).reverse :=
      List.mem_reverse.1 (List.elem_iff.1 h)
    have h₂ : '\n' ∈ Text.dropBlank rest := List.mem_reverse.1 (List.dropWhile_subset _ h₁)
    have hmem : '\n' ∈ rest := List.dropWhile_subset _ h₂
    exact hnl (by rw [hline]; simp [hmem])
  unfold splitCommand
  simp only [hfront, htake, hdrop, htrim]
  generalize (Text.dropBlank (Text.dropBlank rest).reverse).reverse = arg at hnoline ⊢
  cases arg with
  | nil => simp
  | cons a as =>
    simp at hnoline ⊢
    exact hnoline

theorem parse_of_word {line : String} {pre w rest : List Char}
    (hline : line.toList = pre ++ w ++ rest) (hpre : ∀ c ∈ pre, Text.isBlank c = true)
    (hw : w ≠ []) (hword : ∀ c ∈ w, Text.isBlank c = false)
    (hrest : ∀ c ∈ rest.head?, Text.isBlank c = true) (hnl : '\n' ∉ line.toList) :
    Command.parse line = some (Command.named (String.ofList w) (Text.trimBlank (String.ofList rest))
      (Text.trimBlank line)) := by
  rw [Command.parse, splitCommand_of_word hline hpre hw hword hrest hnl, Option.map_some]
  dsimp only
  rw [lowerAscii_eq_toLower, Option.some.injEq, Command.named]
  generalize (String.ofList w).toLower = v
  generalize Text.trimBlank (String.ofList rest) = a
  -- the cases of the match are the four verbs and the rest
  by_cases ha : a = ""
  · -- no argument: `save`, `status` and `help` stand alone
    subst ha
    simp only [if_true]
    split <;> simp_all
  · -- an argument: only `send` takes one
    simp only [ha, if_false]
    split <;> simp_all

/-- A line without a line feed is no command exactly when it is all blanks. -/
theorem parse_eq_none_iff {line : String} (hnl : '\n' ∉ line.toList) :
    Command.parse line = none ↔ ∀ c ∈ line.toList, Text.isBlank c = true := by
  constructor
  · intro h
    by_contra hall
    -- a line with a non-blank has a first word, and then it reads as some command
    obtain ⟨pre, w, rest, hline, hpre, hw, hword, hrest⟩ := Text.exists_word (by simpa using hall)
    rw [parse_of_word hline hpre hw hword hrest hnl] at h
    cases h
  · intro h
    have hdrop : Text.dropBlank line.toList = [] := (Text.dropBlank_eq_nil_iff _).2 h
    simp [Command.parse, splitCommand, hdrop]

/-- A line without a line feed is no command exactly when it is all blanks. Otherwise take its
leading blanks, its first word of non-blanks, and the rest after the word, which is empty or
starts with a blank: the line reads as the command that the word and the rest without its outer
blanks name, and as an unknown command keeping the line without its outer blanks when they
name none. -/
theorem lines_read_as_verb_and_argument (line : String) (hnl : '\n' ∉ line.toList) :
    (Command.parse line = none ↔ ∀ c ∈ line.toList, Text.isBlank c = true) ∧
    ∀ pre w rest : List Char, line.toList = pre ++ w ++ rest →
      (∀ c ∈ pre, Text.isBlank c = true) → w ≠ [] → (∀ c ∈ w, Text.isBlank c = false) →
      (∀ c ∈ rest.head?, Text.isBlank c = true) →
      Command.parse line = some (Command.named (String.ofList w)
        (Text.trimBlank (String.ofList rest)) (Text.trimBlank line)) :=
  ⟨parse_eq_none_iff hnl, fun _ _ _ hline hpre hw hword hrest =>
    parse_of_word hline hpre hw hword hrest hnl⟩

/-- An upper-case `send` with blanks around it and inside its argument reads as sending the
argument without its outer blanks. -/
theorem shouted_send_reads_its_argument :
    '\n' ∉ "  SEND  my file.txt  ".toList ∧
      Command.parse "  SEND  my file.txt  " = some (.send "my file.txt") := by
  have hnl : '\n' ∉ "  SEND  my file.txt  ".toList := by simp
  have hread := (lines_read_as_verb_and_argument "  SEND  my file.txt  " hnl).2 [' ', ' ']
    ['S', 'E', 'N', 'D'] [' ', ' ', 'm', 'y', ' ', 'f', 'i', 'l', 'e', '.', 't', 'x', 't', ' ', ' ']
    (by simp) (by simp [Text.isBlank]) (by simp) (by simp [Text.isBlank]) (by simp [Text.isBlank])
  have hverb : (String.ofList ['S', 'E', 'N', 'D']).toLower = "send" := by
    apply String.ext
    simp [String.toLower, String.toList_map]
  have harg : Text.trimBlank
      (String.ofList [' ', ' ', 'm', 'y', ' ', 'f', 'i', 'l', 'e', '.', 't', 'x', 't', ' ', ' ']) =
      "my file.txt" := by
    simp [Text.trimBlank, Text.dropBlank, Text.isBlank]
  refine ⟨hnl, hread.trans ?_⟩
  simp [Command.named, hverb, harg]

/-! ## Queueing the commands of a message -/

namespace CommandQueue

/-- The free slots of a queue. -/
def room (q : CommandQueue) : Nat := q.capacity - q.items.length

@[simp] theorem offer_capacity (q : CommandQueue) (r : CommandRequest) :
    (q.offer r).capacity = q.capacity := by
  unfold offer
  split <;> rfl

/-- An offer puts the command at the back when there is room and drops it otherwise: what goes
to the back is the one-command list cut to the room. -/
theorem offer_items (q : CommandQueue) (r : CommandRequest) :
    (q.offer r).items = q.items ++ [r].take q.room := by
  unfold offer room
  split
  · -- a free slot: the cut keeps the command
    rename_i hroom
    rw [List.take_of_length_le (by simp; omega)]
  · -- a full queue has no room, and the cut is empty
    rename_i hfull
    rw [Nat.sub_eq_zero_of_le (by omega), List.take_zero, List.append_nil]

theorem room_offer (q : CommandQueue) (r : CommandRequest) : (q.offer r).room = q.room - 1 := by
  have hlen := congrArg List.length (offer_items q r)
  rw [List.length_append, List.length_take, List.length_singleton] at hlen
  rw [room, offer_capacity, hlen, room]
  omega

/-- Offering commands one after another queues the first ones that find room, in order. -/
theorem items_foldl_offer (q : CommandQueue) (rs : List CommandRequest) :
    (rs.foldl offer q).items = q.items ++ rs.take q.room := by
  induction rs generalizing q with
  | nil => simp
  | cons r rs ih =>
    rw [List.foldl_cons, ih, offer_items, room_offer, List.append_assoc]
    -- the first command takes a slot if there is one, and the rest share what is left
    cases q.room with
    | zero => simp
    | succ n => simp

theorem capacity_foldl_offer (q : CommandQueue) (rs : List CommandRequest) :
    (rs.foldl offer q).capacity = q.capacity := by
  induction rs generalizing q with
  | nil => rfl
  | cons r rs ih => rw [List.foldl_cons, ih, offer_capacity]

end CommandQueue

/-- A friend message queues, in order and tagged with the friend's peer number, exactly the
first commands of its lines that fit in the queue's free slots, as many as the smaller of the
room and the number of commands, and drops the rest. The queue keeps its capacity. -/
theorem message_fills_the_free_room_in_order (q : CommandQueue) (peer : UInt32) (text : String) :
    (CommandHandler.onMessage q peer text).capacity = q.capacity ∧
    (CommandHandler.onMessage q peer text).items = q.items ++
      (((Command.lines text).filterMap Command.parse).take q.room).map (CommandRequest.mk peer) ∧
    (CommandHandler.onMessage q peer text).items.length =
      q.items.length + min q.room ((Command.lines text).filterMap Command.parse).length := by
  -- the handler offers the commands one by one, each tagged with the peer
  have hfold : CommandHandler.onMessage q peer text =
      (((Command.lines text).filterMap Command.parse).map (CommandRequest.mk peer)).foldl
        CommandQueue.offer q := by
    rw [CommandHandler.onMessage, Command.ofText, List.foldl_map]
  have hitems : (CommandHandler.onMessage q peer text).items = q.items ++
      (((Command.lines text).filterMap Command.parse).take q.room).map (CommandRequest.mk peer) := by
    rw [hfold, CommandQueue.items_foldl_offer, List.map_take]
  refine ⟨by rw [hfold, CommandQueue.capacity_foldl_offer], hitems, ?_⟩
  rw [hitems, List.length_append, List.length_map, List.length_take]

end Courier
