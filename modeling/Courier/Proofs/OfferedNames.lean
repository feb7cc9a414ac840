-- Offered names: whatever name a peer offers, the file the worker makes is a direct child of its
-- receive directory.
import Courier.Proofs.EngineSteps
import Mathlib

namespace Courier.Files

/-! ## The last part of a name -/

/-- The characters that end a part of an offered name. -/
def isNameSep (c : Char) : Bool := c == '/' || c == '\\'

/-- The part of a name after its last `/` or `\`; the whole name when it has neither. -/
def lastPart (name : String) : String :=
  String.ofList (name.toList.reverse.takeWhile (fun c => !isNameSep c)).reverse

/-- A part that names no file of its own: empty, `.`, `..`, or holding NUL. -/
def Unusable (s : String) : Prop := s = "" ∨ s = "." ∨ s = ".." ∨ '\x00' ∈ s.toList

instance : DecidablePred Unusable := fun s =>
  inferInstanceAs (Decidable (s = "" ∨ s = "." ∨ s = ".." ∨ '\x00' ∈ s.toList))

theorem toList_lastPart (name : String) :
    (lastPart name).toList = (name.toList.reverse.takeWhile (fun c => !isNameSep c)).reverse :=
  String.toList_ofList

theorem isNameSep_of_mem_lastPart {name : String} {c : Char} (h : c ∈ (lastPart name).toList) :
    isNameSep c = false := by
  rw [toList_lastPart, List.mem_reverse] at h
  simpa using List.mem_takeWhile_imp h

theorem eq_append_lastPart (name : String) :
    ∃ pre, name.toList = pre ++ (lastPart name).toList ∧
      (pre = [] ∨ ∃ pre' s, pre = pre' ++ [s] ∧ isNameSep s = true) := by
  have hsplit :=
    List.takeWhile_append_dropWhile (p := fun c => !isNameSep c) (l := name.toList.reverse)
  rw [toList_lastPart]
  -- read backwards, the name is its last part and then, unless it is all one part, a separator
  cases hd : name.toList.reverse.dropWhile (fun c => !isNameSep c) with
  | nil =>
    refine ⟨[], ?_, .inl rfl⟩
    rw [hd, List.append_nil] at hsplit
    rw [hsplit]
    simp
  | cons s rest =>
    have hs : isNameSep s = true := by
      have :=
        List.head_dropWhile_not (fun c => !isNameSep c) (l := name.toList.reverse) (by simp [hd])
      simpa [hd] using this
    refine ⟨rest.reverse ++ [s], ?_, .inr ⟨_, s, rfl, hs⟩⟩
    rw [hd] at hsplit
    have := congrArg List.reverse hsplit
    simp only [List.reverse_append, List.reverse_cons, List.reverse_reverse] at this
    exact this.symm

theorem getLast?_splitOnP (name : String) :
    (name.toList.splitOnP isNameSep).getLast? = some (lastPart name).toList := by
  obtain ⟨pre, hname, hpre⟩ := eq_append_lastPart name
  have hplain : (lastPart name).toList.splitOnP isNameSep = [(lastPart name).toList] :=
    List.splitOnP_eq_singleton fun _ hc => isNameSep_of_mem_lastPart hc
  rcases hpre with rfl | ⟨pre', s, rfl, hs⟩
  · rw [hname, List.nil_append, hplain]
    rfl
  · rw [hname, List.append_assoc, List.singleton_append, List.splitOnP_append_cons _ _ hs, hplain]
    simp

theorem refuses_iff (s : String) :
    (s == "" || s == "." || s == ".." || s.contains '\x00') = decide (Unusable s) := by
  rw [Bool.eq_iff_iff, decide_eq_true_iff]
  simp [Unusable, String.contains_char_eq, or_assoc]

/-- The name check is a function of the last part alone. -/
theorem sanitizeName_eq (name : String) :
    sanitizeName name = if Unusable (lastPart name) then none else some (lastPart name) := by
  have hlast : (name.split (fun c => c == '/' || c == '\\')).toList.getLast?.map (·.toString) =
      some (lastPart name) :=
    calc _ = ((name.split isNameSep).toList.map String.Slice.copy).getLast? :=
          List.getLast?_map.symm
      _ = _ := by rw [String.toList_split_bool, List.getLast?_map, getLast?_splitOnP]; simp
  unfold sanitizeName
  rw [hlast]
  simp only [refuses_iff, decide_eq_true_eq]

/-! ## Paths with one more plain name -/

/-- A name that is one plain part of a path: no `/` in it, and neither empty, `.` nor `..`. -/
structure Plain (n : String) : Prop where
  no_slash : '/' ∉ n.toList
  ne_empty : n ≠ ""
  ne_dot : n ≠ "."
  ne_dotdot : n ≠ ".."

/-- Every name the check lets through is a plain part, with no `\` or NUL either. -/
theorem plain_of_sanitizeName {name n : String} (h : sanitizeName name = some n) :
    Plain n ∧ '\\' ∉ n.toList ∧ '\x00' ∉ n.toList := by
  rw [sanitizeName_eq] at h
  split at h
  · cases h
  · rename_i hu
    obtain rfl := Option.some.inj h
    have hsep := fun c => mt (@isNameSep_of_mem_lastPart name c)
    simp only [Unusable, not_or] at hu
    exact ⟨⟨fun h => hsep '/' (by simp [isNameSep]) h, hu.1, hu.2.1, hu.2.2.1⟩,
      fun h => hsep '\\' (by simp [isNameSep]) h, hu.2.2.2⟩

theorem startsWith_slash_iff (p : String) : p.startsWith "/" = true ↔ ['/'] <+: p.toList := by
  rw [String.startsWith_eq_startsWith_toSlice, String.Slice.startsWith_string_iff]
  simp

theorem endsWith_slash_iff (p : String) : p.endsWith "/" = true ↔ ['/'] <:+ p.toList := by
  rw [String.endsWith_eq_endsWith_toSlice, String.Slice.endsWith_string_iff]
  simp

theorem startsWith_slash_append {p : String} (hp : p ≠ "") (q : String) :
    (p ++ q).startsWith "/" = p.startsWith "/" := by
  obtain ⟨c, cs, hc⟩ := List.exists_cons_of_ne_nil (String.toList_eq_nil_iff.not.2 hp)
  rw [Bool.eq_iff_iff, startsWith_slash_iff, startsWith_slash_iff, String.toList_append, hc]
  simp

theorem Plain.startsWith_slash {n : String} (hn : Plain n) : n.startsWith "/" = false := by
  rw [Bool.eq_false_iff, ne_eq, startsWith_slash_iff]
  exact fun h => hn.no_slash (h.subset (List.mem_singleton_self _))

theorem pieces_eq (p : String) : pieces p = (p.toList.splitOn '/').map String.ofList :=
  String.toList_split_char

theorem pieces_ne_nil (p : String) : pieces p ≠ [] := by
  simp [pieces_eq, List.splitOn_ne_nil]

theorem Plain.pieces {n : String} (hn : Plain n) : pieces n = [n] := by
  simp [pieces_eq, List.splitOn_eq_singleton hn.no_slash]

theorem pieces_append_slash (p : String) {n : String} (hn : '/' ∉ n.toList) :
    pieces (p ++ "/" ++ n) = pieces p ++ [n] := by
  simp [pieces_eq, List.splitOn_append_cons_self, List.splitOn_eq_singleton hn]

theorem filter_append_plain (xs : List String) {n : String} (hn : Plain n) :
    (xs ++ [n]).filter (fun s => s != "" && s != ".") =
      xs.filter (fun s => s != "" && s != ".") ++ [n] := by
  simp [hn.ne_empty, hn.ne_dot]

/-- The parts of a path that starts at the root exactly when another does, starts with a `.`
piece exactly when the other does, and whose named pieces are the other's and then a name. -/
theorem parts_eq_append {p q n : String} (habs : q.startsWith "/" = p.startsWith "/")
    (hdot : ((pieces q).head? == some ".") = ((pieces p).head? == some "."))
    (hnamed : (pieces q).filter (fun s => s != "" && s != ".") =
      (pieces p).filter (fun s => s != "" && s != ".") ++ [n])
    (hn : n ≠ "..") : parts q = parts p ++ [.name n] := by
  simp only [parts, habs, hdot, hnamed, List.map_append, List.append_assoc]
  simp [hn]

/-- A plain name joined to a directory is a direct child of it. -/
theorem parts_join (dir : String) {n : String} (hn : Plain n) :
    parts (join dir n) = parts dir ++ [.name n] := by
  rw [join, if_neg (by simp [isAbsolute, hn.startsWith_slash])]
  by_cases he : dir.isEmpty
  · -- the empty directory: the name alone
    rw [if_pos he, String.isEmpty_iff.1 he]
    refine parts_eq_append ?_ ?_ ?_ hn.ne_dotdot
    · simp [hn.startsWith_slash]
    · simp [hn.pieces, pieces_eq, hn.ne_dot]
    · simp [hn.pieces, pieces_eq, hn.ne_empty, hn.ne_dot]
  rw [if_neg he]
  have hne : dir ≠ "" := fun h => he (String.isEmpty_iff.2 h)
  split
  · -- a directory that ends with `/`: the name takes the place of its last, empty piece
    rename_i hend
    obtain ⟨d, hd⟩ := (endsWith_slash_iff dir).1 hend
    have hq : pieces (dir ++ n) = (d.splitOn '/').map String.ofList ++ [n] := by
      simp [pieces_eq, String.toList_append, ← hd, List.splitOn_append_cons_self,
        List.splitOn_eq_singleton hn.no_slash]
    have hp : pieces dir = (d.splitOn '/').map String.ofList ++ [""] := by
      simp [pieces_eq, ← hd, List.splitOn_append_cons_self]
    have hd0 : (d.splitOn '/').map String.ofList ≠ [] := by simp [List.splitOn_ne_nil]
    refine parts_eq_append (startsWith_slash_append hne n) ?_ ?_ hn.ne_dotdot
    · rw [hq, hp, List.head?_append_of_ne_nil _ hd0, List.head?_append_of_ne_nil _ hd0]
    · rw [hq, hp, filter_append_plain _ hn]
      simp
  · -- otherwise a `/` and the name follow the directory
    refine parts_eq_append ?_ ?_ ?_ hn.ne_dotdot
    · rw [String.append_assoc, startsWith_slash_append hne]
    · rw [pieces_append_slash _ hn.no_slash, List.head?_append_of_ne_nil _ (pieces_ne_nil dir)]
    · rw [pieces_append_slash _ hn.no_slash, filter_append_plain _ hn]

end Courier.Files

namespace Courier.Transfer

open Files

namespace Engine

variable {e : Engine} {d : Desk} {id : TransferId} {name : String} {size : Nat}

/-- The transfer an offer opens is saved at the receive directory joined with the last part of
the offered name. -/
theorem offered_path {t : Ongoing} (h : e.find? id = none)
    (ht : (e.handle d (.offered id name size)).engine.find? id = some t) :
    sanitizeName name = some (lastPart name) ∧ t.path = join e.receiveDir (lastPart name) := by
  have hlast : ∀ n, sanitizeName name = some n → n = lastPart name := by
    intro n hs
    rw [sanitizeName_eq] at hs
    split at hs <;> simp_all
  cases hs : sanitizeName name with
  | none => simp [handle, offered, hs, h] at ht
  | some n =>
    obtain rfl := hlast n hs
    refine ⟨rfl, ?_⟩
    cases hc : d.volume.createFile (join e.receiveDir (lastPart name)) with
    | error err => simp [handle, offered, hs, h, hc] at ht
    | ok r =>
      rw [handle_offered hs h hc] at ht
      simp only [calling_engine, find?_insert_self, Option.some.injEq] at ht
      rw [← ht, Ongoing.path_inbound]

end Engine

end Transfer

namespace Files

/-- Every name a peer can offer. The name check refuses exactly the names whose part after the
last `/` or `\` is empty, `.`, `..` or holds NUL, and otherwise answers that part, which holds no
`/`, `\` or NUL; joined to any directory it is a direct child of it. So every transfer an offer
opens in the worker is saved at a direct child of the receive directory. -/
theorem offered_names_stay_in_the_receive_dir (name : String) :
    sanitizeName name = (if Unusable (lastPart name) then none else some (lastPart name)) ∧
    (∀ n, sanitizeName name = some n →
      '/' ∉ n.toList ∧ '\\' ∉ n.toList ∧ '\x00' ∉ n.toList ∧
        ∀ dir, parts (join dir n) = parts dir ++ [.name n]) ∧
    ∀ (e : Transfer.Engine) (d : Transfer.Desk) (id : TransferId) (size : Nat)
      (t : Transfer.Ongoing),
      e.find? id = none → (e.handle d (.offered id name size)).engine.find? id = some t →
      parts t.path = parts e.receiveDir ++ [.name (lastPart name)] := by
  refine ⟨sanitizeName_eq name, fun n hs => ?_, fun e d id size t h ht => ?_⟩
  · obtain ⟨hplain, hback, hnul⟩ := plain_of_sanitizeName hs
    exact ⟨hplain.no_slash, hback, hnul, fun dir => parts_join dir hplain⟩
  · obtain ⟨hs, hpath⟩ := Transfer.Engine.offered_path h ht
    rw [hpath, parts_join _ (plain_of_sanitizeName hs).1]

/-- A peer offers `../f` to a worker whose receive directory is `/r`: the name is cut to `f`, and
the transfer the worker opens is saved at `/r/f`, right under `/r`. -/
theorem climbing_name_is_saved_under_the_receive_dir :
    let e : Transfer.Engine := { root := "/r", receiveDir := "/r" }
    let d : Transfer.Desk := { volume := { entries := [(["r"], .dir)] } }
    sanitizeName "../f" = some "f" ∧
      ∃ t, (e.handle d (.offered ⟨0, 7⟩ "../f" 3)).engine.find? ⟨0, 7⟩ = some t ∧
        parts t.path = [.root, .name "r", .name "f"] := by
  intro e d
  have hs : sanitizeName "../f" = some "f" := by cbv
  have hc : d.volume.createFile (join e.receiveDir "f") =
      .ok ({ entries := [(["r"], .dir), (["r", "f"], .file 0)], blobs := #[ByteArray.empty] },
        0) := by
    cbv
  have hopen : e.handle d (.offered ⟨0, 7⟩ "../f" 3) = _ :=
    Transfer.Engine.handle_offered hs rfl hc
  have ht : (e.handle d (.offered ⟨0, 7⟩ "../f" 3)).engine.find? ⟨0, 7⟩ =
      some (.inbound 0 3 (join e.receiveDir "f")) := by
    rw [hopen]
    simp
  obtain ⟨-, -, hdir⟩ := offered_names_stay_in_the_receive_dir "../f"
  refine ⟨hs, _, ht, ?_⟩
  have hlast : lastPart "../f" = "f" := by cbv
  have hroot : parts "/r" = [.root, .name "r"] := by cbv
  rw [hdir e d ⟨0, 7⟩ 3 _ rfl ht, hlast, hroot]
  rfl

end Files

end Courier
