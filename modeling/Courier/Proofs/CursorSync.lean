-- The cursor of a transfer's file is its position: every call, failed or not, leaves the cursor at
-- the file's position or unknown, so skipping the move to an offset the cursor names changes nothing.
-- Reads and writes then act as the volume's positional ones.
import Courier.Transfer.FileState
import Courier.Proofs.VolumeWrites
import Mathlib

namespace Courier.Files

namespace Volume

variable {v v' : Volume} {i o : Nat} {d : ByteArray}

@[simp] theorem size_zeros (n : Nat) : (zeros n).size = n := by
  simp [zeros, ByteArray.size]

/-- A write that goes through ends within the largest offset, and sets the inode to the old bytes,
padded with zeros up to the offset, with the new bytes laid over them. -/
theorem writeAt_ok (hw : v.writeAt i o d = .ok v') :
    o + d.size ≤ maxOffset ∧ ∃ padded : ByteArray, padded.size = max (v.blob i).size o ∧
      v' = v.setBlob i (padded.extract 0 o ++ d ++ padded.extract (o + d.size) padded.size) := by
  unfold writeAt at hw
  split at hw
  · cases hw
  split at hw
  · cases hw
  rename_i h₁ h₂
  cases hw
  refine ⟨by omega, _, ?_, rfl⟩
  split
  · rw [ByteArray.size_append, size_zeros]
    omega
  · omega

theorem size_laid (padded d : ByteArray) {o : Nat} (ho : o ≤ padded.size) :
    (padded.extract 0 o ++ d ++ padded.extract (o + d.size) padded.size).size =
      max padded.size (o + d.size) := by
  simp only [ByteArray.size_append, ByteArray.size_extract]
  omega

theorem laid_at (padded d : ByteArray) {o : Nat} (ho : o ≤ padded.size) :
    (padded.extract 0 o ++ d ++ padded.extract (o + d.size) padded.size).extract o (o + d.size) = d := by
  have hA : (padded.extract 0 o).size = o := by simp [ByteArray.size_extract]; omega
  rw [ByteArray.append_assoc]
  have hslice := @ByteArray.extract_append_size_add (padded.extract 0 o)
    (d ++ padded.extract (o + d.size) padded.size) 0 d.size
  rw [Nat.add_zero, hA] at hslice
  rw [hslice, ByteArray.extract_append]
  simp

theorem writeAt_within (hw : v.writeAt i o d = .ok v') (hi : i < v.blobs.size)
    (hs : (v.blob i).size ≤ maxOffset) :
    (v'.blob i).size ≤ maxOffset ∧ (v'.blob i).extract o (o + d.size) = d ∧ v'.blobs.size = v.blobs.size := by
  obtain ⟨hend, padded, hp, rfl⟩ := writeAt_ok hw
  have ho : o ≤ padded.size := by omega
  rw [blob_setBlob v i _ hi, if_pos rfl]
  refine ⟨?_, laid_at padded d ho, by simp⟩
  rw [size_laid padded d ho]
  omega

theorem openFile_mem {p : String} {n : Nat} (h : v.openFile p = .ok n) :
    ∃ place, (place, Entry.file n) ∈ v.entries := by
  unfold openFile stat at h
  cases hf : v.locate true p with
  | error e => simp [hf, bind, Except.bind] at h
  | ok f =>
    cases he : f.entry with
    | none => simp [hf, he, bind, Except.bind, throw, throwThe, MonadExceptOf.throw] at h
    | some e =>
      cases e with
      | file m =>
        simp only [hf, he, bind, Except.bind, pure, Except.pure, Except.ok.injEq] at h
        subst h
        exact locate_file_mem hf he
      | _ => simp [hf, he, bind, Except.bind, pure, Except.pure, throw, throwThe, MonadExceptOf.throw] at h

end Volume

namespace Handle

variable {v : Volume} {h : Handle} {n : Nat}

theorem readExact_writing (hm : h.mode = .writing) : h.readExact v n = (h, .error .badDescriptor) := by
  simp [readExact, hm]

/-- A read of a file opened for reading: no bytes always; the bytes from the position when the
file has them, moving past them; otherwise it fails, having used up the file to its end. -/
theorem readExact_reading (hm : h.mode = .reading) : h.readExact v n =
    if n = 0 then (h, .ok ByteArray.empty)
    else if h.pos + n ≤ (v.blob h.inode).size then
      ({ h with pos := h.pos + n }, .ok ((v.blob h.inode).extract h.pos (h.pos + n)))
    else ({ h with pos := max h.pos (v.blob h.inode).size }, .error .shortRead) := by
  simp [readExact, hm]

theorem readExact_pos_le (v : Volume) (h : Handle) (n : Nat) (hp : h.pos ≤ maxOffset)
    (hs : (v.blob h.inode).size ≤ maxOffset) : (h.readExact v n).1.pos ≤ maxOffset := by
  cases hm : h.mode
  · rw [readExact_reading hm]
    split_ifs with h₀ hfit
    · exact hp
    · simp only
      omega
    · simp only
      omega
  · rw [readExact_writing hm]
    exact hp

/-- A read that succeeds moves past the bytes it answers, which are the file's from the
position, and which lie within the file unless there are none. -/
theorem readExact_ok {data : ByteArray} (hr : (h.readExact v n).2 = .ok data) :
    (h.readExact v n).1.pos = h.pos + n ∧ data = (v.blob h.inode).extract h.pos (h.pos + n) ∧
      (n = 0 ∨ h.pos + n ≤ (v.blob h.inode).size) := by
  cases hm : h.mode
  · rw [readExact_reading hm] at hr ⊢
    split_ifs at hr ⊢ with h₀ hfit
    · cases hr
      subst h₀
      simp
    · cases hr
      exact ⟨rfl, rfl, .inr hfit⟩
  · rw [readExact_writing hm] at hr
    cases hr

theorem readExact_end {data : ByteArray} (hr : (h.readExact v n).2 = .ok data) (hp : h.pos ≤ maxOffset)
    (hs : (v.blob h.inode).size ≤ maxOffset) : h.pos + n ≤ maxOffset := by
  obtain ⟨-, -, hfit⟩ := readExact_ok hr
  omega

/-- A write that goes through moves past its bytes, on the same file; bytes go to the volume's
`writeAt`, and no bytes change nothing. -/
theorem writeAll_ok {d : ByteArray} {v' : Volume} {h' : Handle} (hw : h.writeAll v d = .ok (v', h')) :
    h' = { h with pos := h.pos + d.size } ∧ h.mode = .writing ∧
      (d.size = 0 → v' = v) ∧ (d.size ≠ 0 → v.writeAt h.inode h.pos d = .ok v') := by
  unfold writeAll at hw
  split at hw
  · cases hw
  · rename_i hm
    split at hw
    · rename_i hz
      cases hw
      exact ⟨by simp [hz], hm, fun _ => rfl, fun h0 => absurd hz h0⟩
    · rename_i hz
      cases hwa : v.writeAt h.inode h.pos d with
      | error e => rw [hwa] at hw; cases hw
      | ok v'' =>
        rw [hwa] at hw
        cases hw
        exact ⟨rfl, hm, fun h0 => absurd h0 hz, fun _ => rfl⟩

theorem writeAll_within {d : ByteArray} {v' : Volume} {h' : Handle} (hw : h.writeAll v d = .ok (v', h'))
    (hp : h.pos ≤ maxOffset) (hi : h.inode < v.blobs.size) (hs : (v.blob h.inode).size ≤ maxOffset) :
    h' = { h with pos := h.pos + d.size } ∧ h.pos + d.size ≤ maxOffset ∧
      (v'.blob h.inode).size ≤ maxOffset ∧ (v'.blob h.inode).extract h.pos (h.pos + d.size) = d ∧
      v'.blobs.size = v.blobs.size := by
  obtain ⟨rfl, -, hzero, hbytes⟩ := writeAll_ok hw
  by_cases hz : d.size = 0
  · -- no bytes: the volume is left, and the bytes at the position are none
    obtain rfl := hzero hz
    have hd : d = ByteArray.empty := ByteArray.size_eq_zero_iff.mp hz
    refine ⟨rfl, by omega, hs, ?_, rfl⟩
    rw [hz, Nat.add_zero, ByteArray.extract_same, hd]
  · have hwa := hbytes hz
    exact ⟨rfl, (Volume.writeAt_ok hwa).1, Volume.writeAt_within hwa hi hs⟩

end Handle

end Courier.Files

namespace Courier.Transfer

open Files

namespace FileState

variable {v : Volume} {c : FileState}

/-! ## The law of a transfer's file -/

/-- The laws of a transfer's file on Linux: the cursor, when known, is the position; the position
and the file's length stay within the largest offset; and the file's inode holds bytes. -/
structure Sound (v : Volume) (c : FileState) : Prop where
  synced : ∀ p, c.cursor = some p → c.handle.pos = p
  pos_le : c.handle.pos ≤ maxOffset
  size_le : (v.blob c.handle.inode).size ≤ maxOffset
  inode_lt : c.handle.inode < v.blobs.size

/-- The file with its cursor forgotten: the next call moves it to its offset first. -/
def forget (c : FileState) : FileState := { c with cursor := none }

theorem wrapEnd_of_le {o n : Nat} (h : o + n ≤ maxOffset) : wrapEnd o n = o + n :=
  Nat.mod_eq_of_lt (Nat.lt_of_le_of_lt h (by decide))

/-- A move that goes through stands the file at the offset, which is within the largest one. -/
theorem seekTo_ok (hs : c.Sound v) {off : Nat} {c' : FileState} (h : c.seekTo off = .ok c') :
    c' = { c with handle := { c.handle with pos := off }, cursor := some off } ∧ off ≤ maxOffset := by
  unfold seekTo at h
  split at h
  · rename_i hc
    cases h
    have hp := hs.synced off hc
    refine ⟨?_, hp ▸ hs.pos_le⟩
    -- the file stands at the offset already, so the move changes nothing
    obtain ⟨⟨ino, pos, mode⟩, cursor, progress⟩ := c
    simp only at hc hp
    subst hp hc
    rfl
  · unfold Handle.seek at h
    split at h
    · cases h
    · rename_i hle
      cases h
      exact ⟨rfl, by omega⟩

/-- A move fails only past the largest offset, and is refused as invalid. -/
theorem seekTo_error {off : Nat} {e : Errno} (h : c.seekTo off = .error e) : e = .invalid ∧ maxOffset < off := by
  unfold seekTo at h
  split at h
  · cases h
  · unfold Handle.seek at h
    split at h
    · cases h
      exact ⟨rfl, by omega⟩
    · cases h

theorem seekTo_forget (hs : c.Sound v) (off : Nat) : c.forget.seekTo off = c.seekTo off := by
  by_cases hc : c.cursor = some off
  · have hp := hs.synced off hc
    have hle : ¬ off > maxOffset := by have := hs.pos_le; omega
    simp only [seekTo, forget, reduceCtorEq, if_false, hc, if_true, Handle.seek, hle, Except.map]
    obtain ⟨⟨ino, pos, mode⟩, cursor, progress⟩ := c
    simp only at hc hp
    subst hp hc
    rfl
  · simp [seekTo, forget, hc]

/-! ## Reads -/

theorem readChunk_forget (hs : c.Sound v) (r : ChunkRequest) : c.forget.readChunk v r = c.readChunk v r := by
  unfold readChunk
  rw [seekTo_forget hs]
  split <;> rfl

/-- A read keeps the law and answers, when it succeeds, the bytes of the file from the offset
asked for, which end within the largest offset. -/
theorem readChunk_spec (hs : c.Sound v) (r : ChunkRequest) :
    (c.readChunk v r).1.handle.inode = c.handle.inode ∧ (c.readChunk v r).1.Sound v ∧ ∀ data, (c.readChunk v r).2 = .ok data →
      data = (v.blob c.handle.inode).extract r.offset (r.offset + r.length) ∧
        r.offset + r.length ≤ maxOffset := by
  cases hseek : c.seekTo r.offset with
  | error e =>
    -- the move failed: the cursor is the position, which did not change
    rw [readChunk, hseek]
    exact ⟨rfl, ⟨fun p hp => by cases hp; rfl, hs.pos_le, hs.size_le, hs.inode_lt⟩, fun _ hd => by cases hd⟩
  | ok c' =>
    obtain ⟨rfl, hoff⟩ := seekTo_ok hs hseek
    have hle := Handle.readExact_pos_le v { c.handle with pos := r.offset } r.length hoff hs.size_le
    cases hx : ({ c.handle with pos := r.offset } : Handle).readExact v r.length with
    | mk h' a =>
      have hi : h'.inode = c.handle.inode := by
        have hfile := Handle.readExact_file v { c.handle with pos := r.offset } r.length
        rw [hx] at hfile
        simpa using congrArg Handle.inode hfile
      rw [hx] at hle
      cases a with
      | ok data =>
        -- the read went through: the cursor is its end, which does not wrap
        have hr : (({ c.handle with pos := r.offset } : Handle).readExact v r.length).2 = .ok data := by
          rw [hx]
        obtain ⟨hpos, hdata, -⟩ := Handle.readExact_ok hr
        have hend := Handle.readExact_end hr hoff hs.size_le
        rw [hx] at hpos
        simp only [readChunk, hseek, hx, Except.ok.injEq]
        refine ⟨hi, ⟨fun p hp => ?_, hle, hi ▸ hs.size_le, hi ▸ hs.inode_lt⟩, fun d hd => ⟨hd ▸ hdata, hend⟩⟩
        cases hp
        simp only at hpos
        rw [hpos, wrapEnd_of_le hend]
      | error e =>
        -- the read failed: the cursor is the position it left
        simp only [readChunk, hseek, hx]
        exact ⟨hi, ⟨fun p hp => by cases hp; rfl, hle, hi ▸ hs.size_le, hi ▸ hs.inode_lt⟩, fun _ hd => by cases hd⟩

/-! ## Writes -/

theorem writeChunk_forget (hs : c.Sound v) (offset : Nat) (data : ByteArray) :
    c.forget.writeChunk v offset data = c.writeChunk v offset data := by
  unfold writeChunk
  rw [seekTo_forget hs]
  split <;> rfl

/-- A write keeps the law, and when it succeeds its bytes stand at its offset in the file, and
end within the largest offset. -/
theorem writeChunk_spec (hs : c.Sound v) (offset : Nat) (data : ByteArray) :
    (c.writeChunk v offset data).1.2.handle.inode = c.handle.inode ∧
      (c.writeChunk v offset data).1.2.Sound (c.writeChunk v offset data).1.1 ∧
      ((c.writeChunk v offset data).2 = .ok () →
        ((c.writeChunk v offset data).1.1.blob c.handle.inode).extract offset (offset + data.size) = data ∧
          offset + data.size ≤ maxOffset) := by
  cases hseek : c.seekTo offset with
  | error e =>
    -- the move failed: the file is left and its cursor forgotten
    rw [writeChunk, hseek]
    exact ⟨rfl, ⟨(fun _ hp => nomatch hp), hs.pos_le, hs.size_le, hs.inode_lt⟩, fun hd => nomatch hd⟩
  | ok c' =>
    obtain ⟨rfl, hoff⟩ := seekTo_ok hs hseek
    cases hw : ({ c.handle with pos := offset } : Handle).writeAll v data with
    | error e =>
      -- the write failed: the position is unknown, and the cursor with it
      simp only [writeChunk, hseek, hw]
      exact ⟨trivial, ⟨(fun _ hp => nomatch hp), hoff, hs.size_le, hs.inode_lt⟩, fun hd => nomatch hd⟩
    | ok r =>
      obtain ⟨v', h'⟩ := r
      obtain ⟨rfl, hend, hsz, hat, hcount⟩ := Handle.writeAll_within hw hoff hs.inode_lt hs.size_le
      simp only [writeChunk, hseek, hw]
      refine ⟨trivial, ⟨fun p hp => ?_, hend, hsz, hcount ▸ hs.inode_lt⟩, fun _ => ⟨hat, hend⟩⟩
      cases hp
      exact (wrapEnd_of_le hend).symm

/-! ## Whole runs -/

/-- Every call answers, and leaves the file, as the same call made with the cursor forgotten. -/
theorem call_forget (hs : c.Sound v) (k : FileCall) : c.forget.call v k = c.call v k := by
  cases k with
  | read r => simp only [call, readChunk_forget hs]
  | write offset data => simp only [call, writeChunk_forget hs]

/-- Every call keeps the law, on the same file. -/
theorem Sound.call (hs : c.Sound v) (k : FileCall) :
    (c.call v k).1.2.handle.inode = c.handle.inode ∧ (c.call v k).1.2.Sound (c.call v k).1.1 := by
  cases k with
  | read r => exact ⟨(readChunk_spec hs r).1, (readChunk_spec hs r).2.1⟩
  | write offset data => exact ⟨(writeChunk_spec hs offset data).1, (writeChunk_spec hs offset data).2.1⟩

/-- Makes calls in order as `run` does, but forgets the cursor before each call, so that each
moves the file to its offset. -/
def runFresh (v : Volume) (c : FileState) :
    List FileCall → (Volume × FileState) × List (Except Errno ByteArray)
  | [] => ((v, c), [])
  | k :: ks =>
    let s := c.forget.call v k
    ((runFresh s.1.1 s.1.2 ks).1, s.2 :: (runFresh s.1.1 s.1.2 ks).2)

/-- A run keeps the law, on the same file. -/
theorem Sound.run (hs : c.Sound v) (calls : List FileCall) :
    (run v c calls).1.2.handle.inode = c.handle.inode ∧ (run v c calls).1.2.Sound (run v c calls).1.1 := by
  -- the law is the invariant, carried call by call
  induction calls generalizing v c with
  | nil => exact ⟨rfl, hs⟩
  | cons k ks ih =>
    obtain ⟨hi, hs'⟩ := hs.call k
    obtain ⟨hi', hs''⟩ := ih hs'
    exact ⟨hi'.trans hi, hs''⟩

theorem run_eq_runFresh (hs : c.Sound v) (calls : List FileCall) : run v c calls = runFresh v c calls := by
  induction calls generalizing v c with
  | nil => rfl
  | cons k ks ih => simp only [run, runFresh, call_forget hs, ih (hs.call k).2]

/-! ## The volume's reads and writes -/

/-- A read of bytes from a file opened for reading answers as the volume's `readAt`. -/
theorem readChunk_eq_readAt (hs : c.Sound v) (hm : c.handle.mode = .reading) (r : ChunkRequest)
    (hl : r.length ≠ 0) : (c.readChunk v r).2 = v.readAt c.handle.inode r.offset r.length := by
  cases hseek : c.seekTo r.offset with
  | error e =>
    obtain ⟨rfl, hgt⟩ := seekTo_error hseek
    simp only [readChunk, hseek, Volume.readAt, if_pos hgt]
  | ok c' =>
    obtain ⟨rfl, hoff⟩ := seekTo_ok hs hseek
    simp only [readChunk, hseek]
    rw [@Handle.readExact_reading v { c.handle with pos := r.offset } r.length hm, if_neg hl]
    have hin : ¬ r.offset > maxOffset := by omega
    simp only [Volume.readAt, if_neg hin]
    split_ifs <;> rfl

/-- A write of bytes into a file opened for writing acts as the volume's `writeAt`: it answers as
that write, and the volume is the one it makes, or is left when it fails. -/
theorem writeChunk_eq_writeAt (hs : c.Sound v) (hm : c.handle.mode = .writing) (offset : Nat)
    (data : ByteArray) (hd : data.size ≠ 0) :
    (c.writeChunk v offset data).2 = (v.writeAt c.handle.inode offset data).map (fun _ => ()) ∧
      (c.writeChunk v offset data).1.1 = (v.writeAt c.handle.inode offset data).toOption.getD v := by
  cases hseek : c.seekTo offset with
  | error e =>
    obtain ⟨rfl, hgt⟩ := seekTo_error hseek
    simp [writeChunk, hseek, Volume.writeAt, if_pos hgt, Except.map, Except.toOption]
  | ok c' =>
    obtain ⟨rfl, hoff⟩ := seekTo_ok hs hseek
    have hw : ({ c.handle with pos := offset } : Handle).writeAll v data =
        (v.writeAt c.handle.inode offset data).map fun v' => (v', { c.handle with pos := offset + data.size }) := by
      simp only [Handle.writeAll, hm, if_neg hd]
    cases hwa : v.writeAt c.handle.inode offset data with
    | error e =>
      rw [hwa] at hw
      simp [writeChunk, hseek, hw, Except.map, Except.toOption]
    | ok v' =>
      rw [hwa] at hw
      simp [writeChunk, hseek, hw, Except.map, Except.toOption]

/-! ## Opening a transfer's file -/

/-- A sending transfer's file starts under the law, opened for reading, when the file is within
the largest offset. -/
theorem outbound_sound (hv : v.Sound) {path : String} {size : Nat} (h : outbound v path size = .ok c)
    (hsz : (v.blob c.handle.inode).size ≤ maxOffset) : c.Sound v ∧ c.handle.mode = .reading := by
  unfold outbound at h
  cases ho : v.openFile path with
  | error e => simp [ho, bind, Except.bind] at h
  | ok ino =>
    simp only [ho, bind, Except.bind, pure, Except.pure, Except.ok.injEq] at h
    subst h
    obtain ⟨place, hmem⟩ := Volume.openFile_mem ho
    exact ⟨⟨fun p hp => by cases hp; rfl, Nat.zero_le _, hsz, hv place ino hmem⟩, rfl⟩

/-- A receiving transfer's file starts under the law, opened for writing, and empty. -/
theorem inbound_sound (hv : v.Sound) {path : String} {size : Nat} {v' : Volume}
    (h : inbound v path size = .ok (v', c)) :
    c.Sound v' ∧ c.handle.mode = .writing ∧ v'.blob c.handle.inode = ByteArray.empty := by
  unfold inbound at h
  cases hc : v.createFile path with
  | error e => simp [hc, bind, Except.bind] at h
  | ok r =>
    obtain ⟨v'', ino⟩ := r
    simp only [hc, bind, Except.bind, pure, Except.pure, Except.ok.injEq, Prod.mk.injEq] at h
    obtain ⟨rfl, rfl⟩ := h
    obtain ⟨-, hlt, hempty, -⟩ := Volume.createFile_blob hv hc
    refine ⟨⟨fun p hp => by cases hp; rfl, Nat.zero_le _, ?_, hlt⟩, rfl, hempty⟩
    simp only [hempty, ByteArray.size_empty]
    decide

/-! ## The cursor is the position -/

/-- After any calls, failed ones included, on a file under the law (as a transfer's file starts):
the file is the same, its cursor when known is its position, and the run is the one that moves
the file to each call's offset. A read that succeeds next answers the file's bytes at the offset
asked for, and a write that succeeds next puts its bytes at its offset; neither ends past 2^63 - 1,
so the 64-bit sum that gives the new cursor does not wrap. -/
theorem cursor_is_the_position (v : Volume) (c : FileState) (hs : c.Sound v) (calls : List FileCall)
    {v' : Volume} {c' : FileState} (hrun : (run v c calls).1 = (v', c')) :
    c'.handle.inode = c.handle.inode ∧ (∀ p, c'.cursor = some p → c'.handle.pos = p) ∧
      run v c calls = runFresh v c calls ∧
      (∀ r data, (c'.readChunk v' r).2 = .ok data →
        data = (v'.blob c.handle.inode).extract r.offset (r.offset + r.length) ∧
          r.offset + r.length ≤ maxOffset) ∧
      (∀ offset data, (c'.writeChunk v' offset data).2 = .ok () →
        ((c'.writeChunk v' offset data).1.1.blob c.handle.inode).extract offset (offset + data.size) = data ∧
          offset + data.size ≤ maxOffset) := by
  obtain ⟨hi, hs'⟩ := hs.run calls
  rw [hrun] at hi hs'
  refine ⟨hi, hs'.synced, run_eq_runFresh hs calls, fun r data hr => ?_, fun offset data hw => ?_⟩
  · rw [← hi]
    exact (readChunk_spec hs' r).2.2 data hr
  · rw [← hi]
    exact (writeChunk_spec hs' offset data).2.2 hw

/-- A file of ten bytes opened for reading: a read of four bytes at 8 meets the end and leaves
the file at its end, 10; the next read, of three bytes at 0, moves back and answers the first
three bytes. -/
theorem short_read_then_read_from_start :
    let v : Volume := { entries := [(["f"], .file 0)], blobs := #[pattern 10 0] }
    let c : FileState := ⟨⟨0, 0, .reading⟩, some 0, ⟨10, 0⟩⟩
    let calls := [FileCall.read ⟨8, 4⟩, FileCall.read ⟨0, 3⟩]
    c.Sound v ∧ (run v c calls).1.2.cursor = some 3 ∧ (run v c calls).1.2.handle.pos = 3 ∧
      run v c calls = runFresh v c calls ∧
      (run v c calls).2 = [.error .shortRead, .ok (pattern 3 0)] := by
  intro v c calls
  have hs : c.Sound v := ⟨fun p hp => by cases hp; rfl, by decide, by decide, by decide⟩
  have hc : (run v c calls).1.2.cursor = some 3 := rfl
  obtain ⟨-, hsync, hfresh, -, -⟩ := cursor_is_the_position v c hs calls rfl
  exact ⟨hs, hc, hsync 3 hc, hfresh, rfl⟩

end FileState

end Courier.Transfer
