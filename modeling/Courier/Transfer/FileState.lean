-- The file side of one transfer: its open file, the place it stands when known (the cursor), and the
-- bytes confirmed. A read or write of a chunk moves the file to the chunk's offset unless the cursor
-- says it stands there.
import Courier.Files.Handle
import Courier.Transfer.Progress
import Courier.Transport.Window

namespace Courier.Transfer

open Files

/-- The file side of a transfer. -/
structure FileState where
  handle : Handle
  cursor : Option Nat
  progress : Progress

/-- A call on a transfer's file: read the bytes a request asks for, or write a chunk. -/
inductive FileCall where
  | read (r : ChunkRequest)
  | write (offset : Nat) (data : ByteArray)

namespace FileState

/-- A sending transfer's file, opened for reading at its start. -/
def outbound (v : Volume) (path : String) (size : Nat) : Except Errno FileState := do
  let ino ← v.openFile path
  pure ⟨⟨ino, 0, .reading⟩, some 0, ⟨size, 0⟩⟩

/-- A receiving transfer's file, made or emptied, and opened for writing at its start. -/
def inbound (v : Volume) (path : String) (size : Nat) : Except Errno (Volume × FileState) := do
  let (v', ino) ← v.createFile path
  pure (v', ⟨⟨ino, 0, .writing⟩, some 0, ⟨size, 0⟩⟩)

/-- Moves the file to an offset, unless the cursor says it stands there. -/
def seekTo (c : FileState) (off : Nat) : Except Errno FileState :=
  if c.cursor = some off then .ok c
  else (c.handle.seek off).map fun h => { c with handle := h, cursor := some off }

/-- The end of a chunk, as a 64-bit sum gives it. -/
def wrapEnd (offset length : Nat) : Nat := (offset + length) % (u64Max + 1)

/-- Reads exactly the bytes a request asks for. -/
def readChunk (v : Volume) (c : FileState) (r : ChunkRequest) : FileState × Except Errno ByteArray :=
  match c.seekTo r.offset with
  | .error e => ({ c with cursor := c.handle.position }, .error e)
  | .ok c' =>
    match c'.handle.readExact v r.length with
    | (h, .ok data) =>
      ({ c' with handle := h, cursor := some (wrapEnd r.offset r.length),
                 progress := c'.progress.update r.offset r.length }, .ok data)
    | (h, .error e) => ({ c' with handle := h, cursor := h.position }, .error e)

/-- Writes a chunk at its offset. -/
def writeChunk (v : Volume) (c : FileState) (offset : Nat) (data : ByteArray) :
    (Volume × FileState) × Except Errno Unit :=
  match c.seekTo offset with
  | .error e => ((v, { c with cursor := none }), .error e)
  | .ok c' =>
    match c'.handle.writeAll v data with
    | .ok (v', h) =>
      ((v', { c' with handle := h, cursor := some (wrapEnd offset data.size),
                      progress := c'.progress.update offset data.size }), .ok ())
    | .error e => ((v, { c' with cursor := none }), .error e)

/-- Makes one call: a read answers the bytes read, a write answers no bytes. -/
def call (v : Volume) (c : FileState) : FileCall → (Volume × FileState) × Except Errno ByteArray
  | .read r => ((v, (c.readChunk v r).1), (c.readChunk v r).2)
  | .write offset data =>
    ((c.writeChunk v offset data).1, (c.writeChunk v offset data).2.map fun _ => ByteArray.empty)

/-- Makes calls in order: the volume and file side at the end, and what each call answered. -/
def run (v : Volume) (c : FileState) : List FileCall → (Volume × FileState) × List (Except Errno ByteArray)
  | [] => ((v, c), [])
  | k :: ks =>
    let s := c.call v k
    ((run s.1.1 s.1.2 ks).1, s.2 :: (run s.1.1 s.1.2 ks).2)

theorem seekTo_handle {c c' : FileState} {off : Nat} (hs : c.seekTo off = .ok c') :
    ∃ p, c'.handle = { c.handle with pos := p } := by
  unfold seekTo at hs
  split at hs
  · cases hs
    exact ⟨c.handle.pos, rfl⟩
  · cases hh : c.handle.seek off with
    | error e => simp [hh, Except.map] at hs
    | ok h =>
      simp only [hh, Except.map, Except.ok.injEq] at hs
      subst hs
      exact ⟨off, Files.Handle.seek_eq_ok hh⟩

/-- A read keeps the transfer's file and how it was opened; only where it stands moves. -/
theorem readChunk_handle (v : Volume) (c : FileState) (r : ChunkRequest) :
    ∃ p, (c.readChunk v r).1.handle = { c.handle with pos := p } := by
  unfold readChunk
  split
  · exact ⟨c.handle.pos, rfl⟩
  · rename_i c' hseek
    obtain ⟨q, hq⟩ := seekTo_handle hseek
    -- the read leaves the handle it found moved, whether it fails or not
    have hread := Files.Handle.readExact_file v c'.handle r.length
    rcases hre : c'.handle.readExact v r.length with ⟨h, _ | _⟩ <;> rw [hre] at hread <;>
      dsimp only at hread ⊢ <;> exact ⟨h.pos, by rw [hread, hq]⟩

/-- A write keeps the transfer's file and how it was opened; only where it stands moves. -/
theorem writeChunk_handle (v : Volume) (c : FileState) (offset : Nat) (data : ByteArray) :
    ∃ p, (c.writeChunk v offset data).1.2.handle = { c.handle with pos := p } := by
  unfold writeChunk
  split
  · exact ⟨c.handle.pos, rfl⟩
  · rename_i c' hseek
    obtain ⟨q, hq⟩ := seekTo_handle hseek
    split
    · rename_i v' h hw
      exact ⟨h.pos, by rw [Files.Handle.writeAll_file hw, hq]⟩
    · exact ⟨q, hq⟩

@[simp] theorem readChunk_inode (v : Volume) (c : FileState) (r : ChunkRequest) :
    (c.readChunk v r).1.handle.inode = c.handle.inode := by
  obtain ⟨p, hp⟩ := readChunk_handle v c r
  rw [hp]

@[simp] theorem readChunk_mode (v : Volume) (c : FileState) (r : ChunkRequest) :
    (c.readChunk v r).1.handle.mode = c.handle.mode := by
  obtain ⟨p, hp⟩ := readChunk_handle v c r
  rw [hp]

@[simp] theorem writeChunk_inode (v : Volume) (c : FileState) (offset : Nat) (data : ByteArray) :
    (c.writeChunk v offset data).1.2.handle.inode = c.handle.inode := by
  obtain ⟨p, hp⟩ := writeChunk_handle v c offset data
  rw [hp]

@[simp] theorem writeChunk_mode (v : Volume) (c : FileState) (offset : Nat) (data : ByteArray) :
    (c.writeChunk v offset data).1.2.handle.mode = c.handle.mode := by
  obtain ⟨p, hp⟩ := writeChunk_handle v c offset data
  rw [hp]

/-- A read depends only on the bytes of the transfer's file. -/
theorem readChunk_congr {v₁ v₂ : Volume} (c : FileState) (r : ChunkRequest)
    (hb : v₁.blob c.handle.inode = v₂.blob c.handle.inode) : c.readChunk v₁ r = c.readChunk v₂ r := by
  unfold readChunk
  split
  · rfl
  · rename_i c' hseek
    obtain ⟨q, hq⟩ := seekTo_handle hseek
    have hb' : v₁.blob c'.handle.inode = v₂.blob c'.handle.inode := by rw [hq]; exact hb
    rw [Files.Handle.readExact_congr c'.handle r.length hb']

/-- Whether a write goes through does not depend on the bytes already in the volume, so the file
side after it does not either. -/
theorem writeChunk_file_volume (v₁ v₂ : Volume) (c : FileState) (offset : Nat) (data : ByteArray) :
    (c.writeChunk v₁ offset data).1.2 = (c.writeChunk v₂ offset data).1.2 := by
  unfold writeChunk
  split
  · rfl
  · rename_i c' _
    unfold Files.Handle.writeAll
    cases hm : c'.handle.mode
    · rfl
    · by_cases h₀ : data.size = 0
      · simp [h₀]
      · by_cases h₁ : c'.handle.pos > maxOffset
        · simp [h₀, h₁, Volume.writeAt, Except.map]
        · by_cases h₂ : c'.handle.pos + data.size > maxOffset <;>
            simp [h₀, h₁, h₂, Volume.writeAt, Except.map]

end FileState

end Courier.Transfer
