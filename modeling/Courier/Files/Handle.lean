-- An open file of a volume: its inode, how it was opened and its position. Seeks, exact reads and
-- whole writes follow a regular file on Linux, up to the largest offset 2^63 - 1.
import Courier.Files.Volume

namespace Courier.Files

/-- How a file was opened. -/
inductive Mode where
  | reading
  | writing
deriving DecidableEq, Repr

/-- An open file. -/
structure Handle where
  inode : Nat
  pos : Nat
  mode : Mode
deriving DecidableEq, Repr

namespace Handle

/-- Moves to an offset from the start. -/
def seek (h : Handle) (off : Nat) : Except Errno Handle :=
  if off > maxOffset then .error .invalid else .ok { h with pos := off }

/-- The position, as the system reports it. -/
def position (h : Handle) : Option Nat := some h.pos

/-- Reads exactly `n` bytes from the position. -/
def readExact (v : Volume) (h : Handle) (n : Nat) : Handle × Except Errno ByteArray :=
  match h.mode with
  | .writing => (h, .error .badDescriptor)
  | .reading =>
    let b := v.blob h.inode
    if n = 0 then (h, .ok ByteArray.empty)
    else if h.pos + n ≤ b.size then ({ h with pos := h.pos + n }, .ok (b.extract h.pos (h.pos + n)))
    else ({ h with pos := max h.pos b.size }, .error .shortRead)

/-- Writes all the bytes at the position. -/
def writeAll (v : Volume) (h : Handle) (data : ByteArray) : Except Errno (Volume × Handle) :=
  match h.mode with
  | .reading => .error .badDescriptor
  | .writing =>
    if data.size = 0 then .ok (v, h)
    else (v.writeAt h.inode h.pos data).map fun v' => (v', { h with pos := h.pos + data.size })

theorem seek_eq_ok {h h' : Handle} {off : Nat} (hs : h.seek off = .ok h') : h' = { h with pos := off } := by
  unfold seek at hs
  split at hs
  · cases hs
  · cases hs
    rfl

/-- A read stays on its file, opened as it was. -/
theorem readExact_file (v : Volume) (h : Handle) (n : Nat) :
    (h.readExact v n).1 = { h with pos := (h.readExact v n).1.pos } := by
  unfold readExact
  split
  · rfl
  · dsimp only
    split
    · rfl
    · split <;> rfl

/-- A write that goes through stays on its file, opened as it was. -/
theorem writeAll_file {v v' : Volume} {h h' : Handle} {data : ByteArray}
    (hw : h.writeAll v data = .ok (v', h')) : h' = { h with pos := h'.pos } := by
  unfold writeAll at hw
  split at hw
  · cases hw
  · split at hw
    · cases hw
      rfl
    · cases hwa : v.writeAt h.inode h.pos data with
      | error e => simp [hwa, Except.map] at hw
      | ok w =>
        simp only [hwa, Except.map, Except.ok.injEq, Prod.mk.injEq] at hw
        rw [← hw.2]

/-- A read depends only on the bytes of the file read. -/
theorem readExact_congr {v₁ v₂ : Volume} (h : Handle) (n : Nat) (hb : v₁.blob h.inode = v₂.blob h.inode) :
    h.readExact v₁ n = h.readExact v₂ n := by
  simp only [readExact, hb]

end Handle

end Courier.Files
