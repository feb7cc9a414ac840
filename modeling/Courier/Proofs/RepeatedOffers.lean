-- Offers and openings of a transfer already open: an opening is refused and a usable offer changes
-- nothing, but an offer of an unusable name cancels the open transfer.
import Courier.Proofs.EngineSteps
import Mathlib

namespace Courier.Transfer

open Files

namespace Engine

variable {e : Engine} {d : Desk} {id : TransferId}

/-- An opening of an id that is open already does nothing. -/
theorem register_of_open (h : (e.find? id).isSome) (path : String) (size : Nat) :
    e.register d id path size = e.keep d := by
  simp [register, h]

/-- An offer of an id that is open already: the name is checked first, and an unusable one is
cancelled; a usable one does nothing. -/
theorem offered_of_open (h : (e.find? id).isSome) (name : String) (size : Nat) :
    e.offered d id name size =
      if (sanitizeName name).isSome then e.keep d else e.calling d (.control id .cancel) := by
  unfold offered
  cases hn : sanitizeName name with
  | none => rfl
  | some n => simp [h]

/-- A repeated offer or opening of a transfer id that the worker keeps. An opening leaves the
engine (its transfer table and every entry) and the desk (the volume, so no file is made or
emptied, and the calls made) as they were. So does an offer with a usable name. An offer whose
name cannot be used leaves the engine and the volume as they were and makes one call: a cancel of
the id, the transfer that is open. -/
theorem repeated_offer_or_opening (e : Engine) (d : Desk) {id : TransferId} (h : (e.find? id).isSome)
    (path name : String) (size : Nat) :
    e.work d (.create id path size) = e.keep d ∧
    ((sanitizeName name).isSome → e.work d (.event (.offered id name size)) = e.keep d) ∧
    ((sanitizeName name).isNone →
      e.work d (.event (.offered id name size)) = e.calling d (.control id .cancel)) := by
  have hoff := offered_of_open (d := d) h name size
  refine ⟨register_of_open h path size, fun hn => ?_, fun hn => ?_⟩
  · rw [work, handle, hoff, if_pos hn]
  · have hn' : (sanitizeName name).isSome = false := by simpa using hn
    rw [work, handle, hoff, if_neg (by simp [hn'])]

/-- An incoming transfer open under peer 0, file 7, and a second offer of it with the usable name
`a.bin`: both the offer and an opening of the id leave everything as it was. -/
theorem repeated_usable_offer_changes_nothing :
    let e : Engine := { root := "/r", receiveDir := "/r",
                        transfers := [(⟨0, 7⟩, .inbound 0 3 "/r/a.bin")] }
    let d : Desk := { volume := { entries := [(["r"], .dir), (["r", "a.bin"], .file 0)],
                                  blobs := #[ByteArray.empty] } }
    (e.find? ⟨0, 7⟩).isSome ∧ (sanitizeName "a.bin").isSome ∧
      e.work d (.create ⟨0, 7⟩ "/r/a.bin" 3) = e.keep d ∧
      e.work d (.event (.offered ⟨0, 7⟩ "a.bin" 3)) = e.keep d := by
  intro e d
  have h : (e.find? ⟨0, 7⟩).isSome := by decide
  have hn : (sanitizeName "a.bin").isSome := by cbv
  obtain ⟨hc, ho, -⟩ := repeated_offer_or_opening e d h "/r/a.bin" "a.bin" 3
  exact ⟨h, hn, hc, ho hn⟩

/-- The same open transfer offered again under the name `..`, which cannot be used: the worker
sends a cancel for the id, though the transfer is open and stays open in its table. -/
theorem repeated_unusable_offer_cancels_the_open_transfer :
    let e : Engine := { root := "/r", receiveDir := "/r",
                        transfers := [(⟨0, 7⟩, .inbound 0 3 "/r/a.bin")] }
    let d : Desk := { volume := { entries := [(["r"], .dir), (["r", "a.bin"], .file 0)],
                                  blobs := #[ByteArray.empty] } }
    let t := e.work d (.event (.offered ⟨0, 7⟩ ".." 3))
    (e.find? ⟨0, 7⟩).isSome ∧ (t.engine.find? ⟨0, 7⟩).isSome ∧
      t.desk.calls.toList.map Call.id = [⟨0, 7⟩] := by
  intro e d t
  have h : (e.find? ⟨0, 7⟩).isSome := by decide
  have hn : (sanitizeName "..").isSome = false := by cbv
  have ht : t = e.calling d (.control ⟨0, 7⟩ .cancel) := by
    rw [show t = e.offered d ⟨0, 7⟩ ".." 3 from rfl, offered_of_open h, hn]
    rfl
  rw [ht]
  exact ⟨h, h, rfl⟩

end Engine

end Courier.Transfer
