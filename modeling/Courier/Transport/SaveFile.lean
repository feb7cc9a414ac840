-- Saving a node's state: written to a `.tmp` sibling first and renamed into place.
import Courier.Files.Volume
import Courier.Transport.Error

namespace Courier

open Files

/-- Writes bytes to a file by way of a `.tmp` sibling renamed into place, making the directories
above it first. -/
def writeAtomically (v : Volume) (path : String) (bytes : ByteArray) : Except Errno Volume := do
  let v ← match parentText? path with
    | some q => if q.isEmpty then pure v else v.makeDirs q
    | none => pure v
  let tmp := path ++ ".tmp"
  let v ← v.writeFile tmp bytes
  v.rename tmp path

/-- Saves a state to the save file and answers its size in bytes. -/
def saveState (v : Volume) (path : String) (state : Except NativeError ByteArray) :
    Except TransportError (Volume × Nat) := do
  let bytes ← state.mapError TransportError.ofNative
  let v' ← (writeAtomically v path bytes).mapError fun e => .io e.message
  pure (v', bytes.size)

end Courier
