-- An engine run by hand: file events delivered one at a time, calls kept in order, and the far
-- side's answer to each offer taken from a book of answers; the daemon's commands run against it.
import Courier.Daemon.Reply
import Courier.Transport.SaveFile

namespace Courier.Daemon

open Transfer

/-- How the far side answers the offer of a file. -/
inductive OfferAnswer where
  | accept (file : UInt32)
  /-- Accepted, after the file at a path was removed. -/
  | acceptAfterRemoving (file : UInt32) (path : String)
  | refuse (e : TransportError)
  /-- The task making the offer breaks down with a message. -/
  | breakDown (task message : String)

/-- An offer as the far side saw it. -/
structure OfferNote where
  name : String
  peer : UInt32
  size : Nat

/-- An engine, its desk, the book of answers, the offers made, whether the bridge is down, the
save file and the state a save writes. -/
structure Recorder where
  engine : Engine
  desk : Desk
  answers : String → OfferAnswer
  offers : List OfferNote := []
  bridgeDown : Bool := false
  saveFile : Option String := none
  state : ByteArray

namespace Recorder

/-- Offers a file to a peer and answers how the far side replied. -/
def offer (r : Recorder) (peer : UInt32) (f : SourceFile) : Recorder × OfferReply :=
  let name := Files.offerName f.path
  let r := { r with offers := r.offers ++ [({ name, peer, size := f.size } : OfferNote)] }
  match r.answers name with
  | .accept n => (r, .accepted n)
  | .acceptAfterRemoving n p =>
    let volume := (r.desk.volume.removeFile p).toOption.getD r.desk.volume
    ({ r with desk := { r.desk with volume } }, .accepted n)
  | .refuse e => (r, .refused e)
  | .breakDown task m => (r, .broke task m)

/-- Sends a file or directory to a peer: every file is offered, then the engine settles. -/
def send (r : Recorder) (peer : UInt32) (path : String) :
    Recorder × Except TransferError SendReport :=
  match r.engine.sources r.desk.volume path with
  | .error e => (r, .error e)
  | .ok files =>
    let (r, replies) := files.foldl (fun (r, acc) f =>
      let (r, reply) := r.offer peer f
      (r, acc ++ [(f, reply)])) (r, [])
    let (engine, desk, res) := r.engine.settle r.desk peer replies
    ({ r with engine, desk }, res)

/-- Delivers a file event `n` times. -/
def deliver (r : Recorder) (n : Nat) (ev : FileEvent) : Recorder :=
  (List.range n).foldl (fun r _ =>
    let t := r.engine.deliver r.desk ev
    { r with engine := t.engine, desk := t.desk }) r

/-- Runs a command from a peer and answers the reply. -/
def command (r : Recorder) (peer : UInt32) : Command → Recorder × String
  | .send p => let (r, res) := r.send peer p; (r, sendReply res)
  | .save =>
    if r.bridgeDown then (r, saveReply (.error .shutdown))
    else match r.saveFile with
      | none => (r, saveReply (.error .noSaveFile))
      | some p =>
        match saveState r.desk.volume p (.ok r.state) with
        | .ok (volume, n) => ({ r with desk := { r.desk with volume } }, saveReply (.ok n))
        | .error e => (r, saveReply (.error e))
  | .status => (r, statusReply r.engine.snapshot)
  | .help => (r, helpText)
  | .unknown t => (r, unknownReply t)

end Recorder

end Courier.Daemon
