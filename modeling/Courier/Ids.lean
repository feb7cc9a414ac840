-- Names of peers, files, transfers and messages, and the controls of a file transfer.

namespace Courier

/-- A friend's place in a node's friend list, shown as `peer#N`. -/
def peerText (peer : UInt32) : String := s!"peer#{peer}"

/-- One file transfer with one friend. -/
structure TransferId where
  peer : UInt32
  file : UInt32
deriving DecidableEq, Repr, Inhabited

/-- A transfer shown as `peer#P/file#F`. -/
def TransferId.text (id : TransferId) : String := s!"{peerText id.peer}/file#{id.file}"

/-- Transfers in order of peer, then file number. -/
def TransferId.key (id : TransferId) : Nat := id.peer.toNat * Nat.pow 2 32 + id.file.toNat

/-- What one side of a transfer asks of the other. -/
inductive FileControl where
  | resume
  | pause
  | cancel
deriving DecidableEq, Repr, Inhabited

namespace FileControl

/-- The control as it is logged, in capitals. -/
def shout : FileControl → String
  | .resume => "RESUME"
  | .pause => "PAUSE"
  | .cancel => "CANCEL"

/-- The control's name in data. -/
def name : FileControl → String
  | .resume => "Resume"
  | .pause => "Pause"
  | .cancel => "Cancel"

/-- Reads a control's name, in its data form or in lower case. -/
def ofName? : String → Option FileControl
  | "Resume" | "resume" => some .resume
  | "Pause" | "pause" => some .pause
  | "Cancel" | "cancel" => some .cancel
  | _ => none

end FileControl

/-- How a node is connected to the network. -/
inductive Connection where
  | none
  | tcp
  | udp
deriving DecidableEq, Repr

/-- The connection's name in data. -/
def Connection.name : Connection → String
  | .none => "None"
  | .tcp => "Tcp"
  | .udp => "Udp"

end Courier
