-- What the network tells a node: friend events, offered files, transfer controls, chunk requests and
-- chunks. A chunk request of length zero and an empty chunk mark the end of a transfer.
import Courier.Address
import Courier.Transport.Window

namespace Courier

/-- An event delivered to a node. -/
inductive Event where
  | friendRequest (key : PublicKey) (message : String)
  | friendMessage (peer : UInt32) (text : String)
  | friendName (peer : UInt32) (name : String)
  | friendStatus (peer : UInt32) (status : String)
  | fileOffered (id : TransferId) (name : String) (size : Nat)
  | fileControl (id : TransferId) (control : FileControl)
  | chunkRequested (id : TransferId) (request : ChunkRequest)
  | chunkReceived (id : TransferId) (offset : Nat) (data : ByteArray)
deriving Inhabited

namespace Event

/-- The event's kind, as named in data. -/
def typeName : Event → String
  | .friendRequest .. => "FriendRequest"
  | .friendMessage .. => "FriendMessage"
  | .friendName .. => "FriendName"
  | .friendStatus .. => "FriendStatus"
  | .fileOffered .. => "FileOffered"
  | .fileControl .. => "FileControl"
  | .chunkRequested .. => "ChunkRequested"
  | .chunkReceived .. => "ChunkReceived"

/-- A request for a chunk of nonzero length: a pull of the sender's data. -/
def isPull : Event → Bool
  | .chunkRequested _ r => r.length != 0
  | _ => false

/-- The file number an event is about; zero for friend events. -/
def file : Event → UInt32
  | .fileOffered id .. | .fileControl id _ | .chunkRequested id _ | .chunkReceived id .. => id.file
  | _ => 0

end Event

end Courier
