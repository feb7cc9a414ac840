-- A scripted transport for driving a bridge event by event: injected events, recorded calls, and
-- methods set to fail.
import Courier.Transport.Bridge

namespace Courier

/-- A recorded call on the scripted transport. -/
inductive Invocation where
  | friendKey (peer : UInt32)
  | sendText (peer : UInt32) (text : String)
  | offerFile (peer : UInt32) (name : String) (size : Nat)
  | addFriend (key : PublicKey)
  | setControl (id : TransferId) (c : FileControl)
  | sendChunk (id : TransferId) (offset : Nat) (data : ByteArray)
  | saveState

/-- The name of the transport method a call invokes. -/
def Invocation.method : Invocation → String
  | .friendKey _ => "friend_public_key"
  | .sendText .. => "send_text"
  | .offerFile .. => "offer_file"
  | .addFriend _ => "add_friend_norequest"
  | .setControl .. => "set_file_control"
  | .sendChunk .. => "send_chunk"
  | .saveState => "save_state"

/-- The error code of a scripted failure. -/
def scriptedFailureCode : Int := 99

/-- A scripted transport: its sizes and connection, the events waiting for the next pump, the
calls made, the methods set to fail and the counter. -/
structure Scripted where
  keySize : Nat := 32
  addressSize : Nat := 38
  connection : Connection := .udp
  waiting : List Event := []
  calls : Array Invocation := #[]
  failing : List String := []
  counter : Nat := 0

namespace Scripted

/-- Queues events for the next pump. -/
def inject (s : Scripted) (evs : List Event) : Scripted := { s with waiting := s.waiting ++ evs }

/-- Sets whether a method fails. -/
def setFailing (s : Scripted) (method : String) (fail : Bool) : Scripted :=
  let rest := s.failing.filter (· != method)
  { s with failing := if fail then rest ++ [method] else rest }

/-- Records a call and answers it: a failure if its method fails, else the value made from the
counter, which then moves on. -/
def invoke (s : Scripted) (i : Invocation) (value : Nat → α) : Scripted × Except NativeError α :=
  let s := { s with calls := s.calls.push i }
  if s.failing.contains i.method then
    (s, .error ⟨scriptedFailureCode, "scripted failure of " ++ i.method⟩)
  else ({ s with counter := s.counter + 1 }, .ok (value s.counter))

/-- The scripted transport's own key. -/
def ownKey : PublicKey := PublicKey.replicate 0x5A

/-- The scripted transport's saved state. -/
def stateText : String := "scripted state"

/-- The scripted transport as a bridge drives it. -/
def wire (s : Scripted) : Wire Scripted where
  keySize := s.keySize
  addressSize := s.addressSize
  pump s := ({ s with waiting := [] }, s.waiting)
  address _ := Address.new ownKey 7
  connection s := s.connection
  addFriend s k := s.invoke (.addFriend k) (·.toUInt32)
  friendKey s p := s.invoke (.friendKey p) fun _ => PublicKey.replicate p.toUInt8
  sendText s p t := s.invoke (.sendText p t) (·.toUInt32)
  offerFile s p n z := s.invoke (.offerFile p n z) fun c => ⟨p, c.toUInt32⟩
  setControl s id c := s.invoke (.setControl id c) fun _ => ()
  sendChunk s id o d := s.invoke (.sendChunk id o d) fun _ => ()
  saveState s := s.invoke .saveState fun _ => stateText.toUTF8

end Scripted

end Courier
