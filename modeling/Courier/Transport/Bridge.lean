-- The bridge between a transport and the rest of a node: it takes requests, pumps the transport,
-- passes chunk requests through the flow windows and hands events to the friend or file handler.
import Courier.Network.Event
import Courier.Transport.SaveFile

namespace Courier

/-- A transport as the bridge drives it: each operation acts on a world `ω` that holds the
transport. The sizes are those the transport was built for. -/
structure Wire (ω : Type) where
  keySize : Nat := 32
  addressSize : Nat := 38
  pump : ω → ω × List Event
  address : ω → Address
  connection : ω → Connection
  addFriend : ω → PublicKey → ω × Except NativeError UInt32
  friendKey : ω → UInt32 → ω × Except NativeError PublicKey
  sendText : ω → UInt32 → String → ω × Except NativeError UInt32
  offerFile : ω → UInt32 → String → Nat → ω × Except NativeError TransferId
  setControl : ω → TransferId → FileControl → ω × Except NativeError Unit
  sendChunk : ω → TransferId → Nat → ByteArray → ω × Except NativeError Unit
  saveState : ω → ω × Except NativeError ByteArray

/-- A wire on a part of a larger world, reached by `get` and put back by `set`. -/
def Wire.focus (w : Wire α) (get : ω → α) (set : ω → α → ω) : Wire ω where
  keySize := w.keySize
  addressSize := w.addressSize
  pump x := let (a, r) := w.pump (get x); (set x a, r)
  address x := w.address (get x)
  connection x := w.connection (get x)
  addFriend x k := let (a, r) := w.addFriend (get x) k; (set x a, r)
  friendKey x p := let (a, r) := w.friendKey (get x) p; (set x a, r)
  sendText x p t := let (a, r) := w.sendText (get x) p t; (set x a, r)
  offerFile x p n s := let (a, r) := w.offerFile (get x) p n s; (set x a, r)
  setControl x id c := let (a, r) := w.setControl (get x) id c; (set x a, r)
  sendChunk x id o d := let (a, r) := w.sendChunk (get x) id o d; (set x a, r)
  saveState x := let (a, r) := w.saveState (get x); (set x a, r)

/-- The sizes the network works with. -/
def networkKeySize : Nat := 32

/-- The size of an address on the network. -/
def networkAddressSize : Nat := 38

/-- What the bridge hands to its handlers: the network's events, and the failures of
fire-and-forget calls. -/
inductive Inbound where
  | event (e : Event)
  | fileError (id : TransferId) (e : TransportError)

/-- Whether an inbound item goes to the friend handler rather than the file handler. -/
def Inbound.forFriends : Inbound → Bool
  | .event (.friendRequest ..) | .event (.friendMessage ..) | .event (.friendName ..)
  | .event (.friendStatus ..) => true
  | _ => false

/-- The limits of a bridge and its save file. -/
structure BridgeConfig where
  queueCapacity : Nat := 512
  window : WindowConfig := {}
  saveFile : Option String := none

/-- How making a transport went: made, failed with a sentence, or lost with the thread that made
it. -/
inductive Made (ω : Type) where
  | made (x : ω)
  | failed (message : String)
  | lost

/-- The sentence for a transport lost while it was made. -/
def lostWhileMaking : String := "pump thread exited during construction"

/-- A bridge: its transport's address, whether it runs, the flow windows, the save file, and the
handler in each slot, named by a number. -/
structure Bridge where
  address : Address
  running : Bool := true
  windows : WindowTable
  saveFile : Option String := none
  friendSlot : Option Nat := none
  fileSlot : Option Nat := none

namespace Bridge

/-- Starts a bridge: the transport's sizes are checked, then it is made. -/
def spawn (w : Wire ω) (make : Made ω) (cfg : BridgeConfig) : Except TransportError (Bridge × ω) := do
  if w.keySize != networkKeySize then
    throw (.incompatible "public key" networkKeySize w.keySize)
  if w.addressSize != networkAddressSize then
    throw (.incompatible "address" networkAddressSize w.addressSize)
  match make with
  | .made x => pure ({ address := w.address x, windows := { config := cfg.window }, saveFile := cfg.saveFile }, x)
  | .failed m => throw (.construction m)
  | .lost => throw (.construction lostWhileMaking)

/-- The handler in a slot. -/
def slot (b : Bridge) : HandlerKind → Option Nat
  | .friend => b.friendSlot
  | .file => b.fileSlot

/-- Sets a slot. -/
def setSlot (b : Bridge) (k : HandlerKind) (h : Option Nat) : Bridge :=
  match k with
  | .friend => { b with friendSlot := h }
  | .file => { b with fileSlot := h }

/-- Puts a handler in an empty slot. -/
def register (b : Bridge) (k : HandlerKind) (h : Nat) : Except TransportError Bridge :=
  match b.slot k with
  | some _ => .error (.alreadyRegistered k)
  | none => .ok (b.setSlot k (some h))

/-- Takes a handler out of its slot; the slot must hold that very handler. -/
def unregister (b : Bridge) (k : HandlerKind) (h : Nat) : Except TransportError Bridge :=
  match b.slot k with
  | none => .error (.notRegistered k)
  | some h' => if h' == h then .ok (b.setSlot k none) else .error (.handlerMismatch k)

/-- The handler an inbound item goes to. -/
def handlerOf (b : Bridge) (i : Inbound) : Option Nat :=
  if i.forFriends then b.friendSlot else b.fileSlot

/-- The handle of the bridge as it is shown for debugging: its address and whether it runs. -/
def debug (b : Bridge) : String :=
  "BridgeHandle \x7b address: " ++ b.address.debug ++ ", running: " ++ toString b.running ++ " \x7d"

/-- Stops the bridge and empties both slots. -/
def shutdown (b : Bridge) : Bridge := { b with running := false, friendSlot := none, fileSlot := none }

/-- Runs an answered request on a running bridge; a stopped one answers `shutdown`. -/
def ask (b : Bridge) (x : ω) (f : ω → ω × Except NativeError α) : ω × Except TransportError α :=
  if b.running then let (x, r) := f x; (x, r.mapError TransportError.ofNative) else (x, .error .shutdown)

/-- The connection of the transport. -/
def connection (b : Bridge) (w : Wire ω) (x : ω) : Except TransportError Connection :=
  if b.running then .ok (w.connection x) else .error .shutdown

/-- Adds a friend without a request; answers the friend's peer number. -/
def acceptFriend (b : Bridge) (w : Wire ω) (x : ω) (k : PublicKey) : ω × Except TransportError UInt32 :=
  b.ask x (w.addFriend · k)

/-- The key of a peer. -/
def friendKey (b : Bridge) (w : Wire ω) (x : ω) (peer : UInt32) : ω × Except TransportError PublicKey :=
  b.ask x (w.friendKey · peer)

/-- Sends a text message; answers its number. -/
def sendMessage (b : Bridge) (w : Wire ω) (x : ω) (peer : UInt32) (text : String) :
    ω × Except TransportError UInt32 :=
  b.ask x (w.sendText · peer text)

/-- Offers a file; answers the transfer. -/
def offerFile (b : Bridge) (w : Wire ω) (x : ω) (peer : UInt32) (name : String) (size : Nat) :
    ω × Except TransportError TransferId :=
  b.ask x (w.offerFile · peer name size)

/-- Saves the transport's state to the save file; answers the bytes saved. -/
def save (b : Bridge) (w : Wire ω) (x : ω) (v : Files.Volume) :
    ω × Files.Volume × Except TransportError Nat :=
  if !b.running then (x, v, .error .shutdown)
  else match b.saveFile with
    | none => (x, v, .error .noSaveFile)
    | some path =>
      let (x, state) := w.saveState x
      match saveState v path state with
      | .ok (v, n) => (x, v, .ok n)
      | .error e => (x, v, .error e)

/-- Sends a control, fire and forget; a failure comes back as a file error. -/
def control (b : Bridge) (w : Wire ω) (x : ω) (id : TransferId) (c : FileControl) :
    ω × List Inbound :=
  if !b.running then (x, [])
  else match w.setControl x id c with
    | (x, .ok _) => (x, [])
    | (x, .error e) => (x, [.fileError id (.ofNative e)])

/-- Sends a chunk, fire and forget; a failure comes back as a file error, and the transfer's
window frees a slot and hands on what now fits. -/
def chunk (b : Bridge) (w : Wire ω) (x : ω) (now : Nat) (id : TransferId) (offset : Nat)
    (data : ByteArray) : Bridge × ω × List Inbound :=
  if !b.running then (b, x, [])
  else
    let (x, r) := w.sendChunk x id offset data
    let failed := match r with
      | .ok _ => []
      | .error e => [Inbound.fileError id (.ofNative e)]
    let (windows, out) := b.windows.release id now
    ({ b with windows }, x, failed ++ out.map fun req => .event (.chunkRequested id req))

/-- One round of the pump: the transport's events, chunk requests passed through the windows,
then what a sweep of the windows hands on. A stopped bridge does not pump. -/
def pumpOnce (b : Bridge) (w : Wire ω) (x : ω) (now : Nat) : Bridge × ω × List Inbound :=
  if !b.running then (b, x, [])
  else
    let (x, evs) := w.pump x
    let (windows, items) := evs.foldl (fun (t, acc) e =>
      match e with
      | .chunkRequested id req =>
        let (t, out) := t.enqueue id req now
        (t, acc ++ out.map fun r => Inbound.event (.chunkRequested id r))
      | e => (t, acc ++ [Inbound.event e])) (b.windows, [])
    let (windows, swept) := windows.sweep now
    ({ b with windows }, x, items ++ swept.map fun (id, r) => .event (.chunkRequested id r))

end Bridge

end Courier
