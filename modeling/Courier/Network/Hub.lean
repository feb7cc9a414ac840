-- An in-process friend network. Nodes are online by key with growing friend lists and inboxes; a
-- file transfer is a flow numbered by a counter of the whole network, pulled by the sender in chunks
-- of at most 1371 bytes, at most 32 outstanding.
import Courier.Network.Event
import Courier.Network.SavedNode
import Courier.Transport.Error

namespace Courier

/-- The longest chunk the network asks for. -/
def chunkSize : Nat := 1371

/-- How many chunk requests of one flow may be outstanding. -/
def maxOutstanding : Nat := 32

/-- The codes of network errors. -/
def errFriendNotFound : Int := 1
def errFileNotFound : Int := 2
def errInvalidLength : Int := 3
def errUnknownKey : Int := 4
def errAlreadyFriend : Int := 5
def errEmptyMessage : Int := 6
def errBadState : Int := 7

/-- An online node. -/
structure Node where
  name : String
  nospam : UInt32
  friends : List PublicKey
  inbox : List Event := []
  nextMessage : UInt32 := 0
deriving Inhabited

namespace Node

/-- The peer number of a key in the friend list. -/
def peerOf? (n : Node) (k : PublicKey) : Option UInt32 :=
  (n.friends.idxOf? k).map Nat.toUInt32

/-- The key of a peer number. -/
def friend (n : Node) (peer : UInt32) : Except NativeError PublicKey :=
  match n.friends[peer.toNat]? with
  | some k => .ok k
  | none => .error ⟨errFriendNotFound, s!"friend {peerText peer} not found"⟩

end Node

/-- A file transfer in progress, seen from the network. -/
structure Flow where
  sender : PublicKey
  receiver : PublicKey
  size : Nat
  accepted : Bool := false
  paused : Bool := false
  /-- Where the next chunk request starts. -/
  requested : Nat := 0
  /-- The highest end of a chunk delivered. -/
  delivered : Nat := 0
  outstanding : Nat := 0
deriving DecidableEq

/-- The other party of a flow, if `k` is one of its parties. -/
def Flow.counterpart? (f : Flow) (k : PublicKey) : Option PublicKey :=
  if k == f.sender then some f.receiver else if k == f.receiver then some f.sender else none

/-- The in-process network: online nodes, live flows and the file counter. -/
structure Network where
  nodes : List (PublicKey × Node) := []
  flows : List (UInt32 × Flow) := []
  nextFile : UInt32 := 0
  /-- A counter for the keys of nodes made without a saved state. -/
  made : Nat := 0
deriving Inhabited

namespace Network

/-- The node of a key, if online. -/
def node? (net : Network) (k : PublicKey) : Option Node :=
  (net.nodes.find? (·.1 == k)).map (·.2)

/-- The node of a key, or the error for an unknown key. -/
def node (net : Network) (k : PublicKey) : Except NativeError Node :=
  match net.node? k with
  | some n => .ok n
  | none => .error ⟨errUnknownKey, s!"unknown key {k.hex}"⟩

/-- Replaces the node of a key. -/
def setNode (net : Network) (k : PublicKey) (n : Node) : Network :=
  { net with nodes := net.nodes.map fun (k', m) => if k' == k then (k', n) else (k', m) }

/-- The flow of a file number. -/
def flow? (net : Network) (file : UInt32) : Option Flow :=
  (net.flows.find? (·.1 == file)).map (·.2)

/-- Sets the flow of a file number, keeping flows in order of file number. -/
def setFlow (net : Network) (file : UInt32) (f : Flow) : Network :=
  let rest := net.flows.filter (·.1 != file)
  { net with flows := rest.filter (·.1 < file) ++ [(file, f)] ++ rest.filter (·.1 > file) }

/-- Removes the flow of a file number. -/
def dropFlow (net : Network) (file : UInt32) : Network :=
  { net with flows := net.flows.filter (·.1 != file) }

/-- Delivers an event to `dest` from `src`, made with the peer number `src` has there; nothing
happens unless `dest` is online and lists `src`. -/
def post (net : Network) (dest src : PublicKey) (make : UInt32 → Event) : Network :=
  match net.node? dest with
  | some n => match n.peerOf? src with
    | some peer => net.setNode dest { n with inbox := n.inbox ++ [make peer] }
    | none => net
  | none => net

/-- Tells two online nodes each other's name. -/
def announce (net : Network) (a b : PublicKey) : Network :=
  match net.node? a, net.node? b with
  | some na, some nb =>
    let net := net.post a b (fun p => .friendName p nb.name)
    net.post b a (fun p => .friendName p na.name)
  | _, _ => net

/-- Adds `b` to the friends of `a`, and `a` to those of `b` if `b` is online and lacks it, then
tells both names; answers `b`'s peer number at `a`. -/
def link (net : Network) (a b : PublicKey) : Except NativeError (Network × UInt32) := do
  let na ← net.node a
  if (na.peerOf? b).isSome then throw (NativeError.mk errAlreadyFriend (s!"{b.hex} is already a friend"))
  let net := net.setNode a { na with friends := na.friends ++ [b] }
  let net := match net.node? b with
    | some nb => if (nb.peerOf? a).isSome then net
      else net.setNode b { nb with friends := nb.friends ++ [a] }
    | none => net
  return (net.announce a b, (na.friends.length).toUInt32)

/-- Makes a node online from its saved state under a name; each friend that is online and lists
it learns its name, and it learns theirs. -/
def restore (net : Network) (name : String) (state : String) :
    Except NativeError (Network × PublicKey) := do
  let s ← match SavedNode.read state with
    | .ok s => pure s
    | .error e => throw (NativeError.mk errBadState ("invalid saved state: " ++ e.text))
  if (net.node? s.key).isSome then throw (NativeError.mk errBadState (s!"key {s.key.hex} is already online"))
  let net := { net with nodes := net.nodes ++ [(s.key, { name, nospam := s.nospam, friends := s.friends })] }
  let net := s.friends.foldl (fun net f =>
    match net.node? f with
    | some nf => if (nf.peerOf? s.key).isSome then net.announce s.key f else net
    | none => net) net
  return (net, s.key)

/-- A key for a node made without saved state: different for every node made, and far from the
keys of equal bytes. -/
def freshKey (net : Network) : PublicKey :=
  let n := net.made
  let tail := (List.range 8).map fun i => (n / Nat.pow 256 i % 256).toUInt8
  ⟨[0x5e, 0xed] ++ List.replicate 22 0x91 ++ tail, by simp [tail]⟩

/-- Makes a node online with a new key, no friends and nospam zero; answers its key. -/
def fresh (net : Network) (name : String) : Network × PublicKey :=
  let key := freshKey net
  ({ net with nodes := net.nodes ++ [(key, { name, nospam := 0, friends := [] })], made := net.made + 1 }, key)

/-- Sends a friend request from `src` to the node of an address; the message must not be empty. -/
def requestFriend (net : Network) (src : PublicKey) (dest : Address) (message : String) :
    Except NativeError Network := do
  if message.isEmpty then throw (NativeError.mk errEmptyMessage ("friend request message is empty"))
  let _ ← net.node src
  let target ← net.node dest.key
  if target.nospam != dest.nospam then throw (NativeError.mk errUnknownKey ("nospam mismatch"))
  if (target.peerOf? src).isSome then throw (NativeError.mk errAlreadyFriend (s!"{src.hex} is already a friend"))
  return net.setNode dest.key { target with inbox := target.inbox ++ [.friendRequest src message] }

/-- Makes two nodes friends directly; both must be online. -/
def befriend (net : Network) (a b : PublicKey) : Except NativeError Network := do
  let _ ← net.node b
  let (net, _) ← net.link a b
  return net

/-- The number of live flows. -/
def activeTransfers (net : Network) : Nat := net.flows.length

/-- The address of an online node; nospam zero for a node that is gone. -/
def address (net : Network) (me : PublicKey) : Address :=
  Address.new me ((net.node? me).map (·.nospam) |>.getD 0)

/-- Adds a friend without a request. -/
def addFriend (net : Network) (me k : PublicKey) : Except NativeError (Network × UInt32) :=
  if k == me then .error ⟨errUnknownKey, "cannot befriend self"⟩ else net.link me k

/-- The key of one of `me`'s peers. -/
def friendKey (net : Network) (me : PublicKey) (peer : UInt32) : Except NativeError PublicKey := do
  (← net.node me).friend peer

/-- Sends a text message to a peer; answers the message number. -/
def sendText (net : Network) (me : PublicKey) (peer : UInt32) (text : String) :
    Except NativeError (Network × UInt32) := do
  if text.isEmpty then throw (NativeError.mk errEmptyMessage ("message is empty"))
  let n ← net.node me
  let friend ← n.friend peer
  let net := net.setNode me { n with nextMessage := n.nextMessage + 1 }
  return (net.post friend me (fun p => .friendMessage p text), n.nextMessage)

/-- Offers a file to a peer, who must be online and list `me`; answers the transfer. -/
def offerFile (net : Network) (me : PublicKey) (peer : UInt32) (name : String) (size : Nat) :
    Except NativeError (Network × TransferId) := do
  let friend ← (← net.node me).friend peer
  let online := match net.node? friend with
    | some nf => (nf.peerOf? me).isSome
    | none => false
  if !online then throw (NativeError.mk errFriendNotFound (s!"friend {peerText peer} is not connected"))
  let file := net.nextFile
  let net := { net with nextFile := file + 1 }
  let net := net.setFlow file { sender := me, receiver := friend, size }
  return (net.post friend me (fun p => .fileOffered ⟨p, file⟩ name size), ⟨peer, file⟩)

/-- The flow of a transfer of `me`, whose other party must be the transfer's peer. -/
def flowOf (net : Network) (me : PublicKey) (id : TransferId) : Except NativeError Flow := do
  let friend ← (← net.node me).friend id.peer
  let missing : NativeError := ⟨errFileNotFound, s!"transfer {id.text} not found"⟩
  match net.flow? id.file with
  | some f => if f.counterpart? me == some friend then pure f else throw missing
  | none => throw missing

/-- Ends a flow whose bytes have all arrived: the sender gets a request of length zero and the
receiver an empty chunk, both at the end of the file. -/
def complete (net : Network) (file : UInt32) : Network :=
  match net.flow? file with
  | none => net
  | some f =>
    let net := net.dropFlow file
    let net := net.post f.sender f.receiver (fun p => .chunkRequested ⟨p, file⟩ ⟨f.size, 0⟩)
    net.post f.receiver f.sender (fun p => .chunkReceived ⟨p, file⟩ f.size ByteArray.empty)

/-- Sends a control to the other side of a transfer. Resume restarts pulling from what has
arrived (and, from the receiver, accepts the file); a resumed empty file is complete at once.
Pause stops pulling; cancel ends the flow. -/
def setControl (net : Network) (me : PublicKey) (id : TransferId) (control : FileControl) :
    Except NativeError Network := do
  let f ← net.flowOf me id
  let other := if f.sender == me then f.receiver else f.sender
  let (net, finished) := match control with
    | .resume =>
      let f : Flow :=
        { f with
          accepted := (f.accepted || f.receiver == me)
          paused := false
          requested := f.delivered
          outstanding := 0 }
      (net.setFlow id.file f, f.accepted && f.size == 0)
    | .pause => (net.setFlow id.file { f with paused := true }, false)
    | .cancel => (net.dropFlow id.file, false)
  let net := net.post other me (fun p => .fileControl ⟨p, id.file⟩ control)
  return if finished then net.complete id.file else net

/-- Sends a chunk of a file `me` offers. The chunk must not be empty and must end within the file,
its end taken modulo 2^64; the flow completes once every byte has arrived. -/
def sendChunk (net : Network) (me : PublicKey) (id : TransferId) (offset : Nat) (data : ByteArray) :
    Except NativeError Network := do
  let f ← net.flowOf me id
  if f.sender != me then throw (NativeError.mk errFileNotFound (s!"transfer {id.text} is not outbound"))
  let stop := (offset + data.size) % Nat.pow 2 64
  if data.size == 0 || stop > f.size then
    throw (NativeError.mk errInvalidLength (s!"chunk {offset}+{data.size} out of range"))
  let f := { f with outstanding := f.outstanding - 1, delivered := max f.delivered stop }
  let net := net.setFlow id.file f
  let net := net.post f.receiver me (fun p => .chunkReceived ⟨p, id.file⟩ offset data)
  return if f.delivered ≥ f.size then net.complete id.file else net

/-- The chunk requests of one flow, from `requested` on, while fewer than 32 are outstanding. -/
def pullsOf (id : TransferId) (f : Flow) : Nat → Flow × List Event
  | 0 => (f, [])
  | fuel + 1 =>
    if f.outstanding < maxOutstanding && f.requested < f.size then
      let length := min (f.size - f.requested) chunkSize
      let next : Flow :=
        { f with
          requested := f.requested + length
          outstanding := f.outstanding + 1 }
      let (last, rest) := pullsOf id next fuel
      (last, .chunkRequested id ⟨f.requested, length⟩ :: rest)
    else (f, [])

/-- The chunk requests for the accepted, running flows that `me` sends, in order of file. -/
def pulls (net : Network) (me : PublicKey) : Network × List Event :=
  match net.node? me with
  | none => (net, [])
  | some n =>
    let stepped := net.flows.map fun (file, f) =>
      if f.sender == me && f.accepted && !f.paused then
        match n.peerOf? f.receiver with
        | some peer =>
          let (f, evs) := pullsOf ⟨peer, file⟩ f (maxOutstanding + 1)
          ((file, f), evs)
        | none => ((file, f), [])
      else ((file, f), [])
    ({ net with flows := stepped.map (·.1) }, stepped.flatMap (·.2))

/-- One round of a node's pump: its inbox, then new chunk requests. -/
def pump (net : Network) (me : PublicKey) : Network × List Event :=
  match net.node? me with
  | none => (net, [])
  | some n =>
    let net := net.setNode me { n with inbox := [] }
    let (net, ps) := net.pulls me
    (net, n.inbox ++ ps)

/-- Pumps a node until a round brings an event of a kind, or brings nothing, at most `rounds`
times. Answers the events of each round and whether the kind came. -/
def pumpUntil (net : Network) (me : PublicKey) (kind : String) :
    Nat → Network × List (List Event) × Bool
  | 0 => (net, [], false)
  | rounds + 1 =>
    let (net, evs) := net.pump me
    if evs.any (·.typeName == kind) then (net, [evs], true)
    else if evs.isEmpty then (net, [], false)
    else
      let (net, more, found) := net.pumpUntil me kind rounds
      (net, evs :: more, found)

/-- Answers chunk requests with the bytes `data` gives for each, in order; answers each send's
result. -/
def answerPulls (net : Network) (me : PublicKey) (data : ChunkRequest → ByteArray) (evs : List Event) :
    Network × List (TransferId × ChunkRequest × Except NativeError Unit) :=
  evs.foldl (fun (net, out) ev => match ev with
    | .chunkRequested id r =>
      match net.sendChunk me id r.offset (data r) with
      | .ok net => (net, out ++ [(id, r, .ok ())])
      | .error e => (net, out ++ [(id, r, .error e)])
    | _ => (net, out)) (net, [])

/-- The saved state of an online node. -/
def saveState (net : Network) (me : PublicKey) : Except NativeError String := do
  let n ← net.node me
  return (SavedNode.text ⟨me, n.nospam, n.name, n.friends⟩)

/-- Takes a node offline: its flows end and the other party of each gets a cancel. -/
def leave (net : Network) (me : PublicKey) : Network :=
  match net.node? me with
  | none => net
  | some _ =>
    let net := { net with nodes := net.nodes.filter (·.1 != me) }
    let gone := net.flows.filterMap fun (file, f) => (f.counterpart? me).map (file, ·)
    gone.foldl (fun net (file, other) =>
      (net.dropFlow file).post other me (fun p => .fileControl ⟨p, file⟩ .cancel)) net

end Network

end Courier
