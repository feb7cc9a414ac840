-- A node of the in-memory network as a transport: each operation acts on the whole network for one
-- node, and a failed one leaves it as it was.
import Courier.Network.Hub
import Courier.Transport.Bridge

namespace Courier

namespace Network

/-- An operation's outcome with the network it leaves: the new one on success, the old one on
failure. -/
def settle (net : Network) : Except NativeError (Network × α) → Network × Except NativeError α
  | .ok (n, a) => (n, .ok a)
  | .error e => (net, .error e)

/-- The node with key `me` as a transport. -/
def wire (me : PublicKey) : Wire Network where
  pump net := net.pump me
  address net := net.address me
  connection _ := .udp
  addFriend net k := net.settle (net.addFriend me k)
  friendKey net p := (net, net.friendKey me p)
  sendText net p t := net.settle (net.sendText me p t)
  offerFile net p n z := net.settle (net.offerFile me p n z)
  setControl net id c := net.settle ((net.setControl me id c).map (·, ()))
  sendChunk net id o d := net.settle ((net.sendChunk me id o d).map (·, ()))
  saveState net := (net, (net.saveState me).map String.toUTF8)

end Network

end Courier
