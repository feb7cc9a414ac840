-- The daemon's friend handler: it accepts a friend request only from the trusted key and queues the
-- commands of each friend message, one a line, in a bounded queue that keeps the first ones.
import Courier.Command
import Courier.Address

namespace Courier

/-- A command with the friend that sent it. -/
structure CommandRequest where
  peer : UInt32
  command : Command
deriving DecidableEq, Repr

/-- A bounded queue of commands. -/
structure CommandQueue where
  capacity : Nat
  items : List CommandRequest := []
deriving Repr

namespace CommandQueue

/-- The message of a queue made without room. -/
def zeroCapacityMessage : String := "mpsc bounded channel requires buffer > 0"

/-- A queue with room for `capacity` commands; a queue needs room for at least one. -/
def create (capacity : Nat) : Except String CommandQueue :=
  if capacity == 0 then .error zeroCapacityMessage else .ok ⟨capacity, []⟩

/-- Adds a command if there is room; otherwise the command is dropped. -/
def offer (q : CommandQueue) (r : CommandRequest) : CommandQueue :=
  if q.items.length < q.capacity then { q with items := q.items ++ [r] } else q

/-- Takes the oldest command. -/
def take? (q : CommandQueue) : Option (CommandRequest × CommandQueue) :=
  match q.items with
  | r :: rest => some (r, { q with items := rest })
  | [] => none

end CommandQueue

/-- The daemon's friend handler: the trusted key. -/
structure CommandHandler where
  trusted : PublicKey

namespace CommandHandler

/-- A friend request is accepted only from the trusted key. -/
def onRequest (h : CommandHandler) (key : PublicKey) : Bool := key == h.trusted

/-- Queues the commands of a message, one a line, tagged with the sender. -/
def onMessage (q : CommandQueue) (peer : UInt32) (text : String) : CommandQueue :=
  (Command.ofText text).foldl (fun q c => q.offer ⟨peer, c⟩) q

end CommandHandler

end Courier
