-- Flow windows: a cap, a count in flight and a queue of waiting requests for each transfer, handed on
-- oldest first while slots are free; a sweep drops idle windows and grows waiting ones.
import Courier.Ids

namespace Courier

/-- A request for the bytes `[offset, offset + length)` of a file. -/
structure ChunkRequest where
  offset : Nat
  length : Nat
deriving DecidableEq, Repr, Inhabited

/-- The limits of flow windows; times are in milliseconds. -/
structure WindowConfig where
  initialCap : Nat := 16
  maxCap : Nat := 64
  idleTimeout : Nat := 60000
deriving DecidableEq, Repr

/-- The window of one transfer. -/
structure FlowWindow where
  pending : List ChunkRequest
  inFlight : Nat
  cap : Nat
  lastActive : Nat
deriving DecidableEq, Repr

namespace FlowWindow

/-- A new, empty window. -/
def empty (cap now : Nat) : FlowWindow := ⟨[], 0, cap, now⟩

/-- Hands on the oldest waiting requests while slots are free. -/
def drain (w : FlowWindow) : FlowWindow × List ChunkRequest :=
  let k := min (w.cap - w.inFlight) w.pending.length
  ({ w with pending := w.pending.drop k, inFlight := w.inFlight + k }, w.pending.take k)

/-- Queues a request, then hands on what fits. -/
def enqueue (w : FlowWindow) (r : ChunkRequest) (now : Nat) : FlowWindow × List ChunkRequest :=
  drain { w with pending := w.pending ++ [r], lastActive := now }

/-- Frees one slot (none below zero), then hands on what fits. -/
def release (w : FlowWindow) (now : Nat) : FlowWindow × List ChunkRequest :=
  drain { w with inFlight := w.inFlight - 1, lastActive := now }

/-- Idle for longer than the timeout. -/
def isStale (w : FlowWindow) (now timeout : Nat) : Bool := now - w.lastActive > timeout

/-- Doubles the cap, up to `maxCap`, of a window that waits with nothing in flight. -/
def grow (w : FlowWindow) (maxCap : Nat) : FlowWindow :=
  if w.inFlight == 0 && !w.pending.isEmpty && w.cap < maxCap then
    { w with cap := min (max w.cap 1 * 2) maxCap }
  else w

end FlowWindow

/-- The windows of all transfers, in order of transfer. -/
structure WindowTable where
  config : WindowConfig
  windows : List (TransferId × FlowWindow) := []

namespace WindowTable

/-- The window of a transfer. -/
def get? (t : WindowTable) (id : TransferId) : Option FlowWindow :=
  (t.windows.find? (·.1 == id)).map (·.2)

/-- Sets the window of a transfer, keeping the windows in order of transfer. -/
def put (t : WindowTable) (id : TransferId) (w : FlowWindow) : WindowTable :=
  let rest := t.windows.filter (·.1 != id)
  let before := rest.filter (·.1.key < id.key)
  let after := rest.filter (·.1.key > id.key)
  { t with windows := before ++ [(id, w)] ++ after }

/-- Queues a request, opening the transfer's window with the initial cap if it has none. -/
def enqueue (t : WindowTable) (id : TransferId) (r : ChunkRequest) (now : Nat) :
    WindowTable × List ChunkRequest :=
  let w := (t.get? id).getD (FlowWindow.empty t.config.initialCap now)
  let (w, out) := w.enqueue r now
  (t.put id w, out)

/-- Frees a slot of the transfer's window; a transfer without a window hands on nothing. -/
def release (t : WindowTable) (id : TransferId) (now : Nat) : WindowTable × List ChunkRequest :=
  match t.get? id with
  | some w => let (w, out) := w.release now; (t.put id w, out)
  | none => (t, [])

/-- Drops stale windows, grows starved ones and hands on what fits, window by window. -/
def sweep (t : WindowTable) (now : Nat) : WindowTable × List (TransferId × ChunkRequest) :=
  let live := t.windows.filter fun (_, w) => !w.isStale now t.config.idleTimeout
  let stepped := live.map fun (id, w) => (id, (w.grow t.config.maxCap).drain)
  ({ t with windows := stepped.map fun (id, w, _) => (id, w) },
   stepped.flatMap fun (id, _, out) => out.map (id, ·))

end WindowTable

end Courier
