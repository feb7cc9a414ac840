-- What a transfer looks like from outside: its id, direction, activity, progress and local path.
import Courier.Ids
import Courier.Transfer.Progress
import Courier.Decimal.Fixed

namespace Courier

/-- Whether this node sends or receives the file. -/
inductive Direction where
  | outbound
  | inbound
deriving DecidableEq, Repr

/-- The direction's name in data. -/
def Direction.name : Direction → String
  | .outbound => "outbound"
  | .inbound => "inbound"

/-- Whether a transfer moves data now. -/
inductive Activity where
  | active
  | paused
deriving DecidableEq, Repr

/-- The activity's name in data. -/
def Activity.name : Activity → String
  | .active => "active"
  | .paused => "paused"

/-- A transfer seen from outside. -/
structure TransferSummary where
  id : TransferId
  direction : Direction
  activity : Activity
  progress : Nat
  total : Nat
  fraction : Float
  path : String

/-- The summary's line: `peer#P/file#F send|recv active|paused p/t (n%) path`, the share rounded
to a whole percentage, a half going to the even one. -/
def TransferSummary.display (s : TransferSummary) : String :=
  let dir := match s.direction with | .outbound => "send" | .inbound => "recv"
  s!"{s.id.text} {dir} {s.activity.name} {s.progress}/{s.total} (" ++
    Decimal.wholeText (s.fraction * 100.0) ++ "%) " ++ s.path

end Courier
