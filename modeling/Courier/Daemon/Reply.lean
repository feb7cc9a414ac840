-- The daemon's replies to `send`, `save`, `status`, `help` and unknown commands; a failure is
-- answered as `error: ` and its sentence.
import Courier.Command
import Courier.Transfer.Engine

namespace Courier

/-- A failure as a reply. -/
def errorReply (message : String) : String := "error: " ++ message

/-- The reply to `send`. -/
def sendReply : Except TransferError Transfer.SendReport → String
  | .ok r => r.describe
  | .error e => errorReply e.message

/-- The reply to `save`. -/
def saveReply : Except TransportError Nat → String
  | .ok n => s!"saved {n} bytes"
  | .error e => errorReply e.message

/-- The reply to `status`: a line per transfer. -/
def statusReply : Except TransferError (List TransferSummary) → String
  | .ok [] => "no active transfers"
  | .ok ts => "\n".intercalate (ts.map (·.display))
  | .error e => errorReply e.message

/-- The reply to a line that is no command. -/
def unknownReply (text : String) : String :=
  errorReply ("unknown command " ++ String.singleton Text.apostrophe ++ text ++
    String.singleton Text.apostrophe)

end Courier
