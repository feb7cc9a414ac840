-- Errors of sending files, each with its sentence.
import Courier.Transport.Error
import Courier.Text.Quoted

namespace Courier

/-- Why a send failed. -/
inductive TransferError where
  | notFound (path : String)
  | outsideRoot (path root : String)
  | symlinkRefused (path : String)
  | unsupportedFileType (path : String)
  | io (message : String)
  | walk (message : String)
  | transport (e : TransportError)
  | task (message : String)
  | stopped
deriving DecidableEq, Repr

namespace TransferError

/-- The sentence that names a transfer error. -/
def message : TransferError → String
  | .notFound p => "Cannot send " ++ Text.quotePath p ++ ": file does not exist"
  | .outsideRoot p r =>
    "Cannot send " ++ Text.quotePath p ++ ": file not in root dir (" ++ Text.quotePath r ++ ")"
  | .symlinkRefused p => "Cannot send " ++ Text.quotePath p ++ ": symlinks are not supported"
  | .unsupportedFileType p => "Cannot send " ++ Text.quotePath p ++ ": not a regular file or directory"
  | .io m => "IO error: " ++ m
  | .walk m => "Directory walk failed: " ++ m
  | .transport e => "Transport error: " ++ e.message
  | .task m => "Offer task failed: " ++ m
  | .stopped => "Transfer engine has stopped"

/-- The kind's name. -/
def kind : TransferError → String
  | .notFound _ => "NotFound"
  | .outsideRoot .. => "OutsideRoot"
  | .symlinkRefused _ => "SymlinkRefused"
  | .unsupportedFileType _ => "UnsupportedFileType"
  | .io _ => "Io"
  | .walk _ => "Walk"
  | .transport _ => "Transport"
  | .task _ => "Task"
  | .stopped => "Stopped"

/-- The error's sentence, then those of the errors it stems from: a file error stems from the
system's error, a transport error from the transport's. -/
def chain (e : TransferError) : List String :=
  e.message :: (match e with
    | .io m => [m]
    | .transport t => t.chain
    | _ => [])

end TransferError

end Courier
