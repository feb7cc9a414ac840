-- Errors of the transport layer: native errors of the network and the failures of the bridge.
import Courier.Ids

namespace Courier

/-- An error reported by the network: a code and a sentence. -/
structure NativeError where
  code : Int
  message : String
deriving DecidableEq, Repr, Inhabited

/-- The sentence with its code: `<message>, errc = <code>`. -/
def NativeError.display (e : NativeError) : String := s!"{e.message}, errc = {e.code}"

/-- The two kinds of event handler a bridge keeps. -/
inductive HandlerKind where
  | friend
  | file
deriving DecidableEq, Repr

/-- The handler kind in words. -/
def HandlerKind.words : HandlerKind → String
  | .friend => "friend events"
  | .file => "file events"

/-- Why a request to the transport failed. -/
inductive TransportError where
  | protocol (code : Int) (message : String)
  | shutdown
  | alreadyRegistered (k : HandlerKind)
  | notRegistered (k : HandlerKind)
  | handlerMismatch (k : HandlerKind)
  | incompatible (what : String) (expected actual : Nat)
  | noSaveFile
  | construction (message : String)
  | io (message : String)
deriving DecidableEq, Repr

namespace TransportError

/-- A native error seen from the bridge. -/
def ofNative (e : NativeError) : TransportError := .protocol e.code e.message

/-- The sentence that names a transport error. -/
def message : TransportError → String
  | .protocol c m => s!"{m}, errc = {c}"
  | .shutdown => "Transport bridge has shut down"
  | .alreadyRegistered k => k.words ++ " handler already registered"
  | .notRegistered k => k.words ++ " handler not registered"
  | .handlerMismatch k => "Trying to unregister an unrelated " ++ k.words ++ " handler"
  | .incompatible w e a => s!"Incompatible transport: {w} size is {a}, expected {e}"
  | .noSaveFile => "No save file configured"
  | .construction m => "Transport construction failed: " ++ m
  | .io m => "IO error: " ++ m

/-- The native code of a protocol error. -/
def code? : TransportError → Option Int
  | .protocol c _ => some c
  | _ => none

/-- The kind's name. -/
def kind : TransportError → String
  | .protocol .. => "Protocol"
  | .shutdown => "Shutdown"
  | .alreadyRegistered _ => "AlreadyRegistered"
  | .notRegistered _ => "NotRegistered"
  | .handlerMismatch _ => "HandlerMismatch"
  | .incompatible .. => "Incompatible"
  | .noSaveFile => "NoSaveFile"
  | .construction _ => "Construction"
  | .io _ => "Io"

/-- The error's sentence, then those of the errors it stems from: a file error stems from the
system's error. -/
def chain (e : TransportError) : List String :=
  e.message :: (match e with
    | .io m => [m]
    | _ => [])

end TransportError

end Courier
