-- What a send request may read: a path under the shared root, not a link, and the files below a
-- directory in order of name.
import Courier.Files.Volume
import Courier.Transfer.Error

namespace Courier.Transfer

open Files

/-- A file to send: its resolved path and its size in bytes. -/
structure SourceFile where
  path : String
  size : Nat
deriving DecidableEq, Repr

/-- A file error as a transfer error. -/
def ioError (e : Errno) : TransferError := .io e.message

/-- The resolved path a send request names, checked against the shared root. -/
def locateSource (v : Volume) (root path : String) : Except TransferError String := do
  let joined := if isAbsolute path then path else join root path
  match v.locate false joined with
  | .error .notFound => throw (.notFound joined)
  | .error e => throw (ioError e)
  | .ok ⟨_, none⟩ => throw (.notFound joined)
  | .ok ⟨_, some (.link _)⟩ => throw (.symlinkRefused joined)
  | .ok ⟨_, some _⟩ =>
    let canon ← (v.canonical joined).mapError ioError
    if isUnder canon root then pure canon else throw (.outsideRoot canon root)

/-- The files a resolved path stands for: itself if it is a file, else every file below it. -/
def sourceFiles (v : Volume) (path : String) : Except TransferError (List SourceFile) := do
  let (place, entry) ← (v.stat false path).mapError ioError
  match entry with
  | .file n => pure [⟨path, (v.blob n).size⟩]
  | .dir =>
    (v.walk place).foldlM (fun acc (below, e) =>
      let p := join path ("/".intercalate below)
      match e with
      | .dir => pure acc
      | .link _ => throw (.symlinkRefused p)
      | .file n => pure (acc ++ [⟨p, (v.blob n).size⟩])
      | .socket => throw (.unsupportedFileType p)) []
  | _ => throw (.unsupportedFileType path)

end Courier.Transfer
