-- A file volume held in memory: directories, files, links and sockets at absolute paths, with file
-- bytes kept apart under inode numbers. Paths are looked up part by part as a Unix kernel does, and
-- failures carry the system's error number and sentence.
import Courier.Files.Path

namespace Courier.Files

/-- Why a file operation failed. -/
inductive Errno where
  | notFound
  | noDevice
  | alreadyExists
  | notDir
  | isDir
  | invalid
  | tooLarge
  | loop
  /-- A read found fewer bytes than it asked for. -/
  | shortRead
  /-- A tree of directories could not be made, for want of a parent. -/
  | noTree
  /-- A file was read that is open only for writing, or written that is open only for reading. -/
  | badDescriptor
deriving DecidableEq, Repr

/-- The system's sentence for an error, with its number. -/
def Errno.message : Errno → String
  | .notFound => "No such file or directory (os error 2)"
  | .noDevice => "No such device or address (os error 6)"
  | .alreadyExists => "File exists (os error 17)"
  | .notDir => "Not a directory (os error 20)"
  | .isDir => "Is a directory (os error 21)"
  | .invalid => "Invalid argument (os error 22)"
  | .tooLarge => "File too large (os error 27)"
  | .loop => "Too many levels of symbolic links (os error 40)"
  | .shortRead => "failed to fill whole buffer"
  | .noTree => "failed to create whole tree"
  | .badDescriptor => "Bad file descriptor (os error 9)"

/-- What stands at a path. -/
inductive Entry where
  | dir
  | file (inode : Nat)
  | link (target : String)
  | socket
deriving DecidableEq, Repr

/-- A volume: the entries by absolute path (as a list of names) and the contents of each inode.
The top directory is the empty path and always exists. -/
structure Volume where
  entries : List (List String × Entry) := []
  blobs : Array ByteArray := #[]

/-- Where a lookup ends: the place reached, links followed, and what is there, if anything. -/
structure Found where
  place : List String
  entry : Option Entry

/-- The text of an absolute place: its names after `/`. -/
def placeText (place : List String) : String := "/" ++ "/".intercalate place

/-- The parts of a path to look up. A trailing `/` adds a `.`, which makes the last name a
directory that must exist, links followed. -/
def lookupParts (p : String) : List String :=
  let named := (p.splitOn "/").filter (· != "")
  if p.endsWith "/" && !named.isEmpty then named ++ ["."] else named

/-- Cuts trailing slashes, keeping a lone `/`. -/
def trimSlashes (p : String) : String :=
  let cs := p.toList.reverse.dropWhile (· == '/')
  if cs.isEmpty && p.startsWith "/" then "/" else String.ofList cs.reverse

/-- The path of the directory that holds a path: its text up to the last `/` once trailing
slashes are cut; none for the top and for an empty path. -/
def parentText? (p : String) : Option String :=
  let t := trimSlashes p
  if t == "/" || t.isEmpty then none
  else
    let cs := t.toList.reverse.dropWhile (· != '/')
    match cs with
    | [] => some ""
    | _ :: rest => if rest.isEmpty then some "/" else some (String.ofList rest.reverse)

/-- Bytes of value zero. -/
def zeros (n : Nat) : ByteArray := ⟨Array.replicate n 0⟩

/-- `n` bytes of the filler pattern from place `start` on: byte `i` is `(start + i) % 251`, so
that no short period repeats through a file. -/
def pattern (n start : Nat) : ByteArray := ⟨((List.range n).map fun i => ((start + i) % 251).toUInt8).toArray⟩

/-- The largest offset a file position may take, 2^63 - 1. -/
def maxOffset : Nat := 9223372036854775807

namespace Volume

/-- The entry at an absolute place. -/
def entryAt (v : Volume) (place : List String) : Option Entry :=
  if place.isEmpty then some .dir else v.entries.lookup place

/-- Sets the entry at a place. -/
def put (v : Volume) (place : List String) (e : Entry) : Volume :=
  { v with entries := (v.entries.filter (·.1 != place)) ++ [(place, e)] }

/-- Removes the entry at a place. -/
def erase (v : Volume) (place : List String) : Volume :=
  { v with entries := v.entries.filter (·.1 != place) }

/-- The bytes of an inode. -/
def blob (v : Volume) (inode : Nat) : ByteArray := v.blobs.getD inode ByteArray.empty

/-- Replaces the bytes of an inode. -/
def setBlob (v : Volume) (inode : Nat) (b : ByteArray) : Volume :=
  { v with blobs := v.blobs.setIfInBounds inode b }

/-- A new inode holding the given bytes. -/
def newBlob (v : Volume) (b : ByteArray) : Volume × Nat :=
  ({ v with blobs := v.blobs.push b }, v.blobs.size)

/-- Walks the parts of a path from the directory `dir`. The last part's link is followed when
`follow` holds; every other link is followed always. The fuel bounds the steps, so a loop of
links ends in `loop`. -/
def locateFrom (v : Volume) (follow : Bool) : Nat → List String → List String → Except Errno Found
  | _, dir, [] => .ok ⟨dir, some .dir⟩
  | 0, _, _ :: _ => .error .loop
  | fuel + 1, dir, part :: rest =>
    if part == "." then v.locateFrom follow fuel dir rest
    else if part == ".." then v.locateFrom follow fuel dir.dropLast rest
    else
      let here := dir ++ [part]
      match v.entryAt here with
      | none => if rest.isEmpty then .ok ⟨here, none⟩ else .error .notFound
      | some (.link target) =>
        if rest.isEmpty && !follow then .ok ⟨here, some (.link target)⟩
        else if target.isEmpty then .error .notFound
        else
          let start := if target.startsWith "/" then [] else dir
          match v.locateFrom true fuel start (lookupParts target) with
          | .error e => .error e
          | .ok f =>
            if rest.isEmpty then .ok f
            else match f.entry with
              | some .dir => v.locateFrom follow fuel f.place rest
              | none => .error .notFound
              | some _ => .error .notDir
      | some .dir => v.locateFrom follow fuel here rest
      | some e => if rest.isEmpty then .ok ⟨here, some e⟩ else .error .notDir

/-- Looks a path up from the top. An empty path names nothing. -/
def locate (v : Volume) (follow : Bool) (p : String) : Except Errno Found :=
  if p.isEmpty then .error .notFound else v.locateFrom follow 1024 [] (lookupParts p)

/-- The place and entry a path names; a missing entry is `notFound`. -/
def stat (v : Volume) (follow : Bool) (p : String) : Except Errno (List String × Entry) := do
  let f ← v.locate follow p
  match f.entry with
  | some e => pure (f.place, e)
  | none => throw .notFound

/-- Whether a path names a directory, links followed. -/
def isDir (v : Volume) (p : String) : Bool :=
  match v.stat true p with
  | .ok (_, .dir) => true
  | _ => false

/-- The path with every link, `.` and `..` resolved. -/
def canonical (v : Volume) (p : String) : Except Errno String := do
  let (place, _) ← v.stat true p
  pure (placeText place)

/-- Opens a path for writing: an existing file is emptied, a missing one is made in its
directory. A link is followed, and a dangling one makes its target. -/
def createFile (v : Volume) (p : String) : Except Errno (Volume × Nat) := do
  if p.endsWith "/" then throw .isDir
  let f ← v.locate true p
  match f.entry with
  | some (.file n) => pure (v.setBlob n ByteArray.empty, n)
  | some .dir => throw .isDir
  | some .socket => throw .noDevice
  | some (.link _) => throw .loop
  | none =>
    let (v', n) := v.newBlob ByteArray.empty
    pure (v'.put f.place (.file n), n)

/-- Opens a path for reading, links followed; only a file can be read. -/
def openFile (v : Volume) (p : String) : Except Errno Nat := do
  let (_, e) ← v.stat true p
  match e with
  | .file n => pure n
  | .dir => throw .isDir
  | .socket => throw .noDevice
  | .link _ => throw .loop

/-- The whole contents of a file. -/
def fileBytes (v : Volume) (p : String) : Except Errno ByteArray := do
  let n ← v.openFile p
  pure (v.blob n)

/-- Writes bytes into an inode at an offset, filling a gap before it with zeros. A position past
the largest offset is refused before anything is written. -/
def writeAt (v : Volume) (inode offset : Nat) (data : ByteArray) : Except Errno Volume :=
  if offset > maxOffset then .error .invalid
  else if offset + data.size > maxOffset then .error .tooLarge
  else
    let old := v.blob inode
    let padded := if old.size < offset then old ++ zeros (offset - old.size) else old
    let stop := offset + data.size
    .ok (v.setBlob inode (padded.extract 0 offset ++ data ++ padded.extract stop padded.size))

/-- Reads exactly `length` bytes of an inode from an offset. -/
def readAt (v : Volume) (inode offset length : Nat) : Except Errno ByteArray :=
  if offset > maxOffset then .error .invalid
  else
    let b := v.blob inode
    if offset + length ≤ b.size then .ok (b.extract offset (offset + length))
    else .error .shortRead

/-- Makes a file holding exactly the given bytes. -/
def writeFile (v : Volume) (p : String) (data : ByteArray) : Except Errno Volume := do
  let (v', n) ← v.createFile p
  pure (v'.setBlob n data)

/-- Makes one directory; its parent must exist and its name must be free. -/
def makeDir (v : Volume) (p : String) : Except Errno Volume := do
  let f ← v.locate false (trimSlashes p)
  match f.entry with
  | some _ => throw .alreadyExists
  | none => pure (v.put f.place .dir)

/-- Makes a directory and the missing ones above it. A name already taken by a directory is
fine; taken by anything else, the first refusal is the answer. -/
def makeDirsFrom (v : Volume) : Nat → String → Except Errno Volume
  | 0, _ => .error .noTree
  | fuel + 1, p =>
    if p.isEmpty then .ok v
    else match v.makeDir p with
      | .ok v' => .ok v'
      | .error .notFound =>
        match parentText? p with
        | none => .error .noTree
        | some q => do
          let v' ← v.makeDirsFrom fuel q
          match v'.makeDir p with
          | .ok v'' => pure v''
          | .error e => if v'.isDir p then pure v' else throw e
      | .error e => if v.isDir p then .ok v else .error e

/-- Makes a directory and the missing ones above it. -/
def makeDirs (v : Volume) (p : String) : Except Errno Volume :=
  v.makeDirsFrom (p.length + 1) p

/-- Removes a name that is not a directory; the bytes stay with any open file. -/
def removeFile (v : Volume) (p : String) : Except Errno Volume := do
  let f ← v.locate false p
  match f.entry with
  | none => throw .notFound
  | some .dir => throw .isDir
  | some _ => pure (v.erase f.place)

/-- Moves an entry to a new name, replacing a file there; a directory there refuses. -/
def rename (v : Volume) (src dst : String) : Except Errno Volume := do
  let s ← v.locate false src
  let e ← match s.entry with
    | some e => pure e
    | none => throw .notFound
  let d ← v.locate false dst
  if s.place == d.place then pure v
  else match d.entry with
    | some .dir => throw .isDir
    | _ => pure ((v.erase s.place).put d.place e)

/-- The entries directly in a directory, in order of name. -/
def children (v : Volume) (dir : List String) : List (String × Entry) :=
  let direct := v.entries.filterMap fun (place, e) =>
    if place.length == dir.length + 1 && place.take dir.length == dir then
      place.getLast?.map (·, e)
    else none
  direct.mergeSort fun a b => decide (a.1 ≤ b.1)

/-- The entries below a directory, depth first in order of name, each with its names below the
directory; a directory comes just before what it holds. Links are not followed. -/
def walkFrom (v : Volume) : Nat → List String → List String → List (List String × Entry)
  | 0, _, _ => []
  | fuel + 1, dir, below =>
    (v.children dir).flatMap fun (name, e) =>
      (below ++ [name], e) ::
        (if e == .dir then v.walkFrom fuel (dir ++ [name]) (below ++ [name]) else [])

/-- The entries below a directory, depth first in order of name. -/
def walk (v : Volume) (dir : List String) : List (List String × Entry) :=
  v.walkFrom (v.entries.length + 1) dir []

/-- The regular files below a path, with their names below it joined by `/` and their bytes. -/
def files (v : Volume) (p : String) : List (String × ByteArray) :=
  match v.stat true p with
  | .ok (place, .dir) =>
    (v.walk place).filterMap fun (below, e) =>
      match e with
      | .file n => some ("/".intercalate below, v.blob n)
      | _ => none
  | _ => []

/-- Puts an entry at a place, making the directories above it that are missing. -/
def plant (v : Volume) (place : List String) (e : Entry) : Volume :=
  let above := (List.range place.length).map (place.take ·)
  let v' := above.foldl (fun acc q => if (acc.entryAt q).isSome then acc else acc.put q .dir) v
  v'.put place e

/-- Puts a file with the given bytes at a place, making missing directories above it. -/
def plantFile (v : Volume) (place : List String) (data : ByteArray) : Volume :=
  let (v', n) := v.newBlob data
  v'.plant place (.file n)

end Volume

end Courier.Files
