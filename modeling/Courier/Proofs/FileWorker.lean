-- The engine reads and writes the volume at the offsets a pull or a chunk asks for; a worker can
-- instead read and write each transfer's own open file where it stands. While every open file keeps
-- the file laws the two workers are one.
import Courier.Proofs.CursorSync
import Courier.Proofs.EngineSteps

namespace Courier.Files.Volume

variable {v v' : Volume}

/-- No file of the volume is longer than the largest offset, as on Linux. -/
def Small (v : Volume) : Prop := ∀ n, (v.blob n).size ≤ maxOffset

theorem Small.setBlob (hs : v.Small) (n : Nat) {b : ByteArray} (hb : b.size ≤ maxOffset) :
    (v.setBlob n b).Small := by
  intro m
  by_cases hn : n < v.blobs.size
  · rw [blob_setBlob v m b hn]
    split
    · exact hb
    · exact hs m
  · have : v.setBlob n b = v := by
      simp [Volume.setBlob, Array.setIfInBounds, hn]
    rw [this]
    exact hs m

theorem Small.createFile (hs : v.Small) {p : String} {n : Nat} (h : v.createFile p = .ok (v', n)) :
    v'.Small := by
  unfold Volume.createFile at h
  simp only [bind, Except.bind] at h
  split at h
  · cases h
  · rcases hl : v.locate true p with e | f <;> rw [hl] at h
    · cases h
    · dsimp only at h
      split at h
      · cases h
        exact hs.setBlob _ (by simp)
      · cases h
      · cases h
      · cases h
      · cases h
        intro m
        rw [blob_put, blob_newBlob]
        split
        · simp
        · exact hs m

theorem Small.writeAt (hs : v.Small) {i o : Nat} {d : ByteArray} (h : v.writeAt i o d = .ok v') :
    v'.Small := by
  obtain ⟨hend, padded, hp, rfl⟩ := writeAt_ok h
  refine hs.setBlob i ?_
  rw [size_laid padded d (by omega)]
  have := hs i
  omega

end Courier.Files.Volume

namespace Courier

/-- How a transfer opens its file: for reading when it sends, for writing when it receives. -/
def Direction.mode : Direction → Files.Mode
  | .outbound => .reading
  | .inbound => .writing

end Courier

namespace Courier.Transfer

open Files

/-- A file under the laws stays under them when the volume changes about it by making and writing
files. -/
theorem FileState.Sound.mono {c : FileState} {v v' : Volume} (hs : c.Sound v) (hsmall : v'.Small)
    (hsize : v.blobs.size ≤ v'.blobs.size) : c.Sound v' :=
  ⟨hs.synced, hs.pos_le, hsmall _, Nat.lt_of_lt_of_le hs.inode_lt hsize⟩

namespace Engine

/-! ## The worker on open files -/

/-- A pull taken on the transfer's open file: the file is moved and read, and the bytes it reads
are sent. -/
def pullByFile (e : Engine) (d : Desk) (id : TransferId) (req : ChunkRequest) : Turn :=
  match e.find? id with
  | none => (e.hold d.clock id (.pull id req)).keep d
  | some t =>
    if t.direction != .outbound || t.activity != .active then e.keep d
    else if req.length == 0 then (e.erase id).keep d
    else
      let t' := { t with file := (t.file.readChunk d.volume req).1 }
      match (t.file.readChunk d.volume req).2 with
      | .ok data => (e.insert id t').calling d (.chunk id req.offset data)
      | .error _ => (e.insert id t').keep d

/-- A chunk taken on the transfer's open file: the file is moved and written. -/
def chunkByFile (e : Engine) (d : Desk) (id : TransferId) (offset : Nat) (data : ByteArray) : Turn :=
  match e.find? id with
  | none => e.keep d
  | some t =>
    if t.direction != .inbound || t.activity != .active then e.keep d
    else if data.size == 0 then (e.erase id).keep d
    else
      (e.insert id { t with file := (t.file.writeChunk d.volume offset data).1.2 }).keep
        { d with volume := (t.file.writeChunk d.volume offset data).1.1 }

/-- A file event taken on the transfer's open file. -/
def handleByFile (e : Engine) (d : Desk) : FileEvent → Turn
  | .pull id req => e.pullByFile d id req
  | .chunk id offset data => e.chunkByFile d id offset data
  | ev => e.handle d ev

def replayByFile (d : Desk) : List FileEvent → Engine → Turn
  | [], e => e.keep d
  | ev :: rest, e =>
    let t := e.handleByFile d ev
    if t.whole then replayByFile t.desk rest t.engine else t

def registerByFile (e : Engine) (d : Desk) (id : TransferId) (path : String) (size : Nat) : Turn :=
  if (e.find? id).isSome then e.keep d
  else
    match d.volume.openFile path with
    | .ok ino => replayByFile d (e.takeHeld id).2 ((e.takeHeld id).1.insert id (.outbound ino size path))
    | .error _ => (e.takeHeld id).1.keep d

def workByFile (e : Engine) (d : Desk) : Work → Turn
  | .create id path size => e.registerByFile d id path size
  | .event ev => e.handleByFile d ev

/-- The worker's loop over its jobs, each taken on the open files. -/
def runByFile : Engine → Desk → List (Nat × Work) → Engine × Desk
  | e, d, [] => (e, d)
  | e, d, (now, w) :: rest =>
    let t := e.workByFile { d with clock := now } w
    runByFile t.engine t.desk rest

/-! ## The laws the worker keeps -/

/-- The volume names only inodes that hold bytes and has no file longer than the largest offset,
and every open transfer's file keeps the file laws, opened as its direction asks. -/
structure Sync (e : Engine) (v : Volume) : Prop where
  sound : v.Sound
  small : v.Small
  files : ∀ id t, e.find? id = some t → t.file.Sound v ∧ t.file.handle.mode = t.direction.mode

namespace Sync

variable {e : Engine} {v : Volume}

theorem insert (hs : e.Sync v) (id : TransferId) {t : Ongoing} (ht : t.file.Sound v)
    (hm : t.file.handle.mode = t.direction.mode) : (e.insert id t).Sync v := by
  refine ⟨hs.sound, hs.small, fun id' t' h => ?_⟩
  by_cases hid : id = id'
  · subst hid
    simp only [find?_insert_self, Option.some.injEq] at h
    subst h
    exact ⟨ht, hm⟩
  · exact hs.files id' t' (by simpa [hid] using h)

theorem erase (hs : e.Sync v) (id : TransferId) : (e.erase id).Sync v := by
  refine ⟨hs.sound, hs.small, fun id' t' h => ?_⟩
  by_cases hid : id = id'
  · subst hid
    simp at h
  · exact hs.files id' t' (by simpa [hid] using h)

theorem hold (hs : e.Sync v) (now : Nat) (id : TransferId) (ev : FileEvent) : (e.hold now id ev).Sync v :=
  ⟨hs.sound, hs.small, fun id' t' h => hs.files id' t' (by simpa using h)⟩

theorem takeHeld (hs : e.Sync v) (id : TransferId) : (e.takeHeld id).1.Sync v :=
  ⟨hs.sound, hs.small, fun id' t' h => hs.files id' t' (by simpa using h)⟩

/-- Making and writing files keeps the laws of the files already open. -/
theorem volume (hs : e.Sync v) {v' : Volume} (hv : v'.Sound) (hsmall : v'.Small)
    (hsize : v.blobs.size ≤ v'.blobs.size) : e.Sync v' :=
  ⟨hv, hsmall, fun id t h => ⟨((hs.files id t h).1).mono hsmall hsize, (hs.files id t h).2⟩⟩

/-- An engine with no transfer open keeps the laws on a volume that does. -/
theorem fresh (h : e.transfers = []) (hv : v.Sound) (hsmall : v.Small) : e.Sync v :=
  ⟨hv, hsmall, fun id t ht => by simp [find?, h] at ht⟩

/-- A file opened for sending starts under the laws: it is named, so its inode holds bytes. -/
theorem opened (hs : e.Sync v) {path : String} {ino : Nat} (hopen : v.openFile path = .ok ino)
    (size : Nat) : (Ongoing.outbound ino size path).file.Sound v := by
  have h : FileState.outbound v path size = .ok (Ongoing.outbound ino size path).file := by
    simp [FileState.outbound, hopen, bind, Except.bind, pure, Except.pure]; rfl
  exact (FileState.outbound_sound hs.sound h (hs.small ino)).1

end Sync

variable {e : Engine} {d : Desk}

/-! ## Every job keeps the laws -/

theorem offered_sync (hs : e.Sync d.volume) (id : TransferId) (name : String) (size : Nat) :
    (e.offered d id name size).engine.Sync (e.offered d id name size).desk.volume := by
  unfold offered
  cases hn : sanitizeName name with
  | none => simpa using hs
  | some n =>
    dsimp only
    split
    · exact hs
    · rcases hc : d.volume.createFile (join e.receiveDir n) with err | ⟨vol, ino⟩
      · simpa using hs
      · -- the new file is made empty and opened for writing at its start
        have hopen : FileState.inbound d.volume (join e.receiveDir n) size =
            .ok (vol, (Ongoing.inbound ino size (join e.receiveDir n)).file) := by
          simp [FileState.inbound, hc, bind, Except.bind, pure, Except.pure]; rfl
        obtain ⟨hv, -, -, hsize, -⟩ := Volume.createFile_blob hs.sound hc
        simp only [calling_engine, calling_desk, Desk.call_volume]
        exact (hs.volume hv (hs.small.createFile hc) hsize).insert id
          (FileState.inbound_sound hs.sound hopen).1 rfl

theorem control_sync (hs : e.Sync d.volume) (id : TransferId) (c : FileControl) :
    (e.control d id c).engine.Sync (e.control d id c).desk.volume := by
  unfold control
  rcases ht : e.find? id with _ | t
  · exact hs.hold _ _ _
  · cases c
    · exact hs.insert id (hs.files id t ht).1 (hs.files id t ht).2
    · exact hs.insert id (hs.files id t ht).1 (hs.files id t ht).2
    · exact hs.erase id

theorem pull_sync (hs : e.Sync d.volume) (id : TransferId) (r : ChunkRequest) :
    (e.pull d id r).engine.Sync (e.pull d id r).desk.volume := by
  unfold pull
  rcases ht : e.find? id with _ | t
  · exact hs.hold _ _ _
  · dsimp only
    split
    · exact hs
    · split
      · exact hs.erase id
      · -- the read keeps the file under the laws, opened as it was
        have hfile := hs.files id t ht
        have hread : ({ t with file := (t.file.readChunk d.volume r).1 } : Ongoing).file.Sound d.volume :=
          (FileState.readChunk_spec hfile.1 r).2.1
        have hmode : ({ t with file := (t.file.readChunk d.volume r).1 } : Ongoing).file.handle.mode =
            t.direction.mode := by simpa using hfile.2
        split
        · simpa using hs.insert id hread hmode
        · exact hs.insert id hread hmode

theorem chunk_sync (hs : e.Sync d.volume) (id : TransferId) (o : Nat) (data : ByteArray) :
    (e.chunk d id o data).engine.Sync (e.chunk d id o data).desk.volume := by
  unfold chunk
  rcases ht : e.find? id with _ | t
  · exact hs
  · dsimp only
    split
    · exact hs
    · rename_i hmoves
      split
      · exact hs.erase id
      · rename_i hz
        have hin : t.direction = .inbound := by simp_all
        have hd : data.size ≠ 0 := by simpa using hz
        have hfile := hs.files id t ht
        have hm : t.file.handle.mode = .writing := by rw [hfile.2, hin]; rfl
        -- the file's own write makes the volume the engine's write makes
        obtain ⟨-, hvol⟩ := FileState.writeChunk_eq_writeAt hfile.1 hm o data hd
        have hwrite := (FileState.writeChunk_spec hfile.1 o data).2.1
        have hmode : ({ t with file := (t.file.writeChunk d.volume o data).1.2 } : Ongoing).file.handle.mode =
            t.direction.mode := by simpa using hfile.2
        split
        · rename_i vol hw
          rw [hvol, show t.file.handle.inode = t.inode from rfl, hw] at hwrite
          obtain ⟨-, hsize, -⟩ := Volume.writeAt_blob hw
          exact (hs.volume (hs.sound.of_writeAt hw) (hs.small.writeAt hw) (by omega)).insert id hwrite hmode
        · rename_i err hw
          rw [hvol, show t.file.handle.inode = t.inode from rfl, hw] at hwrite
          exact hs.insert id hwrite hmode

theorem handle_sync (hs : e.Sync d.volume) (ev : FileEvent) :
    (e.handle d ev).engine.Sync (e.handle d ev).desk.volume := by
  cases ev with
  | offered id name size => exact offered_sync hs id name size
  | control id c => exact control_sync hs id c
  | pull id r => exact pull_sync hs id r
  | chunk id o data => exact chunk_sync hs id o data
  | failed id err => exact hs.erase id

theorem replay_sync (evs : List FileEvent) (hs : e.Sync d.volume) :
    (replay d evs e).engine.Sync (replay d evs e).desk.volume := by
  induction evs generalizing e d with
  | nil => exact hs
  | cons ev rest ih =>
    simp only [replay]
    split
    · exact ih (handle_sync hs ev)
    · exact handle_sync hs ev

theorem register_sync (hs : e.Sync d.volume) (id : TransferId) (path : String) (size : Nat) :
    (e.register d id path size).engine.Sync (e.register d id path size).desk.volume := by
  unfold register
  split
  · exact hs
  · dsimp only
    split
    · rename_i ino hopen
      exact replay_sync _ ((hs.takeHeld id).insert id (hs.opened hopen size) rfl)
    · exact hs.takeHeld id

theorem work_sync (hs : e.Sync d.volume) (w : Work) : (e.work d w).engine.Sync (e.work d w).desk.volume := by
  cases w with
  | create id path size => exact register_sync hs id path size
  | event ev => exact handle_sync hs ev

/-- Every run keeps the laws. -/
theorem run_sync (xs : List (Nat × Work)) (hs : e.Sync d.volume) : (run e d xs).1.Sync (run e d xs).2.volume := by
  induction xs generalizing e d with
  | nil => exact hs
  | cons x rest ih =>
    obtain ⟨now, w⟩ := x
    rw [run_cons]
    exact ih (work_sync (d := { d with clock := now }) hs w)

/-! ## The two workers are one -/

theorem pull_eq_pullByFile (hs : e.Sync d.volume) (id : TransferId) (r : ChunkRequest) :
    e.pull d id r = e.pullByFile d id r := by
  unfold pull pullByFile
  rcases ht : e.find? id with _ | t
  · rfl
  · dsimp only
    split
    · rfl
    · split
      · rfl
      · rename_i hmoves hl
        -- an active sending transfer's file is open for reading, under the laws
        have hout : t.direction = .outbound := by simp_all
        have hm : t.file.handle.mode = .reading := by rw [(hs.files id t ht).2, hout]; rfl
        rw [FileState.readChunk_eq_readAt (hs.files id t ht).1 hm r (by simpa using hl)]
        rfl

theorem chunk_eq_chunkByFile (hs : e.Sync d.volume) (id : TransferId) (o : Nat) (data : ByteArray) :
    e.chunk d id o data = e.chunkByFile d id o data := by
  unfold chunk chunkByFile
  rcases ht : e.find? id with _ | t
  · rfl
  · dsimp only
    split
    · rfl
    · split
      · rfl
      · rename_i hmoves hz
        -- an active receiving transfer's file is open for writing, under the laws
        have hin : t.direction = .inbound := by simp_all
        have hm : t.file.handle.mode = .writing := by rw [(hs.files id t ht).2, hin]; rfl
        obtain ⟨-, hvol⟩ := FileState.writeChunk_eq_writeAt (hs.files id t ht).1 hm o data (by simpa using hz)
        rw [hvol]
        cases hw : d.volume.writeAt t.file.handle.inode o data <;> simp [Ongoing.inode, hw, Except.toOption]

theorem handle_eq_handleByFile (hs : e.Sync d.volume) (ev : FileEvent) : e.handle d ev = e.handleByFile d ev := by
  cases ev with
  | pull id r => exact pull_eq_pullByFile hs id r
  | chunk id o data => exact chunk_eq_chunkByFile hs id o data
  | _ => rfl

theorem replay_eq_replayByFile (evs : List FileEvent) (hs : e.Sync d.volume) :
    replay d evs e = replayByFile d evs e := by
  induction evs generalizing e d with
  | nil => rfl
  | cons ev rest ih =>
    simp only [replay, replayByFile, ← handle_eq_handleByFile hs ev]
    split
    · exact ih (handle_sync hs ev)
    · rfl

theorem register_eq_registerByFile (hs : e.Sync d.volume) (id : TransferId) (path : String) (size : Nat) :
    e.register d id path size = e.registerByFile d id path size := by
  unfold register registerByFile
  split
  · rfl
  · dsimp only
    rcases hopen : d.volume.openFile path with err | ino
    · rfl
    · exact replay_eq_replayByFile _ ((hs.takeHeld id).insert id (hs.opened hopen size) rfl)

theorem work_eq_workByFile (hs : e.Sync d.volume) (w : Work) : e.work d w = e.workByFile d w := by
  cases w with
  | create id path size => exact register_eq_registerByFile hs id path size
  | event ev => exact handle_eq_handleByFile hs ev

/-- The worker that reads and writes the volume at the offsets asked for runs, from every state
under the file laws, as the worker that reads and writes each transfer's own file where it
stands: the same transfers, files, calls and volume after every job. -/
theorem run_eq_runByFile (xs : List (Nat × Work)) (hs : e.Sync d.volume) : run e d xs = runByFile e d xs := by
  induction xs generalizing e d with
  | nil => rfl
  | cons x rest ih =>
    obtain ⟨now, w⟩ := x
    rw [run_cons, runByFile, ← work_eq_workByFile (d := { d with clock := now }) hs w]
    exact ih (work_sync (d := { d with clock := now }) hs w)

/-- So from an engine with no transfer open, on a volume whose named files hold bytes within the
largest offset, the two workers run alike. -/
theorem fresh_run_eq_runByFile (h : e.transfers = []) (hv : d.volume.Sound) (hsmall : d.volume.Small)
    (xs : List (Nat × Work)) : run e d xs = runByFile e d xs :=
  run_eq_runByFile xs (Sync.fresh h hv hsmall)

end Engine

end Courier.Transfer
