-- What making and writing files do to a volume's bytes and to its frame of directories and links.
import Courier.Files.Volume

namespace Courier.Files

namespace Volume

/-- Every file the volume names has an inode that holds bytes. -/
def Sound (v : Volume) : Prop := ∀ place n, (place, Entry.file n) ∈ v.entries → n < v.blobs.size

/-! ## Inodes -/

@[simp] theorem blobs_size_setBlob (v : Volume) (n : Nat) (b : ByteArray) :
    (v.setBlob n b).blobs.size = v.blobs.size := by
  simp [setBlob]

@[simp] theorem entries_setBlob (v : Volume) (n : Nat) (b : ByteArray) :
    (v.setBlob n b).entries = v.entries := rfl

theorem blob_setBlob (v : Volume) {n : Nat} (m : Nat) (b : ByteArray) (h : n < v.blobs.size) :
    (v.setBlob n b).blob m = if m = n then b else v.blob m := by
  simp only [blob, setBlob, Array.getD_eq_getD_getElem?, Array.getElem?_setIfInBounds]
  by_cases hm : m = n
  · subst hm; simp [h]
  · simp [hm, Ne.symm hm]

theorem blob_setBlob_ne (v : Volume) {n m : Nat} (b : ByteArray) (h : m ≠ n) :
    (v.setBlob n b).blob m = v.blob m := by
  simp only [blob, setBlob, Array.getD_eq_getD_getElem?, Array.getElem?_setIfInBounds]
  simp [Ne.symm h]

@[simp] theorem newBlob_snd (v : Volume) (b : ByteArray) : (v.newBlob b).2 = v.blobs.size := rfl

@[simp] theorem blobs_size_newBlob (v : Volume) (b : ByteArray) :
    (v.newBlob b).1.blobs.size = v.blobs.size + 1 := by
  simp [newBlob]

@[simp] theorem entries_newBlob (v : Volume) (b : ByteArray) : (v.newBlob b).1.entries = v.entries := rfl

theorem blob_newBlob (v : Volume) (b : ByteArray) (m : Nat) :
    (v.newBlob b).1.blob m = if m = v.blobs.size then b else v.blob m := by
  simp only [blob, newBlob, Array.getD_eq_getD_getElem?, Array.getElem?_push]
  split <;> simp

@[simp] theorem blob_put (v : Volume) (place : List String) (e : Entry) (m : Nat) :
    (v.put place e).blob m = v.blob m := rfl

@[simp] theorem blobs_put (v : Volume) (place : List String) (e : Entry) :
    (v.put place e).blobs = v.blobs := rfl

/-! ## Soundness -/

theorem entryAt_file_mem {v : Volume} {place : List String} {n : Nat}
    (h : v.entryAt place = some (.file n)) : (place, Entry.file n) ∈ v.entries := by
  unfold entryAt at h
  split at h
  · cases h
  · obtain ⟨l₁, l₂, hl, -⟩ := List.lookup_eq_some_iff.1 h
    simp [hl]

theorem locateFrom_file_mem {v : Volume} {follow : Bool} {fuel : Nat} {dir parts : List String}
    {f : Found} {n : Nat} (h : v.locateFrom follow fuel dir parts = .ok f)
    (hf : f.entry = some (.file n)) : ∃ place, (place, Entry.file n) ∈ v.entries := by
  induction fuel generalizing follow dir parts f with
  | zero =>
    cases parts with
    | nil => simp [locateFrom] at h; subst h; simp at hf
    | cons _ _ => simp [locateFrom] at h
  | succ fuel ih =>
    cases parts with
    | nil => simp [locateFrom] at h; subst h; simp at hf
    | cons part rest =>
      simp only [locateFrom] at h
      split at h
      · exact ih h hf
      split at h
      · exact ih h hf
      -- the part names an entry of the directory reached so far
      split at h
      · split at h
        · cases h; simp at hf
        · cases h
      · split at h
        · cases h; simp at hf
        split at h
        · cases h
        split at h
        · cases h
        · rename_i f' hf'
          split at h
          · cases h; exact ih hf' hf
          · split at h
            · exact ih h hf
            · cases h
            · cases h
      · exact ih h hf
      · rename_i e _ _ he
        split at h
        · cases h
          simp only [Option.some.injEq] at hf
          subst hf
          exact ⟨_, entryAt_file_mem he⟩
        · cases h

theorem locate_file_mem {v : Volume} {follow : Bool} {p : String} {f : Found} {n : Nat}
    (h : v.locate follow p = .ok f) (hf : f.entry = some (.file n)) :
    ∃ place, (place, Entry.file n) ∈ v.entries := by
  unfold locate at h
  split at h
  · cases h
  · exact locateFrom_file_mem h hf

theorem Sound.setBlob {v : Volume} (hs : v.Sound) (n : Nat) (b : ByteArray) : (v.setBlob n b).Sound := by
  intro place m hm
  simpa using hs place m hm

/-- Making a file: soundness is kept, the file is empty, and no other inode that held bytes
changes. -/
theorem createFile_blob {v v' : Volume} {p : String} {n : Nat} (hs : v.Sound)
    (h : v.createFile p = .ok (v', n)) :
    v'.Sound ∧ n < v'.blobs.size ∧ v'.blob n = ByteArray.empty ∧ v.blobs.size ≤ v'.blobs.size ∧
      ∀ m, m ≠ n → v'.blob m = v.blob m := by
  unfold createFile at h
  by_cases hp : p.endsWith "/" = true
  · simp [hp] at h
    cases h
  cases hf : v.locate true p with
  | error e => simp [hp, hf] at h; cases h
  | ok f =>
    simp only [hp, hf, Bool.false_eq_true, ↓reduceIte, bind, Except.bind] at h
    cases he : f.entry with
    | none =>
      -- a new inode, named at the place the lookup ended
      simp only [he, pure, Except.pure, Except.ok.injEq, Prod.mk.injEq] at h
      obtain ⟨rfl, rfl⟩ := h
      refine ⟨?_, by simp, by simp [blob_newBlob], by simp, fun m hm => by simp only [newBlob_snd] at hm; simp [blob_newBlob, hm]⟩
      intro place m hm
      simp only [put, List.mem_append, List.mem_filter, List.mem_singleton, Prod.mk.injEq] at hm
      simp only [blobs_put, blobs_size_newBlob]
      rcases hm with ⟨hm, -⟩ | ⟨-, hm⟩
      · have := hs place m hm; omega
      · cases hm; simp
    | some e =>
      cases e with
      | file k =>
        -- an existing file, emptied in place
        simp only [he, pure, Except.pure, Except.ok.injEq, Prod.mk.injEq] at h
        obtain ⟨rfl, rfl⟩ := h
        obtain ⟨place, hmem⟩ := locate_file_mem hf he
        have hlt := hs place k hmem
        refine ⟨hs.setBlob k _, by simpa using hlt, ?_, by simp, fun m hm => blob_setBlob_ne v _ hm⟩
        simp [blob_setBlob v k _ hlt]
      | _ => simp [he, throw, throwThe, MonadExceptOf.throw] at h

/-- A write touches only its own inode, and keeps the names and the count of inodes. -/
theorem writeAt_blob {v v' : Volume} {i o : Nat} {d : ByteArray} (h : v.writeAt i o d = .ok v') :
    v'.entries = v.entries ∧ v'.blobs.size = v.blobs.size ∧ ∀ m, m ≠ i → v'.blob m = v.blob m := by
  unfold writeAt at h
  split at h
  · cases h
  split at h
  · cases h
  cases h
  exact ⟨rfl, by simp, fun m hm => blob_setBlob_ne v _ hm⟩

theorem Sound.of_writeAt {v v' : Volume} {i o : Nat} {d : ByteArray} (hs : v.Sound)
    (h : v.writeAt i o d = .ok v') : v'.Sound := by
  obtain ⟨he, hsize, -⟩ := writeAt_blob h
  intro place m hm
  rw [he] at hm
  rw [hsize]
  exact hs place m hm

/-! ## Which places can hold a new file -/

end Volume

/-- What stands at a place, with a file taken as room for one: a file and a free place alike
leave room to make a file there. -/
def Entry.room : Option Entry → Option Entry
  | some (.file _) => none
  | e => e

/-- Where a lookup ends, with a file taken as room for one. -/
def Found.room (f : Found) : List String × Option Entry := (f.place, Entry.room f.entry)

namespace Volume

/-- The directories, links and sockets of a volume, place by place: what decides which paths a
file can be made at. -/
def frame (v : Volume) (place : List String) : Option Entry := Entry.room (v.entryAt place)

theorem room_eq_iff {a b : Option Entry} :
    Entry.room a = Entry.room b ↔ a = b ∨ Entry.room a = none ∧ Entry.room b = none ∧
      (∀ e, a = some e → ∃ n, e = .file n) ∧ (∀ e, b = some e → ∃ n, e = .file n) := by
  rcases a with _ | ⟨_ | n | t | _⟩ <;> rcases b with _ | ⟨_ | m | s | _⟩ <;> simp [Entry.room]

/-- Lookups on two volumes with one frame end at the same place, with room alike, or fail on
both. -/
theorem locateFrom_frame {v₁ v₂ : Volume} (h : v₁.frame = v₂.frame) (follow : Bool) (fuel : Nat)
    (dir parts : List String) :
    (v₁.locateFrom follow fuel dir parts).toOption.map Found.room =
      (v₂.locateFrom follow fuel dir parts).toOption.map Found.room := by
  induction fuel generalizing follow dir parts with
  | zero => cases parts <;> rfl
  | succ fuel ih =>
    cases parts with
    | nil => rfl
    | cons part rest =>
      simp only [locateFrom]
      split
      · exact ih ..
      split
      · exact ih ..
      have hh : Entry.room (v₁.entryAt (dir ++ [part])) = Entry.room (v₂.entryAt (dir ++ [part])) :=
        congrFun h _
      rcases room_eq_iff.1 hh with heq | ⟨-, -, h₁, h₂⟩
      · rw [← heq]
        rcases v₁.entryAt (dir ++ [part]) with _ | ⟨_ | n | t | _⟩
        · rfl
        · exact ih ..
        · rfl
        · dsimp only
          split
          · rfl
          split
          · rfl
          have ih₁ := ih true (if t.startsWith "/" then [] else dir) (lookupParts t)
          rcases r₁ : v₁.locateFrom true fuel (if t.startsWith "/" then [] else dir) (lookupParts t)
            with e₁ | f₁ <;>
          rcases r₂ : v₂.locateFrom true fuel (if t.startsWith "/" then [] else dir) (lookupParts t)
            with e₂ | f₂ <;>
          simp only [r₁, r₂, Except.toOption, Option.map, reduceCtorEq] at ih₁ ⊢
          -- the link's target is found on both, at one place and with room alike
          simp only [Option.some.injEq, Found.room, Prod.mk.injEq] at ih₁
          obtain ⟨hp, he⟩ := ih₁
          by_cases hr : rest.isEmpty = true
          · simp [hr, Found.room, hp, he]
          · simp only [hr, Bool.false_eq_true, if_false]
            rcases room_eq_iff.1 he with he' | ⟨-, -, g₁, g₂⟩
            · rw [← he', ← hp]
              rcases f₁.entry with _ | ⟨_ | n | t | _⟩
              · rfl
              · exact ih ..
              · rfl
              · rfl
              · rfl
            · rcases hf₁ : f₁.entry with _ | e₁ <;> rcases hf₂ : f₂.entry with _ | e₂
              · rfl
              · obtain ⟨n, rfl⟩ := g₂ _ hf₂; rfl
              · obtain ⟨n, rfl⟩ := g₁ _ hf₁; rfl
              · obtain ⟨n, rfl⟩ := g₁ _ hf₁; obtain ⟨m, rfl⟩ := g₂ _ hf₂; rfl
        · rfl
      · -- a file on one side and a free place or another file on the other: the lookup ends at
        -- the part, or fails there, on both
        rcases ha : v₁.entryAt (dir ++ [part]) with _ | a <;> rcases hb : v₂.entryAt (dir ++ [part]) with _ | b
        · rfl
        · obtain ⟨m, rfl⟩ := h₂ _ hb
          by_cases hr : rest.isEmpty = true <;> simp [hr, Except.toOption, Found.room, Entry.room]
        · obtain ⟨n, rfl⟩ := h₁ _ ha
          by_cases hr : rest.isEmpty = true <;> simp [hr, Except.toOption, Found.room, Entry.room]
        · obtain ⟨n, rfl⟩ := h₁ _ ha
          obtain ⟨m, rfl⟩ := h₂ _ hb
          by_cases hr : rest.isEmpty = true <;> simp [hr, Except.toOption, Found.room, Entry.room]

theorem locate_frame {v₁ v₂ : Volume} (h : v₁.frame = v₂.frame) (follow : Bool) (p : String) :
    (v₁.locate follow p).toOption.map Found.room = (v₂.locate follow p).toOption.map Found.room := by
  unfold locate
  split
  · rfl
  · exact locateFrom_frame h follow 1024 [] _

/-- On two volumes with one frame, a file can be made at the same paths. -/
theorem createFile_isOk_frame {v₁ v₂ : Volume} (h : v₁.frame = v₂.frame) (p : String) :
    (v₁.createFile p).isOk = (v₂.createFile p).isOk := by
  have hl := locate_frame h true p
  unfold createFile
  simp only [bind, Except.bind]
  split
  · rfl
  · rcases r₁ : v₁.locate true p with e₁ | f₁ <;> rcases r₂ : v₂.locate true p with e₂ | f₂ <;>
      simp only [r₁, r₂, Except.toOption, Option.map, reduceCtorEq] at hl ⊢
    · rfl
    · simp only [Option.some.injEq, Found.room, Prod.mk.injEq] at hl
      obtain ⟨hp, he⟩ := hl
      rcases room_eq_iff.1 he with he' | ⟨-, -, g₁, g₂⟩
      · rw [← he']
        rcases f₁.entry with _ | ⟨_ | n | t | _⟩ <;> rfl
      · rcases hf₁ : f₁.entry with _ | e₁ <;> rcases hf₂ : f₂.entry with _ | e₂
        · rfl
        · obtain ⟨m, rfl⟩ := g₂ _ hf₂; rfl
        · obtain ⟨n, rfl⟩ := g₁ _ hf₁; rfl
        · obtain ⟨n, rfl⟩ := g₁ _ hf₁; obtain ⟨m, rfl⟩ := g₂ _ hf₂; rfl

theorem locateFrom_entry_none {v : Volume} {follow : Bool} {fuel : Nat} {dir parts : List String}
    {f : Found} (h : v.locateFrom follow fuel dir parts = .ok f) (hf : f.entry = none) :
    v.entryAt f.place = none := by
  induction fuel generalizing follow dir parts f with
  | zero =>
    cases parts with
    | nil => simp [locateFrom] at h; subst h; simp at hf
    | cons _ _ => simp [locateFrom] at h
  | succ fuel ih =>
    cases parts with
    | nil => simp [locateFrom] at h; subst h; simp at hf
    | cons part rest =>
      simp only [locateFrom] at h
      split at h
      · exact ih h hf
      split at h
      · exact ih h hf
      split at h
      · rename_i he
        split at h
        · cases h; exact he
        · cases h
      · split at h
        · cases h; simp at hf
        split at h
        · cases h
        split at h
        · cases h
        · rename_i f' hf'
          split at h
          · cases h; exact ih hf' hf
          · split at h
            · exact ih h hf
            · cases h
            · cases h
      · exact ih h hf
      · split at h
        · cases h; simp at hf
        · cases h

theorem lookup_filter_ne (l : List (List String × Entry)) {k place : List String} (hk : k ≠ place) :
    (l.filter (·.1 != place)).lookup k = l.lookup k := by
  induction l with
  | nil => rfl
  | cons p l ih =>
    obtain ⟨q, e⟩ := p
    by_cases hq : q = place
    · subst hq
      simp [List.lookup_cons, ih, beq_eq_false_iff_ne.2 hk]
    · simp [List.lookup_cons, ih, hq]

theorem entryAt_put (v : Volume) (place : List String) (e : Entry) {q : List String} (hq : q ≠ []) :
    (v.put place e).entryAt q = if q = place then some e else v.entryAt q := by
  simp only [entryAt, put, List.isEmpty_iff, hq, if_false, List.lookup_append]
  split
  · subst q
    have hnone : ((v.entries.filter (·.1 != place))).lookup place = none := by
      rw [List.lookup_eq_none_iff]
      intro p hp
      simp only [List.mem_filter, bne_iff_ne, ne_eq] at hp
      simp only [bne_iff_ne, ne_eq]
      exact fun h => hp.2 h.symm
    simp [hnone]
  · rename_i hne
    rw [lookup_filter_ne _ hne]
    cases v.entries.lookup q <;> simp [hne]

theorem frame_put_file (v : Volume) {place : List String} (h : v.entryAt place = none) (n : Nat) :
    (v.put place (.file n)).frame = v.frame := by
  funext q
  by_cases hq : q = []
  · subst hq; rfl
  · simp only [frame, entryAt_put v place _ hq]
    split
    · subst q; simp [h, Entry.room]
    · rfl

@[simp] theorem frame_setBlob (v : Volume) (n : Nat) (b : ByteArray) : (v.setBlob n b).frame = v.frame := rfl

@[simp] theorem frame_newBlob (v : Volume) (b : ByteArray) : (v.newBlob b).1.frame = v.frame := rfl

/-- Making a file keeps the frame: it empties a file, or puts one where there was nothing. -/
theorem createFile_frame {v v' : Volume} {p : String} {n : Nat} (h : v.createFile p = .ok (v', n)) :
    v'.frame = v.frame := by
  unfold createFile at h
  simp only [bind, Except.bind] at h
  split at h
  · cases h
  · rcases hl : v.locate true p with e | f <;> rw [hl] at h
    · cases h
    · dsimp only at h
      split at h
      · cases h; simp
      · cases h
      · cases h
      · cases h
      · rename_i hf
        cases h
        have hnone : v.entryAt f.place = none := by
          unfold locate at hl
          split at hl
          · cases hl
          · exact locateFrom_entry_none hl hf
        rw [frame_put_file (v.newBlob ByteArray.empty).1 hnone, frame_newBlob]

/-- A write changes bytes only, so it keeps the frame. -/
theorem writeAt_frame {v v' : Volume} {i o : Nat} {d : ByteArray} (h : v.writeAt i o d = .ok v') :
    v'.frame = v.frame := by
  unfold writeAt at h
  split at h
  · cases h
  split at h
  · cases h
  · cases h; simp

/-- Whether a write goes through depends on its place and length only. -/
theorem writeAt_isOk (v₁ v₂ : Volume) (i₁ i₂ o : Nat) (d : ByteArray) :
    (v₁.writeAt i₁ o d).isOk = (v₂.writeAt i₂ o d).isOk := by
  unfold writeAt
  by_cases h₁ : o > maxOffset
  · simp [h₁]
  · by_cases h₂ : o + d.size > maxOffset <;> simp [h₁, h₂, Except.isOk, Except.toBool]

/-! ## Reading and writing in order -/

/-- A write at the end of a file appends to it. -/
theorem writeAt_end (v : Volume) {i : Nat} (d : ByteArray) (hfit : (v.blob i).size + d.size ≤ maxOffset) :
    v.writeAt i (v.blob i).size d = .ok (v.setBlob i (v.blob i ++ d)) := by
  unfold writeAt
  rw [if_neg (by omega), if_neg (by omega)]
  simp only [Nat.lt_irrefl, ↓reduceIte, ByteArray.extract_zero_size]
  congr 2
  have : (v.blob i).extract ((v.blob i).size + d.size) (v.blob i).size = ByteArray.empty := by
    simp
  rw [this, ByteArray.append_empty]

/-- A read within a file answers the bytes there. -/
theorem readAt_within (v : Volume) {i o len : Nat} (hfit : o ≤ maxOffset)
    (h : o + len ≤ (v.blob i).size) : v.readAt i o len = .ok ((v.blob i).extract o (o + len)) := by
  unfold readAt
  rw [if_neg (by omega), if_pos h]

end Volume

theorem prefix_append_slice (b : ByteArray) {a c : Nat} (h : a ≤ c) :
    b.extract 0 a ++ b.extract a c = b.extract 0 c := by
  simp [Nat.max_eq_right h]

end Courier.Files
