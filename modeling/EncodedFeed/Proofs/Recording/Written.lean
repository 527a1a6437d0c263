import EncodedFeed.Session.Recordings

/-!
# What a recording has written

All that was ever written to a recording is the content of its file followed by its buffer.  `Holds` says
so; every write appends to it, and when the recording ends it is what the file at its path holds, but for
the frame count.
-/

namespace EncodedFeed

/-- What has another key is found whether or not all that has the key is taken out. -/
theorem lookup_elsewhere {α β : Type} [BEq α] [LawfulBEq α] [DecidableEq α] {p q : α} (h : q ≠ p) :
    ∀ entries : List (α × β), (entries.filter fun e => e.1 ≠ p).lookup q = entries.lookup q
  | [] => rfl
  | (key, entry) :: rest => by
    have ih := lookup_elsewhere h rest
    by_cases hq : q = key
    · subst hq
      rw [List.filter_cons_of_pos (by simpa using h), List.lookup_cons_self, List.lookup_cons_self]
    · have hne : (q == key) = false := by simp [hq]
      rw [List.lookup_cons, hne, ← ih, List.filter_cons]
      split
      · rw [List.lookup_cons, hne]
      · rfl

/-! ### Files -/

namespace FileTree

variable {t : FileTree} {p : Place}

theorem find?_put (h : t.find? p ≠ some .directory) (e : Entry) (q : Place) :
    (t.put p e).find? q = if q = p then some e else t.find? q := by
  have hroot : ¬ (p = [] ∨ p = root) := fun hp => h (by simp only [find?, if_pos hp])
  by_cases hq : q = p
  · subst hq
    simp only [find?, put, if_neg hroot, if_true, List.lookup_cons_self]
  · have hne : (q == p) = false := by simp [hq]
    simp only [find?, put, if_neg hq, List.lookup_cons, hne, lookup_elsewhere hq]

/-- A path leads where it led as long as all directories are still there. -/
theorem walk_of_directories {t' : FileTree} (h : ∀ q, t.find? q = some .directory → t'.find? q = some .directory)
    {names : List String} {here q : Place} (hw : t.walk here names = .ok q) : t'.walk here names = .ok q := by
  induction names generalizing here with
  | nil => exact hw
  | cons name rest ih =>
    have hdir : t.find? here = some .directory := by
      unfold walk at hw
      split at hw <;> first | assumption | cases hw
    simp only [walk, hdir, h here hdir] at hw ⊢
    split
    · rw [if_pos ‹_›] at hw
      exact ih hw
    · rw [if_neg ‹_›] at hw
      split
      · rw [if_pos ‹_›] at hw
        exact ih hw
      · rw [if_neg ‹_›] at hw
        split
        · rw [if_pos ‹_›] at hw
          cases hw
        · rw [if_neg ‹_›] at hw
          exact ih hw

theorem place_of_directories {t' : FileTree} (h : ∀ q, t.find? q = some .directory → t'.find? q = some .directory)
    {path : String} {q : Place} (hp : t.place path = .ok q) : t'.place path = .ok q := by
  unfold place at hp ⊢
  split
  · next heq =>
    rw [heq] at hp
    cases hp
  · next heq =>
    rw [heq] at hp
    by_cases hempty : path = ""
    · rw [if_pos hempty] at hp
      cases hp
    · simp only [if_neg hempty] at hp ⊢
      exact walk_of_directories h hp

/-- A path still leads where it led after something that is no directory has been replaced. -/
theorem place_put (h : t.find? p ≠ some .directory) (d : Octets) {path : String} {q : Place}
    (hp : t.place path = .ok q) : (t.put p (.file d)).place path = .ok q := by
  refine place_of_directories (fun q hq => ?_) hp
  have hne : q ≠ p := fun heq => h (heq ▸ hq)
  rw [find?_put h, if_neg hne, hq]

theorem data_of_find? {d : Octets} (h : t.find? p = some (.file d)) : t.data p = d := by
  simp only [data, h]

theorem read_of_find? {path : String} {d : Octets} (hp : t.place path = .ok p)
    (h : t.find? p = some (.file d)) : t.read path = .ok d := by
  simp only [read, hp, h]

/-- A new file stands empty at the place its path names. -/
theorem find?_of_create {path : String} {t' : FileTree} (h : t.create path = .ok (p, t')) :
    t'.place path = .ok p ∧ t'.find? p = some (.file []) := by
  unfold create at h
  split at h
  · cases h
  · next q hq =>
    have hplace : t.place path = .ok q := by
      unfold creationPlace at hq
      split at hq
      · cases hq
      · split at hq
        · split at hq <;> cases hq
        · exact hq
    split at h
    · cases h
    · next hdir =>
      cases h
      exact ⟨place_put hdir [] hplace, by rw [find?_put hdir, if_pos rfl]⟩

theorem overwrite_end (old data : Octets) : overwrite old old.length data = old ++ data := by
  simp [overwrite]

/-- Octets are written over as many in the middle. -/
theorem overwrite_middle (before after : Octets) {old data : Octets} (h : data.length = old.length) :
    overwrite (before ++ (old ++ after)) before.length data = before ++ (data ++ after) := by
  have hgap : before.length - (before ++ (old ++ after)).length = 0 := by
    rw [List.length_append]
    omega
  have hend : (before ++ (old ++ after)).drop (before.length + data.length) = after := by
    rw [← List.drop_drop, List.drop_left, List.drop_left' h.symm]
  rw [overwrite, hgap, hend, List.take_left, List.replicate_zero, List.append_nil, List.append_assoc]

theorem find?_writeAt {d : Octets} (h : t.find? p = some (.file d)) (offset : Nat) {data : Octets}
    (hdata : data ≠ []) : (t.writeAt p offset data).find? p = some (.file (overwrite d offset data)) := by
  rw [writeAt, if_neg hdata, find?_put (by rw [h]; exact fun h => by cases h), if_pos rfl, data_of_find? h]

theorem place_writeAt {d : Octets} (h : t.find? p = some (.file d)) (offset : Nat) (data : Octets)
    {path : String} {q : Place} (hp : t.place path = .ok q) :
    (t.writeAt p offset data).place path = .ok q := by
  unfold writeAt
  split
  · exact hp
  · exact place_put (by rw [h]; exact fun h => by cases h) _ hp

end FileTree

/-! ### Recordings -/

/-- What is in a file when its recording has ended: all that was written, with the number of frames. -/
def Container.closed (c : Container) (frames : Nat) (w : Octets) : Octets :=
  match c with
  | annexB => w
  | ivf => FileTree.overwrite w Ivf.frameCountOffset (Octets.little 4 frames)

namespace Recording

variable {r : Recording} {path : String} {w : Octets} {t : FileTree}

/-- `w` is all that was written: what the file at the path has not got yet is in the buffer. -/
structure Holds (r : Recording) (path : String) (w : Octets) (t : FileTree) : Prop where
  place : t.place path = .ok r.place
  file : t.find? r.place = some (.file (w.take r.offset))
  offset : r.offset ≤ w.length
  buffer : r.buffer = w.drop r.offset

/-- Nothing but the progress of writing differs. -/
def Alike (r r' : Recording) : Prop :=
  r'.container = r.container ∧ r'.frames = r.frames ∧ r'.bytes = r.bytes

theorem alike_flush (r : Recording) (t : FileTree) : r.Alike (r.flush t).1 := ⟨rfl, rfl, rfl⟩

theorem alike_put (r : Recording) (data : Octets) (t : FileTree) : r.Alike (r.put data t).1 := by
  unfold put
  dsimp only
  split <;> split <;> exact ⟨rfl, rfl, rfl⟩

theorem alike_putAll (pieces : List Octets) (r : Recording) (t : FileTree) :
    r.Alike (r.putAll pieces t).1 := by
  induction pieces generalizing r t with
  | nil => exact ⟨rfl, rfl, rfl⟩
  | cons data rest ih =>
    obtain ⟨hc, hf, hb⟩ := alike_put r data t
    obtain ⟨hc', hf', hb'⟩ := ih (r.put data t).1 (r.put data t).2
    exact ⟨hc'.trans hc, hf'.trans hf, hb'.trans hb⟩

theorem Holds.emit (h : r.Holds path w t) (hb : r.buffer = []) (data : Octets) :
    (r.emit data t).1.Holds path (w ++ data) (r.emit data t).2 := by
  have hoff : r.offset = w.length := by
    have hdrop := congrArg List.length (hb.symm.trans h.buffer)
    have := h.offset
    rw [List.length_nil, List.length_drop] at hdrop
    omega
  have hfile : t.find? r.place = some (.file w) := by rw [h.file, hoff, List.take_length]
  have hlen : (r.emit data t).1.offset = (w ++ data).length := by rw [List.length_append, ← hoff]; rfl
  refine ⟨FileTree.place_writeAt hfile _ _ h.place, ?_, Nat.le_of_eq hlen, ?_⟩
  · rw [hlen, List.take_length]
    by_cases hdata : data = []
    · rw [hdata, List.append_nil]
      exact hfile
    · rw [← FileTree.overwrite_end, ← hoff]
      exact FileTree.find?_writeAt hfile _ hdata
  · rw [hlen, List.drop_length]
    exact hb

theorem Holds.flush (h : r.Holds path w t) :
    (r.flush t).1.Holds path w (r.flush t).2 ∧ (r.flush t).1.buffer = [] := by
  refine ⟨?_, rfl⟩
  have hrest : (w.take r.offset).drop r.offset = [] := by
    rw [List.drop_take, Nat.sub_self, List.take_zero]
  -- with its buffer set aside a recording holds what is in the file
  have hempty : ({ r with buffer := [] } : Recording).Holds path (w.take r.offset) t := by
    refine ⟨h.place, ?_, ?_, hrest.symm⟩
    · rw [List.take_take, Nat.min_self]
      exact h.file
    · rw [List.length_take]
      exact Nat.le_of_eq (Nat.min_eq_left h.offset).symm
  have hemit := hempty.emit rfl r.buffer
  rwa [h.buffer, List.take_append_drop, ← h.buffer] at hemit

/-- Writing appends, whether the octets stay in the buffer or go past it. -/
theorem Holds.put (h : r.Holds path w t) (data : Octets) :
    (r.put data t).1.Holds path (w ++ data) (r.put data t).2 := by
  -- octets that go into the buffer, before or after it has been emptied
  have hkeep : ∀ {r : Recording} {t : FileTree}, r.Holds path w t →
      ({ r with buffer := r.buffer ++ data } : Recording).Holds path (w ++ data) t := by
    intro r t h
    refine ⟨h.place, ?_, ?_, ?_⟩
    · rw [List.take_append_of_le_length h.offset]
      exact h.file
    · rw [List.length_append]
      exact Nat.le_trans h.offset (Nat.le_add_right _ _)
    · rw [List.drop_append_of_le_length h.offset, ← h.buffer]
  obtain ⟨hflush, hempty⟩ := h.flush
  by_cases hfit : data.length > bufferSize - r.buffer.length
  · by_cases hbig : data.length ≥ bufferSize
    · have heq : r.put data t = (r.flush t).1.emit data (r.flush t).2 := by
        simp only [Recording.put, if_pos hfit, if_pos hbig]
      rw [heq]
      exact hflush.emit hempty data
    · have heq : r.put data t
          = ({ (r.flush t).1 with buffer := (r.flush t).1.buffer ++ data }, (r.flush t).2) := by
        simp only [Recording.put, if_pos hfit, if_neg hbig]
      rw [heq]
      exact hkeep hflush
  · by_cases hbig : data.length ≥ bufferSize
    · have hb : r.buffer = [] := by
        rw [← List.length_eq_zero_iff]
        have : 0 < bufferSize := by decide
        omega
      have heq : r.put data t = r.emit data t := by simp only [Recording.put, if_neg hfit, if_pos hbig]
      rw [heq]
      exact h.emit hb data
    · have heq : r.put data t = ({ r with buffer := r.buffer ++ data }, t) := by
        simp only [Recording.put, if_neg hfit, if_neg hbig]
      rw [heq]
      exact hkeep h

theorem Holds.putAll (h : r.Holds path w t) (pieces : List Octets) :
    (r.putAll pieces t).1.Holds path (w ++ pieces.flatten) (r.putAll pieces t).2 := by
  induction pieces generalizing r w t with
  | nil => rwa [List.flatten_nil, List.append_nil]
  | cons data rest ih =>
    rw [List.flatten_cons, ← List.append_assoc]
    exact ih (h.put data)

theorem Holds.file_flush (h : r.Holds path w t) :
    (r.flush t).2.find? (r.flush t).1.place = some (.file w) := by
  obtain ⟨hf, hb⟩ := h.flush
  have happ := List.take_append_drop (r.flush t).1.offset w
  rw [← hf.buffer, hb, List.append_nil] at happ
  rw [hf.file, happ]

theorem Holds.read_flush (h : r.Holds path w t) : (r.flush t).2.read path = .ok w :=
  FileTree.read_of_find? h.flush.1.place h.file_flush

theorem Holds.read_finish (h : r.Holds path w t) :
    (r.finish t).read path = .ok (r.container.closed r.frames w) := by
  have hfile := h.file_flush
  have hplace := h.flush.1.place
  obtain ⟨hc, hn, -⟩ := alike_flush r t
  have hfinish : r.finish t = match (r.flush t).1.container with
      | .annexB => (r.flush t).2
      | .ivf => (r.flush t).2.writeAt (r.flush t).1.place Ivf.frameCountOffset
          (Octets.little 4 (r.flush t).1.frames) := rfl
  rw [hfinish, Container.closed.eq_def, ← hc, ← hn]
  cases (r.flush t).1.container with
  | annexB => exact FileTree.read_of_find? hplace hfile
  | ivf =>
    have hne : Octets.little 4 (r.flush t).1.frames ≠ [] := fun hnil => by
      have := congrArg List.length hnil
      rw [Octets.length_little, List.length_nil] at this
      omega
    exact FileTree.read_of_find? (FileTree.place_writeAt hfile _ _ hplace)
      (FileTree.find?_writeAt hfile _ hne)

theorem holds_of_create {c : Codec} {width height : UInt32} {t₀ : FileTree}
    (h : create t₀ path c width height = .ok (r, t)) :
    r.Holds path (Container.lead c width height) t ∧ r.container = Container.ofCodec c ∧
      r.frames = 0 ∧ r.bytes = 0 := by
  unfold create at h
  split at h
  · cases h
  · next place t₁ heq =>
    obtain ⟨hplace, hfile⟩ := FileTree.find?_of_create heq
    have hnew : ({ place, container := Container.ofCodec c } : Recording).Holds path [] t₁ :=
      ⟨hplace, hfile, Nat.zero_le _, rfl⟩
    have hput := hnew.put (Container.lead c width height)
    obtain ⟨hc, hf, hb⟩ := alike_put { place, container := Container.ofCodec c }
      (Container.lead c width height) t₁
    rw [Except.ok.inj h] at hput hc hf hb
    exact ⟨hput, hc, hf, hb⟩

/-- Octets by which one payload makes a recording longer. -/
def entry (c : Container) (rtp : UInt32) (payload : Octets) : Octets := (c.pieces rtp payload).flatten

theorem Holds.write (h : r.Holds path w t) (rtp : UInt32) {payload : Octets} (hne : payload ≠ []) :
    ∃ r' t', r.write rtp payload t = .ok (r', t') ∧
      r'.Holds path (w ++ entry r.container rtp payload) t' ∧ r'.container = r.container ∧
      r'.frames = r.frames + 1 ∧ r'.bytes = r.bytes + payload.length := by
  obtain ⟨hc, hf, hb⟩ := alike_putAll (r.container.pieces rtp payload) r t
  have hput := h.putAll (r.container.pieces rtp payload)
  have hwrite : r.write rtp payload t
      = .ok ({ (r.putAll (r.container.pieces rtp payload) t).1 with
          frames := (r.putAll (r.container.pieces rtp payload) t).1.frames + 1
          bytes := (r.putAll (r.container.pieces rtp payload) t).1.bytes + payload.length },
        (r.putAll (r.container.pieces rtp payload) t).2) := by
    rw [Recording.write, if_neg hne]
  refine ⟨_, _, hwrite, ⟨hput.place, hput.file, hput.offset, hput.buffer⟩, hc, ?_, ?_⟩
  · rw [hf]
  · rw [hb]

end Recording

/-! ### Recordings of a session -/

/-- An image to be written: its RTP time and its payload. -/
structure Shot where
  rtp : UInt32
  payload : Octets
deriving DecidableEq, Repr

/-- What a recording takes over of an image. -/
def EmittedImage.shot (i : EmittedImage) : Shot := ⟨i.image.rtp.value, i.image.data⟩

/-- Answer to an image: only an empty one is refused. -/
def Shot.verdict (i : Shot) : Except Error Unit := if i.payload = [] then .error .emptyPayload else .ok ()

/-- The images that are not empty. -/
def nonempty (images : List Shot) : List Shot := images.filter fun i => i.payload ≠ []

namespace Session

variable {s : Session} {r : Ref .recording} {path : String} {c : Container} {w : Octets}
  {frames bytes : Nat}

/-- Write images one after the other, whatever becomes of each. -/
def recordEach (s : Session) (r : Ref .recording) : List Shot → List (Except Error Unit) × Session
  | [] => ([], s)
  | i :: rest =>
    let (result, s) := s.record r i.rtp i.payload
    let (results, s) := s.recordEach r rest
    (result :: results, s)

/-- A recording to the path is under way that has written `w`, the given number of payloads among it. -/
def Records (s : Session) (r : Ref .recording) (path : String) (c : Container) (w : Octets)
    (frames bytes : Nat) : Prop :=
  ∃ x, s.recording? r = some x ∧ x.Holds path w s.files ∧ x.container = c ∧ x.frames = frames ∧
    x.bytes = bytes

theorem Records.of_eq {t : Session} (h : s.Records r path c w frames bytes) (hfiles : t.files = s.files)
    (hrecordings : t.recordings = s.recordings) : t.Records r path c w frames bytes := by
  obtain ⟨x, hx, hholds, hrest⟩ := h
  refine ⟨x, ?_, hfiles ▸ hholds, hrest⟩
  rw [recording?, hrecordings]
  exact hx

theorem records_addRecording {s₀ : Session} {codec : Codec} {width height : UInt32}
    (h : s₀.addRecording path codec width height = (.ok r, s)) :
    s.Records r path (Container.ofCodec codec) (Container.lead codec width height) 0 0 := by
  unfold addRecording at h
  split at h
  · cases h
  · next x files heq =>
    cases h
    exact ⟨x, by rw [recording?, Table.get?_add, if_pos rfl], Recording.holds_of_create heq⟩

/-- An empty image changes nothing. -/
theorem record_nil (h : s.Records r path c w frames bytes) (rtp : UInt32) :
    s.record r rtp [] = (.error .emptyPayload, s) := by
  obtain ⟨x, hx, -⟩ := h
  simp only [record, hx, Recording.write, if_true]

theorem records_record (h : s.Records r path c w frames bytes) (rtp : UInt32) {payload : Octets}
    (hne : payload ≠ []) :
    (s.record r rtp payload).1 = .ok () ∧
      (s.record r rtp payload).2.Records r path c (w ++ Recording.entry c rtp payload) (frames + 1)
        (bytes + payload.length) := by
  obtain ⟨x, hx, hholds, rfl, rfl, rfl⟩ := h
  obtain ⟨x', t, hwrite, hwritten⟩ := hholds.write rtp hne
  have heq : s.record r rtp payload
      = (.ok (), { s with files := t, recordings := s.recordings.modify r.number fun _ => x' }) := by
    simp only [record, hx, hwrite]
  have hx' : (s.recordings.modify r.number fun _ => x').get? r.number = some x' := by
    rw [Table.get?_modify, if_pos rfl]
    exact congrArg (Option.map _) hx
  rw [heq]
  exact ⟨rfl, x', hx', hwritten⟩

/-- **A run of writes**: each answer depends on its image alone, and all images that are not empty are
appended. -/
theorem records_recordEach (images : List Shot) {s : Session} {w : Octets} {frames bytes : Nat}
    (h : s.Records r path c w frames bytes) :
    (s.recordEach r images).1 = images.map Shot.verdict ∧
      (s.recordEach r images).2.Records r path c
        (w ++ (nonempty images).flatMap fun i => Recording.entry c i.rtp i.payload)
        (frames + (nonempty images).length) (bytes + ((nonempty images).flatMap Shot.payload).length) := by
  induction images generalizing s w frames bytes with
  | nil => simpa [recordEach, nonempty] using h
  | cons i rest ih =>
    by_cases hempty : i.payload = []
    · have hi := record_nil h i.rtp
      rw [← hempty] at hi
      obtain ⟨hresults, hrest⟩ := ih h
      have hskip : nonempty (i :: rest) = nonempty rest := by simp [nonempty, hempty]
      simp only [recordEach, hi, hskip, List.map_cons]
      exact ⟨by rw [hresults, Shot.verdict, if_pos hempty], hrest⟩
    · obtain ⟨hok, hrec⟩ := records_record h i.rtp hempty
      obtain ⟨hresults, hrest⟩ := ih hrec
      have hkeep : nonempty (i :: rest) = i :: nonempty rest := by simp [nonempty, hempty]
      simp only [recordEach, hkeep, List.map_cons, List.flatMap_cons, List.length_cons, List.length_append]
      refine ⟨by rw [hok, hresults, Shot.verdict, if_neg hempty], ?_⟩
      rwa [← List.append_assoc, Nat.add_comm (nonempty rest).length, ← Nat.add_assoc, ← Nat.add_assoc]

/-- Images that are refused could as well not have been offered. -/
theorem recordEach_nonempty (images : List Shot) {s : Session} {w : Octets} {frames bytes : Nat}
    (h : s.Records r path c w frames bytes) :
    (s.recordEach r images).2 = (s.recordEach r (nonempty images)).2 := by
  induction images generalizing s w frames bytes with
  | nil => rfl
  | cons i rest ih =>
    by_cases hempty : i.payload = []
    · have hi := record_nil h i.rtp
      rw [← hempty] at hi
      have hskip : nonempty (i :: rest) = nonempty rest := by simp [nonempty, hempty]
      simp only [recordEach, hi, hskip]
      exact ih h
    · have hkeep : nonempty (i :: rest) = i :: nonempty rest := by simp [nonempty, hempty]
      simp only [recordEach, hkeep]
      exact ih (records_record h i.rtp hempty).2

/-- While a recording is under way its file holds a prefix of what was written. -/
theorem read_of_records (h : s.Records r path c w frames bytes) :
    ∃ n, n ≤ w.length ∧ s.files.read path = .ok (w.take n) := by
  obtain ⟨x, -, hholds, -⟩ := h
  exact ⟨x.offset, hholds.offset, FileTree.read_of_find? hholds.place hholds.file⟩

/-- A recording that is let go of leaves all it has written. -/
theorem read_dropRecording (h : s.Records r path c w frames bytes) :
    (s.dropRecording r).files.read path = .ok w := by
  obtain ⟨x, hx, hholds, -⟩ := h
  simp only [dropRecording, hx]
  exact hholds.read_flush

theorem read_finishRecording (h : s.Records r path c w frames bytes) :
    (s.finishRecording r).files.read path = .ok (c.closed frames w) := by
  obtain ⟨x, hx, hholds, rfl, rfl, -⟩ := h
  simp only [finishRecording, hx]
  exact hholds.read_finish

end Session

end EncodedFeed
