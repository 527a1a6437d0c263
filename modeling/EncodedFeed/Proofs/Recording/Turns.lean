import EncodedFeed.Proofs.Recording.Written
import EncodedFeed.Proofs.Session.Lookup

/-!
# Turns of recording a channel

In each turn the recording of a channel gets what is next for its receiver.  `Channel.Serves` says which of the
images sent since a receiver subscribed it has dealt with, by getting or by missing them, and which are pending;
`Underway` adds what the recording has written.  `RecordStep` lists all that can happen in one turn.
-/

namespace EncodedFeed

/-! ### Receiving -/

/-- The images a receiver deals with when it gets something: the image itself, or those it has missed. -/
def Reception.Takes : Reception → List EmittedImage → Prop
  | .image i, taken => taken = [i]
  | .lagged n, taken => taken ≠ [] ∧ n = taken.length
  | .nothing, taken => taken = []

namespace Channel

variable {c : Channel} {receiver : Nat} {dealt pending : List EmittedImage}

/-- Since the receiver subscribed, the images it has dealt with and those pending for it were sent, in this order. -/
def Serves (c : Channel) (receiver : Nat) (dealt pending : List EmittedImage) : Prop :=
  ∃ earlier, c.sent.toList = earlier ++ dealt ++ pending ∧
    c.cursors.lookup receiver = some (earlier ++ dealt).length

theorem lookup_moveTo (c : Channel) (n position receiver : Nat) :
    (c.moveTo n position).cursors.lookup receiver
      = if receiver = n then (c.cursors.lookup receiver).map fun _ => position else c.cursors.lookup receiver := by
  unfold moveTo
  induction c.cursors with
  | nil => split <;> rfl
  | cons x rest ih =>
    obtain ⟨m, at'⟩ := x
    rw [List.map_cons]
    by_cases hm : m = n
    · subst hm
      rw [if_pos rfl, List.lookup_cons, List.lookup_cons, ih]
      by_cases hr : receiver = m
      · simp [hr]
      · have hbeq : (receiver == m) = false := by simp [hr]
        rw [hbeq, if_neg hr]
    · rw [if_neg hm, List.lookup_cons, List.lookup_cons, ih]
      by_cases hr : receiver = m
      · subst hr
        simp [hm]
      · have hbeq : (receiver == m) = false := by simp [hr]
        rw [hbeq]

theorem Serves.cursor_eq (h : c.Serves receiver dealt pending) :
    c.cursors.lookup receiver = some (c.cursor receiver) := by
  obtain ⟨earlier, -, hcursor⟩ := h
  rw [cursor, hcursor, Option.getD_some]

/-- Images sent that a receiver has not come to yet, whether or not they are kept for it. -/
def ahead (receiver : Nat) (c : Channel) : List EmittedImage := c.sent.toList.drop (c.cursor receiver)

theorem Serves.ahead_eq (h : c.Serves receiver dealt pending) : c.ahead receiver = pending := by
  have hcursor := h.cursor_eq
  obtain ⟨earlier, hsent, hat⟩ := h
  rw [hat, Option.some.injEq] at hcursor
  rw [ahead, hsent, ← hcursor, List.drop_left]

theorem Serves.moveTo {taken rest : List EmittedImage} (h : c.Serves receiver dealt (taken ++ rest)) :
    (c.moveTo receiver (c.cursor receiver + taken.length)).Serves receiver (dealt ++ taken) rest := by
  have hlookup := h.cursor_eq
  obtain ⟨earlier, hsent, hcursor⟩ := h
  rw [hcursor, Option.some.injEq] at hlookup
  refine ⟨earlier, ?_, ?_⟩
  · rw [← List.append_assoc, List.append_assoc _ taken, ← hsent]
    rfl
  · rw [lookup_moveTo, if_pos rfl, hcursor, Option.map_some, ← hlookup]
    simp only [List.length_append, Nat.add_assoc]

/-- **What a receiver gets** deals with the images pending for it from the first on.  It misses images only if more
are pending than the channel keeps, and it gets nothing only if none are. -/
theorem Serves.receive (h : c.Serves receiver dealt pending) :
    ∃ taken rest, pending = taken ++ rest ∧ (c.receive receiver).1.Takes taken ∧
      (c.receive receiver).2.Serves receiver (dealt ++ taken) rest ∧
      ((c.receive receiver).1 = .nothing → pending = []) ∧
      (∀ n, (c.receive receiver).1 = .lagged n → c.capacity < pending.length) := by
  have hserves := h
  obtain ⟨earlier, hsent, hcursor⟩ := hserves
  have hposition : c.cursor receiver = (earlier ++ dealt).length := by rw [cursor, hcursor, Option.getD_some]
  have hsize : c.sent.size = (earlier ++ dealt).length + pending.length := by
    rw [← Array.length_toList, hsent, List.length_append]
  by_cases hlag : c.cursor receiver < c.oldest
  · have hreceive : c.receive receiver = (.lagged (c.oldest - c.cursor receiver), c.moveTo receiver c.oldest) := by
      simp only [Channel.receive, if_pos hlag]
    have hbound : c.oldest - c.cursor receiver ≤ pending.length ∧ c.capacity < pending.length := by
      rw [oldest, hposition] at hlag ⊢
      omega
    have htaken : (pending.take (c.oldest - c.cursor receiver)).length = c.oldest - c.cursor receiver :=
      List.length_take_of_le hbound.1
    have hsplit := (List.take_append_drop (c.oldest - c.cursor receiver) pending).symm
    rw [hsplit] at h
    have hmoved := h.moveTo
    rw [htaken, Nat.add_sub_cancel' (Nat.le_of_lt hlag)] at hmoved
    rw [hreceive]
    refine ⟨_, _, hsplit, ⟨?_, htaken.symm⟩, hmoved, nofun, fun _ _ => hbound.2⟩
    rw [← List.length_pos_iff, htaken]
    omega
  · have hget : c.sent[c.cursor receiver]? = pending.head? := by
      rw [hposition, ← Array.getElem?_toList, hsent, List.getElem?_append_right (Nat.le_refl _), Nat.sub_self,
        List.head?_eq_getElem?]
    cases pending with
    | nil =>
      have hreceive : c.receive receiver = (.nothing, c) := by
        simp only [Channel.receive, if_neg hlag, hget, List.head?_nil]
      rw [hreceive]
      refine ⟨[], [], rfl, rfl, ?_, fun _ => rfl, nofun⟩
      rwa [List.append_nil]
    | cons i rest =>
      have hreceive : c.receive receiver = (.image i, c.moveTo receiver (c.cursor receiver + 1)) := by
        simp only [Channel.receive, if_neg hlag, hget, List.head?_cons]
      have hone : c.Serves receiver dealt ([i] ++ rest) := h
      rw [hreceive]
      exact ⟨[i], rest, rfl, rfl, hone.moveTo, nofun, nofun⟩

theorem capacity_receive (c : Channel) (n : Nat) : (c.receive n).2.capacity = c.capacity := by
  unfold receive
  dsimp only
  split
  · rfl
  · split <;> rfl

theorem nextReceiver_receive (c : Channel) (n : Nat) : (c.receive n).2.nextReceiver = c.nextReceiver := by
  unfold receive
  dsimp only
  split
  · rfl
  · split <;> rfl

end Channel

namespace Session

/-! ### Channels of a session -/

variable {s t : Session} {o : Ref .output}

theorem channel?_modifyChannel (s : Session) (o : Ref .output) (f : Channel → Channel) (o' : Ref .output) :
    (s.modifyChannel o f).channel? o' = if o = o' then (s.channel? o').map f else s.channel? o' := by
  rw [channel?, modifyChannel, output?_modifyOutput]
  split
  · cases hout : s.output? o' with
    | none => simp [channel?, hout]
    | some out => cases out <;> simp [channel?, hout, Output.channel?]
  · rfl

theorem subscribe_fst {c : Channel} (h : s.channel? o = some c) : (s.subscribe o).1 = c.nextReceiver := by
  rw [subscribe, h]
  rfl

theorem isHeld_modifyChannel (s : Session) (o : Ref .output) (f : Channel → Channel) (o' : Ref .output) :
    (s.modifyChannel o f).isHeld o' = s.isHeld o' := by
  simp only [isHeld, modifyChannel, modifyOutput, Table.get?_modify]
  split
  · rw [Option.any_map]
  · rfl

/-- Observers, holders of outputs and the numbers that new receivers will get are the same. -/
structure Beside (s t : Session) : Prop where
  observers : t.observers = s.observers
  held (o : Ref .output) : t.isHeld o = s.isHeld o
  numbers (o : Ref .output) : (t.subscribe o).1 = (s.subscribe o).1

theorem Beside.trans {u : Session} (h : Beside s t) (h' : Beside t u) : Beside s u :=
  ⟨h'.observers.trans h.observers, fun o => (h'.held o).trans (h.held o), fun o => (h'.numbers o).trans (h.numbers o)⟩

theorem beside_modifyChannel (s : Session) (o : Ref .output) {f : Channel → Channel}
    (hf : ∀ c, (f c).nextReceiver = c.nextReceiver) : Beside s (s.modifyChannel o f) := by
  refine ⟨rfl, isHeld_modifyChannel s o f, fun o' => ?_⟩
  rw [subscribe, subscribe, channel?_modifyChannel]
  split
  · rw [Option.map_map]
    exact congrArg (fun g => ((s.channel? o').map g).getD 0) (funext hf)
  · rfl

theorem beside_files (s : Session) (files : FileTree) (recordings : Table Recording) :
    Beside s { s with files, recordings } := ⟨rfl, fun _ => rfl, fun _ => rfl⟩

/-! ### Files and recordings -/

theorem record_eq (s : Session) (r : Ref .recording) (rtp : UInt32) (payload : Octets) :
    ∃ files recordings, (s.record r rtp payload).2 = { s with files, recordings } := by
  unfold record
  split
  · exact ⟨_, _, rfl⟩
  · split <;> exact ⟨_, _, rfl⟩

theorem dropRecording_eq (s : Session) (r : Ref .recording) :
    ∃ files recordings, s.dropRecording r = { s with files, recordings } := by
  unfold dropRecording
  split <;> exact ⟨_, _, rfl⟩

theorem finishRecording_eq (s : Session) (r : Ref .recording) :
    ∃ files recordings, s.finishRecording r = { s with files, recordings } := by
  unfold finishRecording
  split <;> exact ⟨_, _, rfl⟩

theorem recordedFrames_of_records {r : Ref .recording} {path : String} {c : Container} {w : Octets}
    {frames bytes : Nat} (h : s.Records r path c w frames bytes) : s.recordedFrames r = frames := by
  obtain ⟨x, hx, -, -, hframes, -⟩ := h
  rw [recordedFrames, hx, Option.map_some, Option.getD_some, hframes]

end Session

/-- The recording of a channel: the recording itself, with its path, its container and what the file begins with, and
the receiver of a channel that keeps so many images. -/
structure ChannelTask where
  recording : Ref .recording
  path : String
  container : Container
  lead : Octets
  output : Ref .output
  receiver : Nat
  capacity : Nat

namespace ChannelTask

/-- What the recording has written when it has written the images. -/
def content (x : ChannelTask) (images : List EmittedImage) : Octets :=
  x.lead ++ images.flatMap fun i => Recording.entry x.container i.image.rtp.value i.image.data

/-- The error with which a recording ends that has written so many images when it gets an empty one. -/
def emptyAfter (frames : Nat) : Error :=
  .withContext s!"recording stopped after {frames} frame(s)" .emptyPayload

theorem content_append (x : ChannelTask) (images : List EmittedImage) (i : EmittedImage) :
    x.content (images ++ [i])
      = x.content images ++ Recording.entry x.container i.image.rtp.value i.image.data := by
  rw [content, List.flatMap_append, List.flatMap_singleton, ← List.append_assoc]
  rfl

end ChannelTask

namespace Session

/-- The recording has written the images; the receiver has dealt with those published before the pending ones. -/
structure Underway (s : Session) (x : ChannelTask) (written dealt pending : List EmittedImage) : Prop where
  records : ∃ bytes, s.Records x.recording x.path x.container (x.content written) written.length bytes
  serves : ∃ c, s.channel? x.output = some c ∧ c.capacity = x.capacity ∧ c.Serves x.receiver dealt pending

/-- What one turn does, by what was received. -/
inductive RecordStep (x : ChannelTask) (s : Session) (written dealt pending : List EmittedImage) :
    Reception → ChannelRecording → Session → Prop
  | wrote {i rest t} (hpending : pending = i :: rest) (hne : i.image.data ≠ [])
      (hnext : Underway t x (written ++ [i]) (dealt ++ [i]) rest) (hjournal : t.journal = s.journal) :
      RecordStep x s written dealt pending (.image i) .waiting t
  | stopped {i rest t} (hpending : pending = i :: rest) (hempty : i.image.data = [])
      (hread : t.files.read x.path = .ok (x.content written)) (hjournal : t.journal = s.journal) :
      RecordStep x s written dealt pending (.image i) (.stopped (ChannelTask.emptyAfter written.length)) t
  | lagged {missed rest t} (hpending : pending = missed ++ rest) (hmissed : missed ≠ [])
      (hmany : x.capacity < pending.length) (hnext : Underway t x written (dealt ++ missed) rest)
      (hjournal : t.journal = .warned (.lagged missed.length) :: s.journal) :
      RecordStep x s written dealt pending (.lagged missed.length) .waiting t
  | idle {t} (hpending : pending = []) (hheld : s.isHeld x.output = true)
      (hnext : Underway t x written dealt []) (hjournal : t.journal = s.journal) :
      RecordStep x s written dealt pending .nothing .waiting t
  | finished {t} (hpending : pending = []) (hheld : s.isHeld x.output = false)
      (hread : t.files.read x.path = .ok (x.container.closed written.length (x.content written)))
      (hjournal : t.journal = s.journal) :
      RecordStep x s written dealt pending .nothing (.finished written.length) t

namespace Underway

variable {s : Session} {x : ChannelTask} {written dealt pending : List EmittedImage}

/-- What is received takes images from those pending, and changes nothing but that. -/
theorem receive (h : s.Underway x written dealt pending) :
    ∃ taken rest, pending = taken ++ rest ∧ (s.receive x.output x.receiver).1.Takes taken ∧
      (s.receive x.output x.receiver).2.Underway x written (dealt ++ taken) rest ∧
      ((s.receive x.output x.receiver).1 = .nothing → pending = []) ∧
      (∀ n, (s.receive x.output x.receiver).1 = .lagged n → x.capacity < pending.length) := by
  obtain ⟨c, hc, hcapacity, hserves⟩ := h.serves
  obtain ⟨taken, rest, hsplit, htakes, hnext, hnothing, hlagged⟩ := hserves.receive
  have hreceived : (s.receive x.output x.receiver).1 = (c.receive x.receiver).1 := by
    rw [Session.receive, hc]
    rfl
  have hthen : (s.receive x.output x.receiver).2.channel? x.output = some (c.receive x.receiver).2 := by
    rw [Session.receive, channel?_modifyChannel, if_pos rfl, hc]
    rfl
  have hkept : (c.receive x.receiver).2.capacity = c.capacity := c.capacity_receive x.receiver
  rw [hreceived]
  exact ⟨taken, rest, hsplit, htakes, ⟨h.records, _, hthen, hkept.trans hcapacity, hnext⟩, hnothing,
    fun n hn => hcapacity ▸ hlagged n hn⟩

/-- **A turn** does one of the five things there are. -/
theorem recordNext (h : s.Underway x written dealt pending) :
    RecordStep x s written dealt pending (s.receive x.output x.receiver).1
      (s.recordNext x.recording x.output x.receiver).1 (s.recordNext x.recording x.output x.receiver).2 := by
  obtain ⟨taken, rest, hsplit, htakes, hnext, hnothing, hlagged⟩ := h.receive
  have hjournal : (s.receive x.output x.receiver).2.journal = s.journal := rfl
  have hheld : (s.receive x.output x.receiver).2.isHeld x.output = s.isHeld x.output :=
    isHeld_modifyChannel ..
  cases hreceive : s.receive x.output x.receiver with
  | mk received u =>
  rw [hreceive] at htakes hnext hnothing hlagged hjournal hheld
  dsimp only at htakes hnext hnothing hlagged hjournal hheld ⊢
  obtain ⟨bytes, hrecords⟩ := hnext.records
  cases received with
  | image i =>
    cases htakes
    by_cases hempty : i.image.data = []
    · have hrefused := record_nil hrecords i.image.rtp.value
      rw [← hempty] at hrefused
      obtain ⟨files, recordings, hdrop⟩ := u.dropRecording_eq x.recording
      have hread := read_dropRecording hrecords
      simp only [Session.recordNext, hreceive, hrefused, recordedFrames_of_records hrecords]
      refine .stopped hsplit hempty hread ?_
      rw [hdrop]
      exact hjournal
    · obtain ⟨hok, hmore⟩ := records_record hrecords i.image.rtp.value hempty
      obtain ⟨files, recordings, hsame⟩ := u.record_eq x.recording i.image.rtp.value i.image.data
      cases hrecord : u.record x.recording i.image.rtp.value i.image.data with
      | mk result v =>
      rw [hrecord] at hok hmore hsame
      cases hok
      cases hsame
      simp only [Session.recordNext, hreceive, hrecord]
      refine .wrote hsplit hempty ⟨⟨bytes + i.image.data.length, ?_⟩, hnext.serves⟩ hjournal
      rw [ChannelTask.content_append, List.length_append]
      exact hmore
  | lagged n =>
    obtain ⟨hmissed, rfl⟩ := htakes
    simp only [Session.recordNext, hreceive]
    refine .lagged hsplit hmissed (hlagged _ rfl) ⟨hnext.records, hnext.serves⟩ ?_
    rw [← hjournal]
    rfl
  | nothing =>
    cases htakes
    obtain rfl := hnothing rfl
    obtain rfl : rest = [] := hsplit.symm
    rw [List.append_nil] at hnext
    by_cases hopen : u.isHeld x.output = true
    · simp only [Session.recordNext, hreceive, if_pos hopen]
      exact .idle rfl (hheld ▸ hopen) hnext hjournal
    · obtain ⟨files, recordings, hfinish⟩ := u.finishRecording_eq x.recording
      simp only [Session.recordNext, hreceive, if_neg hopen, recordedFrames_of_records hrecords]
      refine .finished rfl (hheld ▸ Bool.eq_false_iff.mpr hopen) (read_finishRecording hrecords) ?_
      rw [hfinish]
      exact hjournal

end Underway

/-- A turn leaves observers, holders and new receivers' numbers as they are. -/
theorem recordNext_beside (s : Session) (r : Ref .recording) (o : Ref .output) (receiver : Nat) :
    Beside s (s.recordNext r o receiver).2 := by
  have hreceived : Beside s (s.receive o receiver).2 := beside_modifyChannel s o fun c => c.nextReceiver_receive receiver
  have hleft : ∀ t : Session, Beside s t → Beside s (t.unsubscribe o receiver) := fun t ht =>
    ht.trans (beside_modifyChannel t o fun _ => rfl)
  cases hreceive : s.receive o receiver with
  | mk received u =>
  rw [hreceive] at hreceived
  cases received with
  | image i =>
    obtain ⟨files, recordings, hsame⟩ := u.record_eq r i.image.rtp.value i.image.data
    cases hrecord : u.record r i.image.rtp.value i.image.data with
    | mk result v =>
    rw [hrecord] at hsame
    cases hsame
    cases result with
    | ok _ =>
      simp only [recordNext, hreceive, hrecord]
      exact hreceived.trans (beside_files u files recordings)
    | error e =>
      obtain ⟨files', recordings', hdrop⟩ := dropRecording_eq { u with files, recordings } r
      simp only [recordNext, hreceive, hrecord, hdrop]
      exact hleft _ (hreceived.trans (beside_files u files' recordings'))
  | lagged n =>
    simp only [recordNext, hreceive]
    exact hreceived.trans ⟨rfl, fun _ => rfl, fun _ => rfl⟩
  | nothing =>
    obtain ⟨files, recordings, hfinish⟩ := u.finishRecording_eq r
    simp only [recordNext, hreceive, hfinish]
    split
    · exact hreceived
    · exact hleft _ (hreceived.trans (beside_files u files recordings))

/-- Once nobody holds on to the channel, a turn for each of the images pending and one more finish the recording, if
none of them is empty and the channel has kept them all. -/
theorem Underway.recordTurns {x : ChannelTask} (n : Nat) {s : Session} {written dealt pending : List EmittedImage}
    (h : s.Underway x written dealt pending) (hne : ∀ i ∈ pending, i.image.data ≠ [])
    (hkept : pending.length ≤ x.capacity) (hheld : s.isHeld x.output = false) (hn : pending.length < n) :
    ∃ t, s.recordTurns x.recording x.output x.receiver n = (.finished (written ++ pending).length, t) ∧
      t.journal = s.journal ∧ t.observers = s.observers ∧
      t.files.read x.path = .ok (x.container.closed (written ++ pending).length (x.content (written ++ pending))) := by
  induction n generalizing s written dealt pending with
  | zero => omega
  | succ n ih =>
    have hbeside := s.recordNext_beside x.recording x.output x.receiver
    have hstep := h.recordNext
    rw [Session.recordTurns]
    cases hturn : s.recordNext x.recording x.output x.receiver with
    | mk result u =>
    rw [hturn] at hstep hbeside
    generalize (s.receive x.output x.receiver).1 = received at hstep
    cases hstep with
    | wrote hpending _ hnext hjournal =>
      subst hpending
      rw [List.length_cons] at hkept hn
      obtain ⟨t, hturns, hj, hobs, hread⟩ := ih hnext (fun i hi => hne i (List.mem_cons_of_mem _ hi)) (by omega)
        ((hbeside.held _).trans hheld) (by omega)
      rw [List.append_assoc, List.singleton_append] at hturns hread
      exact ⟨t, hturns, hj.trans hjournal, hobs.trans hbeside.observers, hread⟩
    | stopped hpending hempty =>
      subst hpending
      exact absurd hempty (hne _ List.mem_cons_self)
    | lagged _ _ hmany => exact absurd hmany (by omega)
    | idle _ hopen => exact absurd hopen (by simp [hheld])
    | finished hpending _ hread hjournal =>
      subst hpending
      rw [List.append_nil]
      exact ⟨u, rfl, hjournal, hbeside.observers, hread⟩

end Session

end EncodedFeed
