import EncodedFeed.Proofs.Recording.Bystanders
import EncodedFeed.Proofs.Recording.ReadBack
import EncodedFeed.Proofs.Session.Lasting

/-!
# Recording a channel while the session goes on

The turns of a recording come between all that is published, received by others, added and let go of.  A `Tape` is
such a course of moves in any order.  Whatever the order, each image published while the recording runs is dealt with
in turn: it is written, or counted in a notice of missed images.
-/

namespace EncodedFeed

/-! ### Accounts of what was received -/

namespace Reception

/-- The image that was received. -/
def image? : Reception → Option EmittedImage
  | image i => some i
  | _ => none

/-- The number of images that were missed. -/
def missed? : Reception → Option Nat
  | lagged n => some n
  | _ => none

/-- Images received that are not empty. -/
def images (received : List Reception) : List EmittedImage :=
  (received.filterMap image?).filter fun i => i.image.data ≠ []

/-- The numbers of images in the notices received. -/
def lags (received : List Reception) : List Nat := received.filterMap missed?

/-- No image received is empty. -/
def NoneEmpty (received : List Reception) : Prop := ∀ i, image i ∈ received → i.image.data ≠ []

/-- What was received deals with the images one after the other: each was got, or is one of those of a notice. -/
inductive Accounts : List Reception → List EmittedImage → Prop
  | nil : Accounts [] []
  | next {received dealt r taken} : Accounts received dealt → Takes r taken →
      Accounts (received ++ [r]) (dealt ++ taken)

variable {received : List Reception} {dealt : List EmittedImage}

theorem images_append (received : List Reception) (r : Reception) :
    images (received ++ [r]) = images received ++ images [r] := by
  rw [images, List.filterMap_append, List.filter_append]
  rfl

theorem lags_append (received : List Reception) (r : Reception) :
    lags (received ++ [r]) = lags received ++ lags [r] := List.filterMap_append

theorem images_image_of_ne {i : EmittedImage} (h : i.image.data ≠ []) : images [image i] = [i] := by
  simp [images, image?, h]

theorem images_image_of_eq {i : EmittedImage} (h : i.image.data = []) : images [image i] = [] := by
  simp [images, image?, h]

theorem NoneEmpty.append (h : NoneEmpty received) {r : Reception} (hr : NoneEmpty [r]) :
    NoneEmpty (received ++ [r]) := by
  intro i hi
  rcases List.mem_append.mp hi with hi | hi
  · exact h i hi
  · exact hr i hi

/-- Images are got in the order of those dealt with, each once. -/
theorem Accounts.sublist (h : Accounts received dealt) : (images received).Sublist dealt := by
  induction h with
  | nil => exact List.Sublist.refl _
  | @next received dealt r taken _ htakes ih =>
    rw [images_append]
    refine ih.append ?_
    cases r with
    | image i =>
      cases htakes
      exact List.filter_sublist
    | lagged n => exact List.nil_sublist _
    | nothing => exact List.nil_sublist _

/-- The images dealt with are as many as were got and missed. -/
theorem Accounts.length (h : Accounts received dealt) (hne : NoneEmpty received) :
    dealt.length = (images received).length + (lags received).sum := by
  induction h with
  | nil => rfl
  | @next received dealt r taken _ htakes ih =>
    have hbefore := ih fun i hi => hne i (List.mem_append_left _ hi)
    rw [images_append, lags_append, List.length_append, List.length_append, List.sum_append, hbefore]
    cases r with
    | image i =>
      cases htakes
      rw [images_image_of_ne (hne i (by simp))]
      simp only [lags, List.filterMap_cons, missed?, List.filterMap_nil, List.sum_nil, List.length_singleton]
      omega
    | lagged n =>
      obtain ⟨-, rfl⟩ := htakes
      simp only [images, lags, List.filterMap_cons, image?, missed?, List.filterMap_nil, List.filter_nil,
        List.sum_cons, List.sum_nil, List.length_nil]
      omega
    | nothing =>
      cases htakes
      rfl

end Reception

/-! ### What is in the file -/

/-- The file of a recording of the images, with a frame count if there is a header for it. -/
def Codec.file (c : Codec) (width height : UInt32) (frames : Nat) (images : List Shot) : Octets :=
  match c.fourcc with
  | some fourcc =>
    Ivf.header fourcc width.toNat height.toNat frames ++ images.flatMap fun i => i.record.octets
  | none => images.flatMap Shot.payload

/-- There is the file of a recording of the images; and if it has a header and no image is too long for a frame of
its own, these are the frames that are read from it. -/
structure FileTree.HasRecorded (t : FileTree) (path : String) (c : Codec) (width height : UInt32) (frames : Nat)
    (images : List Shot) : Prop where
  file : t.read path = .ok (c.file width height frames images)
  readBack : c.fourcc.isSome = true → (∀ i ∈ images, i.payload.length < 0x100000000) →
    ∃ f, Ivf.read (c.file width height frames images) = .ok f ∧ f.header.codec = c ∧
      f.header.frameCount.toNat = frames % 0x100000000 ∧ f.frames = images.map Shot.record

theorem FileTree.hasRecorded {t : FileTree} {path : String} {c : Codec} {width height : UInt32} {frames : Nat}
    {images : List Shot} (h : t.read path = .ok (c.file width height frames images))
    (hne : ∀ i ∈ images, i.payload ≠ []) : t.HasRecorded path c width height frames images where
  file := h
  readBack hsome hsize := by
    obtain ⟨fourcc, hfourcc⟩ := Option.isSome_iff_exists.mp hsome
    have hall : nonempty images = images := List.filter_eq_self.mpr fun i hi => decide_eq_true (hne i hi)
    obtain ⟨hfit, hdata⟩ := fitting_record hsize
    rw [hall] at hfit hdata
    have hread := Ivf.read_frames hfourcc hfit hdata width.toNat height.toNat frames
    rw [List.flatMap_map] at hread
    rw [Codec.file, hfourcc]
    exact ⟨_, hread, rfl, rfl, rfl⟩

namespace ChannelTask

variable {x : ChannelTask} {c : Codec} {width height : UInt32}

/-- The recording was begun for the codec and the dimensions. -/
structure BegunFor (x : ChannelTask) (c : Codec) (width height : UInt32) : Prop where
  container : x.container = Container.ofCodec c
  lead : x.lead = Container.lead c width height

theorem BegunFor.content_eq (h : x.BegunFor c width height) (images : List EmittedImage) :
    x.content images = c.file width height 0 (images.map EmittedImage.shot) := by
  rw [content, h.container, h.lead, Codec.file, Container.lead, Container.ofCodec]
  cases hf : c.fourcc with
  | none =>
    dsimp only
    rw [List.nil_append, List.flatMap_map]
    exact List.flatMap_congr fun i _ => List.append_nil _
  | some fourcc =>
    dsimp only
    rw [List.flatMap_map]
    exact congrArg _ (List.flatMap_congr fun i _ => entry_ivf i.shot)

theorem BegunFor.closed_eq (h : x.BegunFor c width height) (images : List EmittedImage) (frames : Nat) :
    x.container.closed frames (x.content images) = c.file width height frames (images.map EmittedImage.shot) := by
  rw [h.content_eq, h.container, Codec.file, Codec.file, Container.ofCodec]
  cases hf : c.fourcc with
  | none => rfl
  | some fourcc => exact closed_header (Ivf.length_fourcc hf) ..

end ChannelTask

/-! ### Tapes -/

/-- One thing that is done while a channel is recorded. -/
inductive Move
  /-- The recording takes a turn. -/
  | turn
  /-- An image is published on the channel. -/
  | publish (i : EmittedImage)
  /-- Something else is done, which may publish images as well. -/
  | act (a : Action)

namespace Move

/-- The recording takes a turn. -/
def isTurn : Move → Bool
  | turn => true
  | _ => false

/-- The receiver of the recording is left to the recording. -/
def LeavesReceiver (o : Ref .output) (receiver : Nat) : Move → Prop
  | act a => a.LeavesReceiver o receiver
  | _ => True

end Move

/-- The recording of a channel so far. -/
structure Tape where
  session : Session
  /-- Images published on the channel while the recording ran. -/
  published : List EmittedImage := []
  /-- What the recording has received, turn by turn. -/
  received : List Reception := []
  /-- What the turns have noted in the journal. -/
  noted : List Event := []
  state : Session.ChannelRecording := .waiting

namespace Tape

/-- The recording has not ended. -/
def running (t : Tape) : Bool := match t.state with | .waiting => true | _ => false

/-- Others go on to a session and publish images. -/
def goOn (t : Tape) (s : Session) (images : List EmittedImage) : Tape :=
  { t with session := s, published := if t.running then t.published ++ images else t.published }

/-- The recording goes on with what it has received. -/
def step (t : Tape) (received : Reception) (next : Session.ChannelRecording × Session) : Tape :=
  { t with
    session := next.2
    state := next.1
    received := t.received ++ [received]
    noted := t.noted ++ t.session.eventsSince next.2 }

/-- The recording takes a turn, unless it has ended. -/
def turn (r : Ref .recording) (o : Ref .output) (receiver : Nat) (t : Tape) : Tape :=
  if t.running then t.step (t.session.receive o receiver).1 (t.session.recordNext r o receiver) else t

/-- Make a move. -/
def play (r : Ref .recording) (o : Ref .output) (receiver : Nat) (t : Tape) : Move → Tape
  | .turn => t.turn r o receiver
  | .publish i => t.goOn (t.session.present ⟨o, none⟩ i).2 [i]
  | .act a => t.goOn (t.session.perform a).2 (presentedTo o (Step.events ⟨t.session, a⟩))

/-- Make moves one after the other. -/
def run (r : Ref .recording) (o : Ref .output) (receiver : Nat) (t : Tape) (moves : List Move) : Tape :=
  moves.foldl (play r o receiver) t

/-- Images the recording has written. -/
def written (t : Tape) : List EmittedImage := Reception.images t.received

/-- Numbers of images in the notices of missed ones. -/
def lags (t : Tape) : List Nat := Reception.lags t.received

/-- Number of images written, or counted in a notice. -/
def settled (t : Tape) : Nat := t.written.length + t.lags.sum

/-- **All images published are accounted for**, by what has become of the recording. -/
def Accounted (t : Tape) (o : Ref .output) (receiver : Nat) (path : String) (c : Codec) (width height : UInt32) :
    Prop :=
  match t.state with
  -- what is not dealt with yet is still ahead of the receiver
  | .waiting => (∃ dealt pending, t.published = dealt ++ pending ∧ Reception.Accounts t.received dealt ∧
      (t.session.channel? o).map (Channel.ahead receiver) = some pending) ∧
      Reception.NoneEmpty t.received ∧
      ∃ n, t.session.files.read path = .ok ((c.file width height 0 (t.written.map EmittedImage.shot)).take n)
  | .finished n => Reception.Accounts t.received t.published ∧ Reception.NoneEmpty t.received ∧
      n = t.written.length ∧
      t.session.files.HasRecorded path c width height n (t.written.map EmittedImage.shot)
  -- the last image received is the first empty one, and those behind it are not received at all
  | .stopped e => ∃ before i dealt rest, t.received = before ++ [.image i] ∧ i.image.data = [] ∧
      t.published = dealt ++ i :: rest ∧ Reception.Accounts before dealt ∧ Reception.NoneEmpty before ∧
      e = ChannelTask.emptyAfter t.written.length ∧
      t.session.files.HasRecorded path c width height 0 (t.written.map EmittedImage.shot)

/-! ### What every move keeps -/

/-- A recording that runs is under way, and no other receiver will get the number of its own. -/
structure Ongoing (t : Tape) (x : ChannelTask) (dealt pending : List EmittedImage) : Prop where
  underway : t.session.Underway x t.written dealt pending
  own : x.receiver < (t.session.subscribe x.output).1
  published : t.published = dealt ++ pending
  received : Reception.Accounts t.received dealt
  noneEmpty : Reception.NoneEmpty t.received

/-- The images are accounted for, each notice was passed on, none was due to a channel that keeps all images, and the
recording is under way as long as it runs. -/
structure Sound (t : Tape) (x : ChannelTask) (c : Codec) (width height : UInt32) : Prop where
  accounted : t.Accounted x.output x.receiver x.path c width height
  noted : t.noted = t.lags.map fun n => .warned (.lagged n)
  unmissed : t.published.length ≤ x.capacity → t.lags = []
  ongoing : t.running = true → ∃ dealt pending, t.Ongoing x dealt pending

variable {t : Tape} {x : ChannelTask} {c : Codec} {width height : UInt32}

theorem running_iff : t.running = true ↔ t.state = .waiting := by
  unfold running
  cases t.state <;> simp

theorem Ongoing.sound {dealt pending : List EmittedImage} (h : t.Ongoing x dealt pending)
    (hx : x.BegunFor c width height) (hrun : t.running = true)
    (hnoted : t.noted = t.lags.map fun n => .warned (.lagged n))
    (hunmissed : t.published.length ≤ x.capacity → t.lags = []) : t.Sound x c width height where
  accounted := by
    obtain ⟨bytes, hrecords⟩ := h.underway.records
    obtain ⟨n, -, hread⟩ := Session.read_of_records hrecords
    obtain ⟨k, hk, -, hserves⟩ := h.underway.serves
    have hahead : (t.session.channel? x.output).map (Channel.ahead x.receiver) = some pending := by
      rw [hk, Option.map_some, hserves.ahead_eq]
    rw [hx.content_eq] at hread
    rw [Accounted, running_iff.mp hrun]
    exact ⟨⟨dealt, pending, h.published, h.received, hahead⟩, h.noneEmpty, n, hread⟩
  noted := hnoted
  unmissed := hunmissed
  ongoing _ := ⟨dealt, pending, h⟩

/-- A recording begins with a new receiver. -/
theorem sound_start {s₀ s₁ : Session} {path : String} {r : Ref .recording} {o : Ref .output} {k : Channel}
    (hadd : s₀.addRecording path c width height = (.ok r, s₁)) (hk : s₁.channel? o = some k) :
    Sound { session := (s₁.subscribe o).2 }
      ⟨r, path, Container.ofCodec c, Container.lead c width height, o, (s₁.subscribe o).1, k.capacity⟩
      c width height := by
  have hnumber : (s₁.subscribe o).1 = k.nextReceiver := Session.subscribe_fst hk
  have hchannel : (s₁.subscribe o).2.channel? o = some k.subscribe.2 := by
    rw [Session.subscribe, Session.channel?_modifyChannel, if_pos rfl, hk]
    rfl
  have hbegun : s₁.Records r path (Container.ofCodec c) (Container.lead c width height) 0 0 :=
    Session.records_addRecording hadd
  have hongoing : Ongoing { session := (s₁.subscribe o).2 }
      ⟨r, path, Container.ofCodec c, Container.lead c width height, o, (s₁.subscribe o).1, k.capacity⟩ [] [] := by
    refine ⟨⟨⟨0, ?_⟩, _, hchannel, rfl, k.sent.toList, ?_, ?_⟩, ?_, rfl, .nil, fun i hi => ?_⟩
    · show (s₁.subscribe o).2.Records r path _ (Container.lead c width height ++ []) 0 0
      rw [List.append_nil]
      exact hbegun
    · simp [Channel.subscribe]
    · simp [Channel.subscribe, hnumber]
    · show (s₁.subscribe o).1 < ((s₁.subscribe o).2.subscribe o).1
      rw [hnumber, Session.subscribe_fst hchannel]
      exact Nat.lt_succ_self _
    · cases hi
  exact hongoing.sound ⟨rfl, rfl⟩ rfl rfl fun _ => rfl

/-- What others do changes neither file nor recording, and what they publish is pending then. -/
theorem Sound.goOn (h : t.Sound x c width height) (hx : x.BegunFor c width height) {s : Session}
    {images : List EmittedImage} (hfiles : s.files = t.session.files)
    (hrecordings : s.recordings = t.session.recordings)
    (hsends : ∀ k, t.session.channel? x.output = some k →
      ∃ k', s.channel? x.output = some k' ∧ Channel.Sends x.receiver images k k') :
    (t.goOn s images).Sound x c width height := by
  have hunmissed : (t.goOn s images).published.length ≤ x.capacity → t.lags = [] := by
    intro hfew
    refine h.unmissed (Nat.le_trans ?_ hfew)
    rw [Tape.goOn]
    dsimp only
    split
    · rw [List.length_append]
      exact Nat.le_add_right _ _
    · exact Nat.le_refl _
  by_cases hrun : t.running = true
  · obtain ⟨dealt, pending, hongoing⟩ := h.ongoing hrun
    obtain ⟨bytes, hrecords⟩ := hongoing.underway.records
    obtain ⟨k, hk, hcapacity, hserves⟩ := hongoing.underway.serves
    obtain ⟨k', hk', hsent⟩ := hsends k hk
    have hown : x.receiver < k.nextReceiver := Session.subscribe_fst hk ▸ hongoing.own
    have hthen : (t.goOn s images).Ongoing x dealt (pending ++ images) := by
      refine ⟨⟨⟨bytes, hrecords.of_eq hfiles hrecordings⟩, k', hk', hsent.capacity.trans hcapacity,
        hsent.serves hown hserves⟩, ?_, ?_, hongoing.received, hongoing.noneEmpty⟩
      · show x.receiver < (s.subscribe x.output).1
        rw [Session.subscribe_fst hk']
        exact Nat.lt_of_lt_of_le hown hsent.numbers
      · rw [Tape.goOn, if_pos hrun, hongoing.published, List.append_assoc]
    exact hthen.sound hx hrun h.noted hunmissed
  · refine ⟨?_, h.noted, hunmissed, fun hrun' => absurd hrun' hrun⟩
    have hpublished : (t.goOn s images).published = t.published := by rw [Tape.goOn, if_neg hrun]
    have hstate : (t.goOn s images).state = t.state := rfl
    have haccounted := h.accounted
    rw [Accounted, hstate, hpublished]
    rw [Accounted] at haccounted
    cases hst : t.state with
    | waiting => exact absurd (running_iff.mpr hst) hrun
    | finished n =>
      rw [hst] at haccounted
      obtain ⟨hreceived, hne, hn, hfile⟩ := haccounted
      exact ⟨hreceived, hne, hn, hfiles.symm ▸ hfile⟩
    | stopped e =>
      rw [hst] at haccounted
      obtain ⟨before, i, dealt, rest, hreceived, hempty, hp, hbefore, hne, he, hfile⟩ := haccounted
      exact ⟨before, i, dealt, rest, hreceived, hempty, hp, hbefore, hne, he, hfiles.symm ▸ hfile⟩

theorem written_step (t : Tape) (received : Reception) (next : Session.ChannelRecording × Session) :
    (t.step received next).written = t.written ++ Reception.images [received] := Reception.images_append ..

theorem lags_step (t : Tape) (received : Reception) (next : Session.ChannelRecording × Session) :
    (t.step received next).lags = t.lags ++ Reception.lags [received] := Reception.lags_append ..

theorem settled_step (t : Tape) (received : Reception) (next : Session.ChannelRecording × Session) :
    (t.step received next).settled
      = t.settled + ((Reception.images [received]).length + (Reception.lags [received]).sum) := by
  rw [settled, settled, written_step, lags_step, List.length_append, List.sum_append]
  omega

theorem payload_written (t : Tape) : ∀ i ∈ t.written.map EmittedImage.shot, i.payload ≠ [] := by
  intro i hi
  obtain ⟨j, hj, rfl⟩ := List.mem_map.mp hi
  exact of_decide_eq_true (List.mem_filter.mp hj).2

/-- A notice is passed on in the turn in which it was received. -/
theorem noted_step (h : t.noted = t.lags.map fun n => .warned (.lagged n)) {received : Reception}
    {next : Session.ChannelRecording × Session}
    (hjournal : next.2.journal
      = ((Reception.lags [received]).map fun n => Event.warned (.lagged n)).reverse ++ t.session.journal) :
    (t.step received next).noted = (t.step received next).lags.map fun n => .warned (.lagged n) := by
  rw [lags_step, List.map_append, ← h, step, Session.eventsSince_eq hjournal]

/-- Nothing but a notice adds to the notices. -/
theorem unmissed_step (h : t.published.length ≤ x.capacity → t.lags = []) {received : Reception}
    (hnone : Reception.lags [received] = []) (next : Session.ChannelRecording × Session) :
    (t.step received next).published.length ≤ x.capacity → (t.step received next).lags = [] := by
  intro hfew
  rw [lags_step, h hfew, hnone, List.append_nil]

theorem Ongoing.step {dealt pending taken rest : List EmittedImage} (h : t.Ongoing x dealt pending)
    {received : Reception} {s : Session} (hsplit : pending = taken ++ rest) (htakes : received.Takes taken)
    (hne : Reception.NoneEmpty [received])
    (hunderway : s.Underway x (t.written ++ Reception.images [received]) (dealt ++ taken) rest)
    (hbeside : Session.Beside t.session s) :
    Ongoing (t.step received (.waiting, s)) x (dealt ++ taken) rest where
  underway := by
    rw [written_step]
    exact hunderway
  own := by
    show x.receiver < (s.subscribe x.output).1
    rw [hbeside.numbers]
    exact h.own
  published := by
    rw [List.append_assoc, ← hsplit]
    exact h.published
  received := h.received.next htakes
  noneEmpty := h.noneEmpty.append hne

/-- **A turn keeps the account.**  It finishes the recording only when nobody holds on to the channel; and if nobody
does, it ends the recording or settles an image at least. -/
theorem Sound.turn (h : t.Sound x c width height) (hx : x.BegunFor c width height) (hrun : t.running = true) :
    let next := t.turn x.recording x.output x.receiver
    next.Sound x c width height ∧ (∀ n, next.state = .finished n → t.session.isHeld x.output = false) ∧
      (t.session.isHeld x.output = false → next.running = true → t.settled < next.settled) := by
  obtain ⟨dealt, pending, hongoing⟩ := h.ongoing hrun
  have hstep := hongoing.underway.recordNext
  have hbeside := t.session.recordNext_beside x.recording x.output x.receiver
  intro next
  have hnext : next = t.step (t.session.receive x.output x.receiver).1
      (t.session.recordNext x.recording x.output x.receiver) := if_pos hrun
  rw [hnext]
  generalize (t.session.receive x.output x.receiver).1 = received at hstep
  generalize t.session.recordNext x.recording x.output x.receiver = result at hstep hbeside
  obtain ⟨state, s⟩ := result
  rw [settled_step]
  cases hstep with
  | @wrote i rest _ hpending hne hunderway hjournal =>
    have himages := Reception.images_image_of_ne hne
    have hsingle : Reception.NoneEmpty [.image i] := by simpa [Reception.NoneEmpty] using hne
    have hthen : Ongoing (t.step (.image i) (.waiting, s)) x (dealt ++ [i]) rest :=
      hongoing.step hpending rfl hsingle (by rwa [himages]) hbeside
    refine ⟨hthen.sound hx rfl (noted_step h.noted hjournal) (unmissed_step h.unmissed rfl _), nofun, fun _ _ => ?_⟩
    rw [himages, List.length_singleton]
    omega
  | @lagged missed rest _ hpending hmissed hmany hunderway hjournal =>
    have hnone : Reception.NoneEmpty [.lagged missed.length] := by simp [Reception.NoneEmpty]
    have hthen : Ongoing (t.step (.lagged missed.length) (.waiting, s)) x (dealt ++ missed) rest :=
      hongoing.step hpending ⟨hmissed, rfl⟩ hnone (by rwa [← List.append_nil t.written] at hunderway) hbeside
    have hcrowded : x.capacity < t.published.length := by
      rw [hongoing.published, List.length_append]
      omega
    refine ⟨hthen.sound hx rfl (noted_step h.noted hjournal) fun hfew => absurd hcrowded (Nat.not_lt_of_le hfew), nofun,
      fun _ _ => ?_⟩
    have hpos : 0 < missed.length := List.length_pos_iff.mpr hmissed
    have hsum : (Reception.lags [.lagged missed.length]).sum = missed.length := by
      simp [Reception.lags, Reception.missed?]
    omega
  | idle hpending hheld hunderway hjournal =>
    have hnone : Reception.NoneEmpty [.nothing] := by simp [Reception.NoneEmpty]
    have hthen : Ongoing (t.step .nothing (.waiting, s)) x (dealt ++ []) [] :=
      hongoing.step hpending rfl hnone
        (by rwa [← List.append_nil t.written, ← List.append_nil dealt] at hunderway) hbeside
    refine ⟨hthen.sound hx rfl (noted_step h.noted hjournal) (unmissed_step h.unmissed rfl _), nofun,
      fun hopen => ?_⟩
    rw [hheld] at hopen
    cases hopen
  | @stopped i rest _ hpending hempty hread hjournal =>
    have hwritten : (t.step (.image i) (.stopped (ChannelTask.emptyAfter t.written.length), s)).written = t.written := by
      rw [written_step, Reception.images_image_of_eq hempty, List.append_nil]
    rw [hx.content_eq] at hread
    refine ⟨⟨?_, noted_step h.noted hjournal, unmissed_step h.unmissed rfl _, nofun⟩, nofun, nofun⟩
    refine ⟨t.received, i, dealt, rest, rfl, hempty, hpending ▸ hongoing.published, hongoing.received,
      hongoing.noneEmpty, ?_, ?_⟩
    · rw [hwritten]
    · rw [hwritten]
      exact FileTree.hasRecorded hread t.payload_written
  | finished hpending hheld hread hjournal =>
    have hwritten : (t.step .nothing (.finished t.written.length, s)).written = t.written := by
      rw [written_step]
      exact List.append_nil _
    have hall : t.published = dealt ++ [] := hpending ▸ hongoing.published
    have hnone : Reception.NoneEmpty [.nothing] := by simp [Reception.NoneEmpty]
    rw [hx.closed_eq] at hread
    refine ⟨⟨?_, noted_step h.noted hjournal, unmissed_step h.unmissed rfl _, nofun⟩, fun _ _ => hheld, nofun⟩
    refine ⟨?_, hongoing.noneEmpty.append hnone, ?_, ?_⟩
    · show Reception.Accounts (t.received ++ [.nothing]) t.published
      rw [hall]
      exact hongoing.received.next rfl
    · rw [hwritten]
    · rw [hwritten]
      exact FileTree.hasRecorded hread t.payload_written

theorem turn_of_not_running (h : t.running ≠ true) (r : Ref .recording) (o : Ref .output) (receiver : Nat) :
    t.turn r o receiver = t := if_neg h

theorem Sound.play (h : t.Sound x c width height) (hx : x.BegunFor c width height) {m : Move}
    (hm : m.LeavesReceiver x.output x.receiver) :
    (t.play x.recording x.output x.receiver m).Sound x c width height := by
  cases m with
  | turn =>
    by_cases hrun : t.running = true
    · exact (h.turn hx hrun).1
    · rw [Tape.play, turn_of_not_running hrun]
      exact h
  | publish i =>
    have hsame : (t.session.present ⟨x.output, none⟩ i).2.files = t.session.files ∧
        (t.session.present ⟨x.output, none⟩ i).2.recordings = t.session.recordings := by
      unfold Session.present
      dsimp only
      split <;> exact ⟨rfl, rfl⟩
    refine h.goOn hx hsame.1 hsame.2 fun k hk => ⟨_, Session.channel?_present _ _ i hk, ?_⟩
    rw [if_pos rfl]
    exact Channel.sends_send x.receiver k i
  | act a =>
    have hlasting := Lasting.perform t.session a
    exact h.goOn hx hlasting.files hlasting.recordings fun k hk => Session.channel?_perform hm hk

theorem run_append (r : Ref .recording) (o : Ref .output) (receiver : Nat) (t : Tape) (moves : List Move) (m : Move) :
    t.run r o receiver (moves ++ [m]) = (t.run r o receiver moves).play r o receiver m := List.foldl_append

theorem Sound.run (hx : x.BegunFor c width height) (moves : List Move)
    (hm : ∀ m ∈ moves, m.LeavesReceiver x.output x.receiver) {t : Tape} (h : t.Sound x c width height) :
    (t.run x.recording x.output x.receiver moves).Sound x c width height := by
  induction moves generalizing t with
  | nil => exact h
  | cons m rest ih =>
    obtain ⟨hfirst, hrest⟩ := List.forall_mem_cons.mp hm
    exact ih hrest (h.play hx hfirst)

theorem Sound.sublist (h : t.Sound x c width height) : t.written.Sublist t.published := by
  have haccounted := h.accounted
  rw [Accounted] at haccounted
  cases hstate : t.state with
  | waiting =>
    rw [hstate] at haccounted
    obtain ⟨⟨dealt, pending, hpublished, hreceived, -⟩, -⟩ := haccounted
    rw [hpublished]
    exact hreceived.sublist.trans (List.sublist_append_left ..)
  | finished n =>
    rw [hstate] at haccounted
    exact haccounted.1.sublist
  | stopped e =>
    rw [hstate] at haccounted
    obtain ⟨before, i, dealt, rest, hreceived, hempty, hpublished, hbefore, -⟩ := haccounted
    rw [written, hreceived, hpublished, Reception.images_append, Reception.images_image_of_eq hempty, List.append_nil]
    exact hbefore.sublist.trans (List.sublist_append_left ..)

/-- No more is settled than was published. -/
theorem Sound.settled_le (h : t.Sound x c width height) (hrun : t.running = true) :
    t.settled ≤ t.published.length := by
  obtain ⟨dealt, pending, hongoing⟩ := h.ongoing hrun
  have hdealt := hongoing.received.length hongoing.noneEmpty
  rw [hongoing.published, List.length_append, hdealt]
  exact Nat.le_add_right _ _

/-! ### How a recording ends -/

/-- What finished a recording was a turn when nobody held on to the channel. -/
theorem finished_run (hx : x.BegunFor c width height) {t : Tape} (h : t.Sound x c width height)
    (hrun : t.running = true) (moves : List Move) (hm : ∀ m ∈ moves, m.LeavesReceiver x.output x.receiver) {n : Nat}
    (hfinished : (t.run x.recording x.output x.receiver moves).state = .finished n) :
    ∃ past later, moves = past ++ .turn :: later ∧ (t.run x.recording x.output x.receiver past).running = true ∧
      (t.run x.recording x.output x.receiver past).session.isHeld x.output = false := by
  induction moves using List.reverseRecOn with
  | nil =>
    have hwaiting : t.state = .waiting := running_iff.mp hrun
    rw [Tape.run, List.foldl_nil, hwaiting] at hfinished
    cases hfinished
  | append_singleton moves m ih =>
    have hbefore : ∀ m ∈ moves, m.LeavesReceiver x.output x.receiver := fun m hmem =>
      hm m (List.mem_append_left _ hmem)
    have hsound := h.run hx moves hbefore
    rw [run_append] at hfinished
    set u := t.run x.recording x.output x.receiver moves with hu
    by_cases hturn : m.isTurn = true ∧ u.running = true
    · obtain ⟨hm', hrun'⟩ := hturn
      cases m with
      | turn => exact ⟨moves, [], rfl, hrun', (hsound.turn hx hrun').2.1 n hfinished⟩
      | publish _ | act _ => cases hm'
    · -- the recording had finished before
      have hsame : (u.play x.recording x.output x.receiver m).state = u.state := by
        cases m with
        | turn =>
          rw [Tape.play, turn_of_not_running fun hrun' => hturn ⟨rfl, hrun'⟩]
        | publish _ | act _ => rfl
      rw [hsame] at hfinished
      obtain ⟨past, later, rfl, hpast⟩ := ih hbefore hfinished
      exact ⟨past, later ++ [m], by rw [List.append_assoc, List.cons_append], hpast⟩

/-- While nobody holds on to the channel, every turn that does not end the recording settles an image at least. -/
theorem settled_run (hx : x.BegunFor c width height) {t : Tape} (h : t.Sound x c width height) (more : List Move)
    (hm : ∀ m ∈ more, m.LeavesReceiver x.output x.receiver)
    (hclosed : ∀ mid, mid <+: more → (t.run x.recording x.output x.receiver mid).session.isHeld x.output = false)
    (hrun : (t.run x.recording x.output x.receiver more).running = true) :
    t.settled + more.countP Move.isTurn ≤ (t.run x.recording x.output x.receiver more).settled := by
  induction more using List.reverseRecOn with
  | nil => exact Nat.le_refl _
  | append_singleton more m ih =>
    have hbefore : ∀ m ∈ more, m.LeavesReceiver x.output x.receiver := fun m hmem =>
      hm m (List.mem_append_left _ hmem)
    have hsound := h.run hx more hbefore
    have hopen := hclosed more (List.prefix_append ..)
    have hih := ih hbefore fun mid hmid => hclosed mid (hmid.trans (List.prefix_append ..))
    rw [run_append] at hrun ⊢
    set u := t.run x.recording x.output x.receiver more with hu
    rw [List.countP_append, List.countP_singleton]
    cases m with
    | turn =>
      have hrun' : u.running = true := by
        by_contra hended
        rw [Tape.play, turn_of_not_running hended] at hrun
        exact hended hrun
      have hmore := (hsound.turn hx hrun').2.2 hopen hrun
      have hcount := hih hrun'
      simp only [Move.isTurn, if_true]
      exact Nat.lt_of_le_of_lt hcount hmore
    | publish _ | act _ =>
      simp only [Move.isTurn, Bool.false_eq_true, if_false, Nat.add_zero]
      exact hih hrun

end Tape

/-- **Every image published is accounted for.**  While a channel is recorded the session may go on in any order, as
long as the receiver is left to the recording.  The images written are a part of those published, in their order, and
each notice of missed images is passed on; there is none as long as the channel has room for all images.  While the
recording runs, and when it has finished, the images published are written or counted in notices, one after the other,
but for those still pending; it stops only at an empty image, after which nothing is written any more.  The file then
holds the images written and no others.  The recording finishes in a turn after the channel was closed; and once it is
closed, the recording ends when it has had a turn more than there are images left to settle. -/
theorem published_accounted_for {s₀ s₁ : Session} {path : String} {c : Codec} {width height : UInt32}
    {r : Ref .recording} {o : Ref .output} {k : Channel}
    (hadd : s₀.addRecording path c width height = (.ok r, s₁)) (hk : s₁.channel? o = some k) (moves : List Move)
    (hleaves : ∀ m ∈ moves, m.LeavesReceiver o (s₁.subscribe o).1) :
    let run : List Move → Tape := Tape.run r o (s₁.subscribe o).1 { session := (s₁.subscribe o).2 }
    (run moves).written.Sublist (run moves).published ∧
    (run moves).noted = (run moves).lags.map (fun n => .warned (.lagged n)) ∧
    ((run moves).published.length ≤ k.capacity → (run moves).lags = []) ∧
    (run moves).Accounted o (s₁.subscribe o).1 path c width height ∧
    (∀ n, (run moves).state = .finished n → ∃ past later, moves = past ++ .turn :: later ∧
      (run past).running = true ∧ (run past).session.isHeld o = false) ∧
    ∀ past more, moves = past ++ more → (∀ mid, mid <+: more → (run (past ++ mid)).session.isHeld o = false) →
      (run moves).published.length < (run past).settled + more.countP Move.isTurn →
      (run moves).running = false := by
  intro run
  have hx : ChannelTask.BegunFor ⟨r, path, Container.ofCodec c, Container.lead c width height, o, (s₁.subscribe o).1,
      k.capacity⟩ c width height := ⟨rfl, rfl⟩
  have hstart := Tape.sound_start hadd hk
  have hsound := hstart.run hx moves hleaves
  refine ⟨hsound.sublist, hsound.noted, hsound.unmissed, hsound.accounted,
    fun n hn => Tape.finished_run hx hstart rfl moves hleaves hn, fun past more hmoves hclosed hmany => ?_⟩
  subst hmoves
  -- the rest of the tape begins where its past ends
  have hsplit : ∀ rest, run (past ++ rest) = Tape.run r o (s₁.subscribe o).1 (run past) rest := fun rest =>
    List.foldl_append
  have hpast := hstart.run hx past fun m hm => hleaves m (List.mem_append_left _ hm)
  rw [Bool.eq_false_iff]
  intro hrunning
  have hsettled : (run past).settled + more.countP Move.isTurn ≤ (run (past ++ more)).settled := by
    rw [hsplit] at hrunning ⊢
    exact Tape.settled_run hx hpast more (fun m hm => hleaves m (List.mem_append_right _ hm))
      (fun mid hmid => (hsplit mid) ▸ hclosed mid hmid) hrunning
  have hle : (run (past ++ more)).settled ≤ (run (past ++ more)).published.length := hsound.settled_le hrunning
  omega

/-- An image with the RTP time and the payload, and nothing special otherwise. -/
def sample (rtp : UInt32) (data : Octets) : EmittedImage where
  image :=
    { data, width := 320, height := 240, rtp := ⟨rtp, false⟩, captureMs := ⟨0, false⟩, ntpMs := 0, rotation := .deg0
      color := none, frameType := .delta, layer := none, hasParameterSets := false }
  info := ⟨.vp8, none, none, false⟩

/-- A channel that keeps two images. -/
def narrow : Session := (({} : Session).addOutput (.channel { capacity := 2 })).2

/-- A VP8 recording besides the channel. -/
def begunNarrow : Session := (narrow.addRecording "out" .vp8 320 240).2

theorem addRecording_begunNarrow : narrow.addRecording "out" .vp8 320 240 = (.ok ⟨1⟩, begunNarrow) :=
  Prod.ext (by cbv) rfl

/-- The recording of the channel after some moves. -/
def narrowTape (moves : List Move) : Tape := Tape.run ⟨1⟩ ⟨1⟩ 1 { session := (begunNarrow.subscribe ⟨1⟩).2 } moves

/-- Of four images one is missed; then the channel is closed. -/
def overtaken : List Move :=
  [.publish (sample 0 [1]), .turn, .publish (sample 1 [2]), .publish (sample 2 [3]), .publish (sample 3 [4]), .turn,
    .act (.dropOutput ⟨1⟩), .turn, .turn, .turn]

/-- The second of three images is empty. -/
def interrupted : List Move :=
  [.publish (sample 0 [1]), .turn, .publish (sample 1 []), .publish (sample 2 [3]), .turn, .turn]

theorem published_accounted_for_overtaken :
    ((narrowTape overtaken).state = .finished 3 ∧ (narrowTape overtaken).lags = [1] ∧
      Reception.Accounts (narrowTape overtaken).received (narrowTape overtaken).published ∧
      (narrowTape overtaken).session.files.HasRecorded "out" .vp8 320 240 3 [⟨0, [1]⟩, ⟨2, [3]⟩, ⟨3, [4]⟩]) ∧
    (narrowTape interrupted).state = .stopped (.withContext "recording stopped after 1 frame(s)" .emptyPayload) ∧
      (narrowTape interrupted).session.files.HasRecorded "out" .vp8 320 240 0 [⟨0, [1]⟩] := by
  have hchannel : begunNarrow.channel? ⟨1⟩ = some { capacity := 2 } := by cbv
  have hover : ∀ m ∈ overtaken, m.LeavesReceiver ⟨1⟩ (begunNarrow.subscribe ⟨1⟩).1 := by
    simp [overtaken, Move.LeavesReceiver, Action.LeavesReceiver]
  have hinter : ∀ m ∈ interrupted, m.LeavesReceiver ⟨1⟩ (begunNarrow.subscribe ⟨1⟩).1 := by
    simp [interrupted, Move.LeavesReceiver]
  obtain ⟨-, -, -, hfinished, -⟩ := published_accounted_for addRecording_begunNarrow hchannel overtaken hover
  obtain ⟨-, -, -, hstopped, -⟩ := published_accounted_for addRecording_begunNarrow hchannel interrupted hinter
  have hnumber : (begunNarrow.subscribe ⟨1⟩).1 = 1 := by cbv
  rw [hnumber] at hfinished hstopped
  change (narrowTape overtaken).Accounted ⟨1⟩ 1 "out" .vp8 320 240 at hfinished
  change (narrowTape interrupted).Accounted ⟨1⟩ 1 "out" .vp8 320 240 at hstopped
  have hends : (narrowTape overtaken).state = .finished 3 ∧ (narrowTape overtaken).lags = [1] ∧
      (narrowTape overtaken).written.map EmittedImage.shot = [⟨0, [1]⟩, ⟨2, [3]⟩, ⟨3, [4]⟩] := by
    cbv
  have hbreaks : (narrowTape interrupted).state
        = .stopped (.withContext "recording stopped after 1 frame(s)" .emptyPayload) ∧
      (narrowTape interrupted).written.map EmittedImage.shot = [⟨0, [1]⟩] := by
    cbv
  rw [Tape.Accounted, hends.1, hends.2.2] at hfinished
  rw [Tape.Accounted, hbreaks.1, hbreaks.2] at hstopped
  obtain ⟨haccounts, -, -, hfile⟩ := hfinished
  obtain ⟨-, -, -, -, -, -, -, -, -, -, hfile'⟩ := hstopped
  exact ⟨⟨hends.1, hends.2.1, haccounts, hfile⟩, hbreaks.1, hfile'⟩

end EncodedFeed
