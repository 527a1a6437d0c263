import EncodedFeed.Proofs.Lane.Flow
import EncodedFeed.Proofs.Lane.Wiring
import EncodedFeed.Proofs.Recording.Turns
import EncodedFeed.Proofs.Registry.Views
import EncodedFeed.Proofs.Session.Checked
import EncodedFeed.Replay.Run
import Mathlib.Tactic.Set

/-!
# The parts of a replay

A replay that gets going has a lane in working order, with a channel as its output that forgets no image, and
its recording, if there is one, has written nothing but the header.  What is let go of at the end leaves the
channel and the recording as they are, so that the recording takes over every image.
-/

open private Nat.nextPowerOfTwo.go from Init.Data.Nat.Power2.Basic

namespace EncodedFeed

theorem le_nextPowerOfTwo (n : Nat) : n ≤ n.nextPowerOfTwo := by
  have hgo : ∀ p (h : p > 0), n ≤ Nat.nextPowerOfTwo.go n p h := by
    intro p h
    induction hk : n - p using Nat.strongRecOn generalizing p with
    | ind k ih =>
      unfold Nat.nextPowerOfTwo.go
      split
      · exact ih _ (by omega) _ _ rfl
      · omega
  exact hgo 1 _

namespace Channel

/-- A channel with the one receiver, or none, that has forgotten no image yet and has room for more. -/
structure Keeps (c : Channel) (receivers : List Nat) (images : List EmittedImage) (room : Nat) : Prop where
  cursors : c.cursors = receivers.map fun n => (n, 0)
  sent : receivers ≠ [] → c.sent.toList = images
  room : receivers ≠ [] → images.length + room ≤ c.capacity

theorem Keeps.send {c : Channel} {rs : List Nat} {images : List EmittedImage} {room : Nat}
    (h : c.Keeps rs images (room + 1)) (i : EmittedImage) : (c.send i).Keeps rs (images ++ [i]) room := by
  unfold Channel.send
  split
  · next hnil =>
    have hrs : rs = [] := by
      rw [h.cursors] at hnil
      exact List.map_eq_nil_iff.mp hnil
    exact ⟨h.cursors, fun hne => absurd hrs hne, fun hne => absurd hrs hne⟩
  · refine ⟨h.cursors, fun hne => ?_, fun hne => ?_⟩
    · rw [Array.toList_push, h.sent hne]
    · have hroom : images.length + (room + 1) ≤ c.capacity := h.room hne
      rw [List.length_append, List.length_singleton, Nat.add_assoc, Nat.add_comm 1]
      exact hroom

/-- All images are pending for the receiver, and the channel has room for them. -/
theorem Keeps.serves {c : Channel} {n room : Nat} {images : List EmittedImage} (h : c.Keeps [n] images room) :
    c.Serves n [] images ∧ images.length ≤ c.capacity ∧ c.waiting n = images := by
  have hsent := h.sent (by simp)
  have hroom := h.room (by simp)
  have hcursor : c.cursors.lookup n = some 0 := by simp [h.cursors]
  refine ⟨⟨[], hsent, hcursor⟩, by omega, ?_⟩
  have hsize : c.sent.size = images.length := by rw [← hsent, Array.length_toList]
  have holdest : c.oldest = 0 := by
    rw [oldest, hsize]
    omega
  rw [Channel.waiting, cursor, hcursor, holdest, hsent]
  rfl

theorem keeps_ofCapacity (n : Nat) (images : List EmittedImage) (room : Nat) :
    (ofCapacity n).Keeps [] images room :=
  ⟨rfl, fun h => absurd rfl h, fun h => absurd rfl h⟩

/-- A channel made for as many images as are sent. -/
theorem keeps_subscribe {n room : Nat} (h : room ≤ n) :
    (ofCapacity n).subscribe.2.Keeps [(ofCapacity n).nextReceiver] [] room := by
  refine ⟨rfl, fun _ => rfl, fun _ => ?_⟩
  have hpow : max n 1 ≤ (max n 1).nextPowerOfTwo := le_nextPowerOfTwo _
  show 0 + room ≤ (max n 1).nextPowerOfTwo
  omega

end Channel

/-! ### Letting go -/

namespace Session

variable {s : Session}

/-- Channels, observers, recordings, files and the journal are the same. -/
structure Settled (s t : Session) : Prop where
  output (o : Ref .output) : t.output? o = s.output? o
  observers : t.observers = s.observers
  recordings : t.recordings = s.recordings
  files : t.files = s.files
  journal : t.journal = s.journal

theorem Settled.trans {s t u : Session} (h : Settled s t) (h' : Settled t u) : Settled s u :=
  ⟨fun o => (h'.output o).trans (h.output o), h'.observers.trans h.observers, h'.recordings.trans h.recordings,
    h'.files.trans h.files, h'.journal.trans h.journal⟩

theorem settled_of_outputs_eq {t : Session} (ho : t.outputs = s.outputs) (hob : t.observers = s.observers)
    (hr : t.recordings = s.recordings) (hf : t.files = s.files) (hj : t.journal = s.journal) :
    Settled s t :=
  ⟨fun o => by rw [output?, ho]; rfl, hob, hr, hf, hj⟩

theorem settled_removeTaps (taps : List (RoutingId × TapId)) (s : Session) :
    let t := taps.foldl (fun s a => (s.removeTap a.1 a.2).2) s
    Settled s t ∧ t.encoders = s.encoders := by
  induction taps generalizing s with
  | nil => exact ⟨settled_of_outputs_eq rfl rfl rfl rfl rfl, rfl⟩
  | cons a rest ih =>
    obtain ⟨hsettled, henc⟩ := ih (s.removeTap a.1 a.2).2
    have hfirst : Settled s (s.removeTap a.1 a.2).2 := settled_of_outputs_eq rfl rfl rfl rfl rfl
    exact ⟨hfirst.trans hsettled, henc⟩

theorem settled_detach (s : Session) (p : Ref .pipeline) :
    Settled s (s.detach p) ∧ (s.detach p).encoders = s.encoders := by
  unfold detach
  split
  · exact ⟨settled_of_outputs_eq rfl rfl rfl rfl rfl, rfl⟩
  · next x _ =>
    obtain ⟨hsettled, henc⟩ := settled_removeTaps x.attachments
      (s.modifyPipeline p fun x => { x with attachments := [] })
    have hclear : Settled s (s.modifyPipeline p fun x => { x with attachments := [] }) :=
      settled_of_outputs_eq rfl rfl rfl rfl rfl
    exact ⟨hclear.trans hsettled, henc⟩

/-- A pipeline around a passthrough encoder goes without a word, and its encoder with it. -/
theorem settled_dropPipeline {p : Ref .pipeline} {x : Pipeline} {q : Passthrough}
    (hp : s.pipeline? p = some x) (he : s.encoder? x.encoder = some (.passthrough q)) :
    Settled s (s.dropPipeline p) ∧ (s.dropPipeline p).encoders = s.encoders.erase x.encoder.number := by
  obtain ⟨hsettled, henc⟩ := s.settled_detach p
  have he' : (s.detach p).encoder? x.encoder = some (.passthrough q) := by rw [encoder?, henc]; exact he
  have hcall : (s.detach p).call x.encoder .release
      = (.ok .noOutput, (s.detach p).setEncoder x.encoder (.passthrough q.release)) := by
    rw [call, he']
    rfl
  simp only [dropPipeline, hp, hcall, checkRelease]
  refine ⟨hsettled.trans (settled_of_outputs_eq rfl rfl rfl rfl rfl), ?_⟩
  rw [dropEncoder, setEncoder, Table.erase_modify, henc]

theorem settled_dropOutput (s : Session) (o : Ref .output) : Settled s (s.dropOutput o) where
  output o' := by
    simp only [output?, dropOutput, Table.get?_modify]
    split
    · rw [Option.map_map]; rfl
    · rfl
  observers := rfl
  recordings := rfl
  files := rfl
  journal := rfl

theorem settled_dropHandle (s : Session) (id : RoutingId) :
    Settled s (s.dropHandle id) ∧ (s.dropHandle id).outputs = s.outputs ∧
      (s.dropHandle id).encoders = s.encoders := by
  unfold dropHandle
  split
  · exact ⟨settled_of_outputs_eq rfl rfl rfl rfl rfl, rfl, rfl⟩
  · split <;> exact ⟨settled_of_outputs_eq rfl rfl rfl rfl rfl, rfl, rfl⟩

end Session

namespace Replay

/-! ### Taking a replay up -/

section
variable {x : Setup} {s t : Session} {o : Ref .output}

/-- The recording of a replay, if there is one, has begun; the channel keeps what it is sent for it. -/
structure Listening (x : Setup) (recording : Option (Ref .recording × Nat)) (c : Channel) (s : Session) :
    Prop where
  keeps : c.Keeps (recording.toList.map Prod.snd) [] x.input.frames.length
  none : x.output = none → recording = none
  records (path : String) : x.output = some path → ∃ r n, recording = some (r, n) ∧
    s.Records r path (Container.ofCodec x.input.codec)
      (Container.lead x.input.codec x.input.resolution.width x.input.resolution.height) 0 0

theorem openRecording_ok {recording : Option (Ref .recording × Nat)}
    (ho : s.output? o = some (.channel (Channel.ofCapacity x.capacity)))
    (h : openRecording x o s = (.ok recording, t)) :
    ∃ c, t.output? o = some (.channel c) ∧ Listening x recording c t ∧ t.sources = s.sources ∧
      t.encoders = s.encoders ∧ t.observers = s.observers ∧ t.journal = s.journal := by
  unfold openRecording at h
  cases hx : x.output with
  | none =>
    rw [hx] at h
    cases h
    refine ⟨_, ho, ⟨Channel.keeps_ofCapacity _ _ _, fun _ => rfl, fun path hpath => ?_⟩, rfl, rfl, rfl, rfl⟩
    rw [hx] at hpath
    cases hpath
  | some path =>
    rw [hx] at h
    dsimp only at h
    cases hadd : s.addRecording path x.input.codec x.input.resolution.width x.input.resolution.height with
    | mk result u =>
    rw [hadd] at h
    cases result with
    | error e => cases h
    | ok r =>
      have hrec := Session.records_addRecording hadd
      have hsame : u.outputs = s.outputs ∧ u.sources = s.sources ∧ u.encoders = s.encoders ∧
          u.observers = s.observers ∧ u.journal = s.journal := by
        unfold Session.addRecording at hadd
        split at hadd
        · cases hadd
        · cases hadd
          exact ⟨rfl, rfl, rfl, rfl, rfl⟩
      obtain ⟨houtputs, hsources, hencoders, hobservers, hjournal⟩ := hsame
      have hout : u.output? o = some (.channel (Channel.ofCapacity x.capacity)) := by
        rw [Session.output?, houtputs]
        exact ho
      have hchannel : u.channel? o = some (Channel.ofCapacity x.capacity) := by
        rw [Session.channel?, hout]
        rfl
      simp only [Session.subscribe, hchannel, Option.map_some, Option.getD_some, Prod.mk.injEq,
        Except.ok.injEq] at h
      obtain ⟨rfl, rfl⟩ := h
      refine ⟨(Channel.ofCapacity x.capacity).subscribe.2, ?_, ⟨?_, ?_, ?_⟩, hsources, hencoders, hobservers,
        hjournal⟩
      · obtain ⟨slot, hslot, hsout⟩ := Option.map_eq_some_iff.mp hout
        simp only [Session.output?, Session.modifyChannel, Session.modifyOutput, Table.get?_modify, if_true,
          hslot, Option.map_some, hsout]
      · exact Channel.keeps_subscribe (Nat.le_max_left _ _)
      · intro hnone
        rw [hx] at hnone
        cases hnone
      · intro path' hpath
        rw [hx, Option.some.injEq] at hpath
        exact ⟨r, _, rfl, hpath ▸ hrec⟩

/-- The lane of a replay. -/
def Parts.lane (p : Parts) : Lane := ⟨p.source, p.pipeline, ⟨1⟩, p.output⟩

/-- A replay that can begin: nothing has happened, nothing was counted or stamped yet, and besides its own encoder
there is none. -/
structure Ready (x : Setup) (p : Parts) (y : Lane.State) (s : Session) : Prop where
  source : p.source = ⟨1⟩
  output : p.output = ⟨1⟩
  has : s.Has p.lane y
  wired : y.Wired p.lane
  flowing : y.Flowing
  aligner : y.source.pump.aligner = {}
  depth : y.source.warnDepth = x.source.warnDepth
  stats : y.pipeline.stats = {}
  untold : requests s p.observer = 0
  alone : s.encoders.next = 2
  journal : s.journal = []
  channel : ∃ c, y.output = .channel c ∧ Listening x p.recording c s

/-- The session of a replay before anything can fail: there are a watched source and a channel. -/
def staged (x : Setup) (files : FileTree) : Session :=
  let s := (({ files } : Session).addRegistry.2.addSource ⟨1⟩ x.sourceConfig).2
  ((s.addObserver.2.watch ⟨1⟩ (some ⟨⟨1⟩, none⟩)).addOutput (.channel (Channel.ofCapacity x.capacity))).2

/-- The encoder of a replay. -/
def Setup.passthrough (x : Setup) : Passthrough := Passthrough.make (.bound ⟨1⟩) x.input.codec x.encoder none

/-- The factory makes the encoder that it is asked for, so that a replay is connected if its pipeline can be made. -/
theorem connect_eq (recording : Option (Ref .recording × Nat)) (s : Session) : connect x ⟨1⟩ ⟨1⟩ ⟨1⟩ recording s =
    match (s.addEncoder (.passthrough x.passthrough)).2.addPipeline ⟨s.encoders.next⟩ x.settings ⟨1⟩ with
    | (.error e, s) => (.error (.failed e), s)
    | (.ok pipeline, s) => (.ok ⟨⟨1⟩, ⟨1⟩, ⟨1⟩, recording, pipeline⟩, (s.attach pipeline ⟨1⟩).2) := by
  have hmade : s.create? (.passthrough (x.factory ⟨1⟩)) x.format
      = (some ⟨s.encoders.next⟩, (s.addEncoder (.passthrough x.passthrough)).2) :=
    PassthroughFactory.create?_own rfl _
  unfold connect
  generalize s.create? (.passthrough (x.factory ⟨1⟩)) x.format = made at hmade ⊢
  subst hmade
  rfl

theorem assemble_eq (hplaceholder : x.source.placeholder.HasPicture) (files : FileTree) : assemble x { files } =
    match openRecording x ⟨1⟩ (staged x files) with
    | (.error e, s) => (.error (.failed e), s)
    | (.ok recording, s) => connect x ⟨1⟩ ⟨1⟩ ⟨1⟩ recording s := by
  have hadd : ({ files } : Session).addRegistry.2.addSource? ⟨1⟩ x.sourceConfig
      = some (({ files } : Session).addRegistry.2.addSource ⟨1⟩ x.sourceConfig) :=
    (Session.addSource?_eq _ _ _).trans (if_pos hplaceholder)
  unfold assemble
  dsimp only
  rw [show ({ files } : Session).addRegistry.1 = ⟨1⟩ from rfl, hadd]
  rfl

/-- There is a picture of the size of the placeholder in a replay that gets going. -/
theorem hasPicture_of_assemble {files : FileTree} {p : Parts} (h : assemble x { files } = (.ok p, s)) :
    x.source.placeholder.HasPicture := by
  by_contra hno
  have hnone : ({ files } : Session).addRegistry.2.addSource? ⟨1⟩ x.sourceConfig = none :=
    (Session.addSource?_eq _ _ _).trans (if_neg hno)
  unfold assemble at h
  dsimp only at h
  rw [show ({ files } : Session).addRegistry.1 = ⟨1⟩ from rfl, hnone] at h
  cases h

/-- The source of a replay before a pipeline is attached to it. -/
def Setup.fresh (x : Setup) : Source :=
  { Source.ofConfig x.sourceConfig ⟨1⟩ with watcher := some ⟨⟨1⟩, none⟩ }

theorem assemble_ok {files : FileTree} {p : Parts} (h : assemble x { files } = (.ok p, s)) :
    ∃ y, Ready x p y s := by
  rw [assemble_eq (hasPicture_of_assemble h)] at h
  cases hopen : openRecording x ⟨1⟩ (staged x files) with
  | mk result u =>
  rw [hopen] at h
  cases result with
  | error e => cases h
  | ok recording =>
  obtain ⟨c, hout, hlisten, hsources, hencoders, hobservers, hjournal⟩ := openRecording_ok rfl hopen
  have hnext : u.encoders.next = 1 := by rw [hencoders]; rfl
  dsimp only at h
  rw [connect_eq, hnext] at h
  set v := (u.addEncoder (.passthrough x.passthrough)).2
  have hsource : v.source? ⟨1⟩ = some x.fresh := by
    show u.sources.get? 1 = some x.fresh
    rw [hsources]
    rfl
  have hchannel : v.output? ⟨1⟩ = some (.channel c) := hout
  have hencoder : v.encoder? ⟨1⟩ = some (.passthrough x.passthrough) := by
    show (u.encoders.add (.passthrough x.passthrough)).get? 1 = _
    rw [Table.get?_add, hnext, if_pos rfl]
  cases hadd : v.addPipeline ⟨1⟩ x.settings ⟨1⟩ with
  | mk result w =>
  rw [hadd] at h
  cases result with
  | error e => cases h
  | ok pl =>
  obtain ⟨q, hq, hhas⟩ := Session.has_attach (a := ⟨⟨1⟩, pl, ⟨1⟩, ⟨1⟩⟩) hsource hencoder hchannel hadd
  obtain ⟨_, _, _, hw⟩ := Session.addPipeline_ok hencoder hadd
  have hwsource : w.source? ⟨1⟩ = some x.fresh := by rw [hw]; exact hsource
  have hattach := Session.attach_snd hwsource pl
  have hsending : q.sending = true := by rw [Passthrough.init_ok hq]
  simp only [Prod.mk.injEq, Except.ok.injEq] at h
  obtain ⟨rfl, rfl⟩ := h
  have huntold : requests (w.attach pl ⟨1⟩).2 ⟨1⟩ = 0 := by
    have hsame : (w.attach pl ⟨1⟩).2.observers = (staged x files).observers := by
      rw [hattach, hw]
      exact hobservers
    rw [requests, hsame]
    rfl
  have halone : (w.attach pl ⟨1⟩).2.encoders.next = 2 := by
    rw [hattach, hw]
    show (Table.modify (u.encoders.add (.passthrough x.passthrough)) _ _).next = 2
    rw [Table.next_modify, Table.next_add, hnext]
  have hnothing : (w.attach pl ⟨1⟩).2.journal = [] := by
    rw [hattach, hw]
    exact hjournal
  refine ⟨_, rfl, rfl, hhas, Lane.State.wired_start _ rfl rfl rfl rfl hq, ⟨⟨rfl, hsending, trivial⟩, rfl⟩, rfl, rfl,
    rfl, huntold, halone, hnothing, c, rfl, hlisten.keeps, hlisten.none, ?_⟩
  · intro path hpath
    obtain ⟨r, n, hr, hrec⟩ := hlisten.records path hpath
    refine ⟨r, n, hr, ?_⟩
    rw [hattach, hw]
    exact hrec

end

/-! ### Bringing a replay to its end -/

/-- When all is let go of, nobody holds on to the output. -/
theorem settled_tearDown {p : Parts} {s : Session} {x : Pipeline} {q : Passthrough}
    (hp : s.pipeline? p.pipeline = some x) (he : s.encoder? x.encoder = some (.passthrough q)) :
    s.Settled (tearDown p s) ∧
      ((∀ n, (s.encoders.erase x.encoder.number).get? n = none) → (tearDown p s).isHeld p.output = false) := by
  obtain ⟨hpipeline, hencoders⟩ := Session.settled_dropPipeline hp he
  obtain ⟨hhandle, houtputs, henc⟩ := Session.settled_dropHandle ((s.dropPipeline p.pipeline).dropOutput p.output)
    p.source
  refine ⟨(hpipeline.trans (Session.settled_dropOutput _ _)).trans hhandle, fun hnone => ?_⟩
  have hleft : (tearDown p s).encoders = s.encoders.erase x.encoder.number := henc.trans hencoders
  rw [Session.isHeld, hleft, Table.toList_eq_nil hnone, tearDown, houtputs, Session.dropOutput, Table.get?_modify,
    if_pos rfl]
  cases (s.dropPipeline p.pipeline).outputs.get? p.output.number <;> rfl

/-- The recording takes over all images that the channel has kept, and is finished if nobody holds on to it. -/
theorem closeRecording_finished {p : Parts} {s : Session} {r : Ref .recording} {n room : Nat} {path : String}
    {k : Container} {w : Octets} {c : Channel} {images : List EmittedImage} (hp : p.recording = some (r, n))
    (hc : s.output? p.output = some (.channel c)) (hkeeps : c.Keeps [n] images room)
    (hrec : s.Records r path k w 0 0) (hne : ∀ i ∈ images, i.image.data ≠ [])
    (hheld : s.isHeld p.output = false) :
    ∃ t, closeRecording p s = (.ok (some images.length), t) ∧ t.journal = s.journal ∧ t.observers = s.observers ∧
      t.files.read path = .ok (k.closed images.length
        (w ++ images.flatMap fun i => Recording.entry k i.image.rtp.value i.image.data)) := by
  obtain ⟨hserves, hroom, hwaiting⟩ := hkeeps.serves
  have hchannel : s.channel? p.output = some c := by rw [Session.channel?, hc]; rfl
  have hbegun : s.Underway ⟨r, path, k, w, p.output, n, c.capacity⟩ [] [] images := by
    refine ⟨⟨0, ?_⟩, c, hchannel, rfl, hserves⟩
    rw [ChannelTask.content, List.flatMap_nil, List.append_nil]
    exact hrec
  obtain ⟨t, hturns, hjournal, hobservers, hread⟩ :=
    hbegun.recordTurns (images.length + 2) hne hroom hheld (by omega)
  rw [List.nil_append] at hturns hread
  dsimp only at hturns
  refine ⟨t, ?_, hjournal, hobservers, hread⟩
  simp only [closeRecording, hp, Session.recordChannel, hchannel, Option.map_some, Option.getD_some, hwaiting, hturns]

theorem Listening.of_settled {x : Setup} {recording : Option (Ref .recording × Nat)} {c : Channel}
    {s t : Session} (h : Listening x recording c s) (ht : s.Settled t) : Listening x recording c t where
  keeps := h.keeps
  none := h.none
  records path hpath := by
    obtain ⟨r, n, hr, hrec⟩ := h.records path hpath
    exact ⟨r, n, hr, hrec.of_eq ht.files ht.recordings⟩

/-- A replay that has ended has said nothing more, and its images are in the file, if one is wanted. -/
theorem closeRecording_ok {x : Setup} {p : Parts} {s : Session} {c₀ c : Channel} {images : List EmittedImage}
    (hlisten : Listening x p.recording c₀ s) (hc : s.output? p.output = some (.channel c))
    (hkeeps : c.Keeps (p.recording.toList.map Prod.snd) images 0) (hne : ∀ i ∈ images, i.image.data ≠ [])
    (hheld : s.isHeld p.output = false) :
    ∃ t, closeRecording p s = (.ok (x.output.map fun _ => images.length), t) ∧ t.journal = s.journal ∧
      t.observers = s.observers ∧ ∀ path, x.output = some path →
        t.files.read path = .ok ((Container.ofCodec x.input.codec).closed images.length
          (Container.lead x.input.codec x.input.resolution.width x.input.resolution.height
            ++ images.flatMap fun i =>
              Recording.entry (Container.ofCodec x.input.codec) i.image.rtp.value i.image.data)) := by
  cases hx : x.output with
  | none =>
    have hnone := hlisten.none hx
    refine ⟨s, ?_, rfl, rfl, fun path hpath => by cases hpath⟩
    rw [closeRecording, hnone]
    rfl
  | some path =>
    obtain ⟨r, n, hrecording, hrec⟩ := hlisten.records path hx
    rw [hrecording] at hkeeps
    obtain ⟨t, hclose, hjournal, hobservers, hread⟩ :=
      closeRecording_finished hrecording hc hkeeps hrec hne hheld
    refine ⟨t, hclose, hjournal, hobservers, fun path' hpath => ?_⟩
    cases hpath
    exact hread

end Replay

end EncodedFeed
