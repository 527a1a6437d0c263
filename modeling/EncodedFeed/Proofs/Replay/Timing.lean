import EncodedFeed.Proofs.Ivf.Layout
import EncodedFeed.Proofs.Recording.ReadBack
import EncodedFeed.Proofs.Replay.Parts

/-!
# The timing of a replay

Each frame of a replayed file comes out as one image, in order, and the file that is recorded holds these
images.  A frame brings its own RTP time, but a time of zero counts as none: such an image gets the time at
which the pipeline stamped its placeholder.  So an IVF file keeps its timing just if none of its times is
zero after conversion.

* `Ivf.data_of_mem_read`: what the reader finds has data, and not too much of it.
* `pushAll_of_flowing`: what pushing all frames does, by induction on them; nothing ever waits in the lane.
* `Ready.closed`: at the end all images are in the file, since the channel had room for them.
* `run_of_assemble`: what comes of a whole replay that gets going.
* `run_shows`: the images of a replay that succeeds, and the octets of its recording.
-/

namespace EncodedFeed

/-! ### What is read from a file -/

namespace Ivf

theorem data_of_mem_read {data : Octets} {f : File} (h : read data = .ok f) :
    ∀ r ∈ f.frames, r.data ≠ [] ∧ r.data.length < 0x100000000 := by
  obtain ⟨-, -, header, -, rfl⟩ := read_eq_ok_iff.mp h
  obtain ⟨tail, hlayout, -⟩ := exists_layout (firstRecord data) (data.drop (firstRecord data))
  intro r hr
  obtain ⟨hmem, hne⟩ := List.mem_filter.mp hr
  exact ⟨of_decide_eq_true hne, hlayout.fitting r hmem⟩

theorem fourcc_of_read {data : Octets} {f : File} (h : read data = .ok f) :
    ∃ fourcc, f.header.codec.fourcc = some fourcc := by
  obtain ⟨-, -, header, hheader, rfl⟩ := read_eq_ok_iff.mp h
  exact ⟨_, readHeader_eq_ok hheader⟩

/-- Times that do not wrap around are in the order of the timestamps. -/
theorem toRtp_le_toRtp {h : Header} {t u : UInt64} (htu : t ≤ u)
    (hu : u.toNat * h.scale.toNat * 90000 / h.rate.toNat < 0x100000000) : h.toRtp t ≤ h.toRtp u := by
  unfold Header.toRtp rtpOfTicks
  by_cases hrate : h.rate = 0
  · rw [if_pos hrate, if_pos hrate]
    exact UInt32.le_refl 0
  · rw [if_neg hrate, if_neg hrate, UInt32.le_iff_toNat_le]
    have hle : t.toNat * h.scale.toNat * 90000 / h.rate.toNat
        ≤ u.toNat * h.scale.toNat * 90000 / h.rate.toNat := by
      apply Nat.div_le_div_right
      apply Nat.mul_le_mul_right
      exact Nat.mul_le_mul_right _ (UInt64.le_iff_toNat_le.mp htu)
    have ht := Nat.lt_of_le_of_lt hle hu
    rw [UInt32.toNat_ofNat_of_lt' ht, UInt32.toNat_ofNat_of_lt' hu]
    exact hle

end Ivf

/-! ### Images sent one after the other -/

theorem Channel.Keeps.offerAll {rs : List Nat} (new : List EmittedImage) {c : Channel}
    {old : List EmittedImage} (h : c.Keeps rs old new.length) :
    ∃ c', (Output.channel c).offerAll new = .channel c' ∧ c'.Keeps rs (old ++ new) 0 := by
  induction new generalizing c old with
  | nil => exact ⟨c, rfl, by rwa [List.append_nil]⟩
  | cons i rest ih =>
    obtain ⟨c', hc', hkeeps⟩ := ih (h.send i)
    refine ⟨c', hc', ?_⟩
    rwa [List.append_assoc] at hkeeps

namespace Replay

/-- RTP time of an image whose frame brings a time of its own, zero counting as none. -/
def emittedRtp (own : UInt32) (stamp : Stamped Int64) : UInt32 :=
  if own ≠ 0 then own else rtpOfMicros stamp.value

/-- Stamps of the placeholders of `n` frames, the first of which has the given index. -/
def stamps (x : Setup) (now : Int64) (a : Aligner) (index n : Nat) : List (Stamped Int64) :=
  a.alignAll ((List.range' index n).map fun i => (captureTime x.fps i, now))

theorem length_stamps (x : Setup) (now : Int64) (a : Aligner) (index n : Nat) :
    (stamps x now a index n).length = n := by
  rw [stamps, Aligner.length_alignAll, List.length_map, List.length_range']

theorem stamps_succ (x : Setup) (now : Int64) (a : Aligner) (index n : Nat) :
    stamps x now a index (n + 1)
      = (a.align (captureTime x.fps index) now).1
        :: stamps x now (a.align (captureTime x.fps index) now).2 (index + 1) n := by
  simp only [stamps, List.range'_succ, List.map_cons, Aligner.alignAll]

/-- The image of a frame is timed by the frame, or else by the stamp of the placeholder. -/
theorem shot_emerging (y : Lane.State) (a : Lane) (f : EncodedFrame) (now : Int64) :
    (y.emerging a f now).shot = ⟨emittedRtp f.rtp (y.stamp f.captureUs now), f.payload⟩ := by
  show (⟨(Passthrough.rtpFor f _).value, _⟩ : Shot) = ⟨_, _⟩
  unfold Passthrough.rtpFor emittedRtp
  split <;> rfl

end Replay

/-- The counts after frames have gone through a pipeline one by one. -/
def PipelineStats.passed (c : PipelineStats) (frames : List Replay.InputFrame) : PipelineStats :=
  { c with
    pulls := c.pulls + frames.length
    framesEmitted := c.framesEmitted + frames.length
    keyframesEmitted := c.keyframesEmitted + frames.countP Replay.InputFrame.isKey
    bytesEmitted := c.bytesEmitted + (frames.map fun f => f.payload.length).sum }

namespace Replay

/-- Frames have been pushed into a lane, the first of them with the given index, and each came out at once. -/
structure Passes (x : Setup) (now : Int64) (a : Lane) (index : Nat) (frames : List InputFrame)
    (y z : Lane.State) (es : List Event) : Prop where
  wiring : z.wiring = y.wiring
  output : z.output = y.output.offerAll (presentedTo a.output es)
  stats : z.pipeline.stats = y.pipeline.stats.passed frames
  entered : (enteredInto a.source es).map (fun f => (f.toFrameTags, f.payload))
    = frames.mapIdx fun k f => (tags x (index + k) f, f.payload)
  shots : (presentedTo a.output es).map EmittedImage.shot
    = List.zipWith (fun f t => ⟨emittedRtp f.rtp t, f.payload⟩) frames
        (stamps x now y.source.pump.aligner index frames.length)

/-- A frame that goes through is counted by the pipeline. -/
theorem stats_passed (x : Setup) (now : Int64) (a : Lane) (y : Lane.State) (index : Nat) {f : InputFrame}
    {frame : EncodedFrame} (htags : frame.toFrameTags = tags x index f) (hpayload : frame.payload = f.payload)
    (rest : List InputFrame) :
    (y.passed a frame now).pipeline.stats.passed rest = y.pipeline.stats.passed (f :: rest) := by
  have hkey : frame.isKey = f.isKey := by rw [htags]; rfl
  have hdata : (y.emerging a frame now).image.data = f.payload := hpayload
  have htype : (y.emerging a frame now).image.frameType = FrameType.ofKey f.isKey := by
    rw [← hkey]
    rfl
  have hone : (if FrameType.ofKey f.isKey = .key then 1 else 0) = if f.isKey = true then 1 else 0 := by
    cases f.isKey <;> rfl
  simp only [Lane.State.passed, PipelineStats.accept, PipelineStats.passed, hdata, htype, hone, List.length_cons,
    List.countP_cons, List.map_cons, List.sum_cons, PipelineStats.mk.injEq]
  exact ⟨by omega, by omega, by omega, trivial, trivial, by omega⟩

/-- What pushing frames asks of the source, if the first of them has the given index. -/
def captures (x : Setup) (source : RoutingId) (now : Int64) (index : Nat) (frames : List InputFrame) : List Action :=
  frames.mapIdx fun k f => .capture source (tags x (index + k) f) f.payload now

theorem captures_cons (x : Setup) (source : RoutingId) (now : Int64) (index : Nat) (f : InputFrame)
    (rest : List InputFrame) : captures x source now index (f :: rest)
      = .capture source (tags x index f) f.payload now :: captures x source now (index + 1) rest := by
  rw [captures, captures, List.mapIdx_cons]
  simp only [Nat.add_zero, Nat.add_assoc, Nat.add_comm 1]

/-- **Pushing all frames.** -/
theorem pushAll_of_flowing (x : Setup) (now : Int64) {s : Session} {a : Lane} {y : Lane.State}
    (frames : List InputFrame) (hne : ∀ f ∈ frames, f.payload ≠ []) (index : Nat)
    (h : s.Has a y) (hw : y.Wired a) (hy : y.Flowing) :
    ∃ z es, pushAll x a.source now index frames s = (.ok frames.length, s.move a z es) ∧
      s.run (captures x a.source now index frames) = s.move a z es ∧ Passes x now a index frames y z es := by
  induction frames generalizing index s y with
  | nil =>
    have hself := (Session.move_self h).symm
    exact ⟨y, [], congrArg (Prod.mk (Except.ok 0)) hself, hself, rfl, rfl, rfl, rfl, rfl⟩
  | cons f rest ih =>
    obtain ⟨hf, hrest⟩ := List.forall_mem_cons.mp hne
    set frame : EncodedFrame := { tags x index f with payload := f.payload, payload_ne := hf }
    have hmake : EncodedFrame.make (tags x index f) f.payload = .ok frame := by
      rw [EncodedFrame.make, dif_neg hf]
    have hpush := Session.push_of_flowing h hw hy frame now
    have himage := y.presentedTo_passing a frame now
    have hentered := y.enteredInto_passing a frame now
    have hwiring := Lane.State.wiring_passed hy.toClear a frame now
    have hin : (s.move a (y.passed a frame now) (y.passing a frame now)).Has a (y.passed a frame now) :=
      Session.has_move h
    obtain ⟨z, es, hall, hrun, hz⟩ := ih hrest (index + 1) hin
      (Lane.State.wired_of_wiring_eq hwiring hw) (Lane.State.flowing_passed hy a frame now)
    refine ⟨z, y.passing a frame now ++ es, ?_, ?_, hz.wiring.trans hwiring, ?_, ?_, ?_, ?_⟩
    · simp only [pushAll, hmake, hpush, hall, Session.move_move, if_true, List.length_cons]
    · have hcapture : (s.capture a.source (tags x index f) f.payload now).2
          = s.move a (y.passed a frame now) (y.passing a frame now) := by
        simp only [Session.capture, hmake, hpush]
      rw [captures_cons, Session.run_cons]
      show Session.run (s.capture a.source (tags x index f) f.payload now).2 _ = _
      rw [hcapture, hrun, Session.move_move]
    · rw [hz.output, presentedTo_append, himage, Output.offerAll_append]
      rfl
    · rw [hz.stats]
      exact stats_passed x now a y index rfl rfl rest
    · have hindex : (fun k (f : InputFrame) => (tags x (index + 1 + k) f, f.payload))
          = fun k f => (tags x (index + (k + 1)) f, f.payload) := by
        funext k f
        rw [Nat.add_assoc, Nat.add_comm 1]
      rw [enteredInto_append, hentered, List.map_append, hz.entered, List.mapIdx_cons, hindex]
      rfl
    · rw [presentedTo_append, himage, List.map_append, hz.shots, List.length_cons, stamps_succ,
        List.zipWith_cons_cons, List.map_singleton, shot_emerging]
      rfl

/-- The images of a replay, in order. -/
def shown (s : Session) : List EmittedImage := presentedTo ⟨1⟩ s.journal.reverse

/-- Images of frames that are not empty have data. -/
theorem data_ne_of_shots {images : List EmittedImage} {frames : List InputFrame} {stamps : List (Stamped Int64)}
    (hne : ∀ f ∈ frames, f.payload ≠ [])
    (h : images.map EmittedImage.shot
      = List.zipWith (fun f t => ⟨emittedRtp f.rtp t, f.payload⟩) frames stamps) :
    ∀ i ∈ images, i.image.data ≠ [] := by
  intro i hi hnil
  have hmem : i.shot ∈ images.map EmittedImage.shot := List.mem_map_of_mem hi
  rw [h] at hmem
  obtain ⟨k, hk, heq⟩ := List.getElem_of_mem hmem
  rw [List.getElem_zipWith] at heq
  have hpayload := congrArg Shot.payload heq
  exact hne _ (List.getElem_mem _) (hpayload.trans hnil)

/-- **The end of a replay** whose lane has shown an image for each frame: all of them are in the file, if one is
wanted, and nothing else has happened. -/
theorem Ready.closed {x : Setup} {p : Parts} {y z : Lane.State} {u : Session} {es : List Event}
    (h : Ready x p y u) (hz : z.wiring = y.wiring)
    (hout : z.output = y.output.offerAll (presentedTo p.output es))
    (hlength : (presentedTo p.output es).length = x.input.frames.length)
    (hdata : ∀ i ∈ presentedTo p.output es, i.image.data ≠ []) :
    ∃ s, closeRecording p (tearDown p (u.move p.lane z es))
        = (.ok (x.output.map fun _ => x.input.frames.length), s) ∧
      s.journal = es.reverse ∧ requests s p.observer = 0 ∧ ∀ path, x.output = some path →
        s.files.read path = .ok ((Container.ofCodec x.input.codec).closed x.input.frames.length
          (Container.lead x.input.codec x.input.resolution.width x.input.resolution.height
            ++ (presentedTo p.output es).flatMap fun i =>
              Recording.entry (Container.ofCodec x.input.codec) i.image.rtp.value i.image.data)) := by
  set v := u.move p.lane z es with hv
  have hhas : v.Has p.lane z := Session.has_move h.has
  have hzw := Lane.State.wired_of_wiring_eq hz h.wired
  have hencoder : v.encoder? z.pipeline.encoder = some (.passthrough z.encoder) := by
    rw [hzw.encoder]
    exact hhas.encoder
  obtain ⟨hsettled, hheld⟩ := settled_tearDown hhas.pipeline hencoder
  -- there was but one encoder, and it is gone
  have hgone : ∀ n, (v.encoders.erase z.pipeline.encoder.number).get? n = none := by
    intro n
    have hnumber : z.pipeline.encoder.number = 1 := congrArg Ref.number hzw.encoder
    have hnext : v.encoders.next = 2 := (Table.next_modify _ _ _).trans h.alone
    rw [hnumber, Table.get?_erase]
    split
    · rfl
    · next hne =>
      cases hget : v.encoders.get? n with
      | none => rfl
      | some e =>
        have hlt := Table.lt_next hget
        have hzero : n = 0 := by omega
        rw [hzero] at hget
        cases hget
  -- the channel has room for an image of each frame, so that none is missed
  obtain ⟨c, hc, hlisten⟩ := h.channel
  have hroom := hlisten.keeps
  rw [← hlength] at hroom
  obtain ⟨c', hc', hkeeps⟩ := hroom.offerAll
  have hchannel : (tearDown p v).output? p.output = some (.channel c') := by
    rw [hsettled.output]
    refine hhas.output.trans ?_
    rw [hout, hc, hc']
  have hlistening : Listening x p.recording c v := ⟨hlisten.keeps, hlisten.none, hlisten.records⟩
  obtain ⟨s, hclose, hjournal, hobservers, hfile⟩ :=
    closeRecording_ok (hlistening.of_settled hsettled) hchannel hkeeps hdata (hheld hgone)
  have hevents : v.journal = es.reverse := by
    show es.reverse ++ u.journal = es.reverse
    rw [h.journal, List.append_nil]
  rw [List.nil_append, hlength] at hclose hfile
  refine ⟨s, hclose, (hjournal.trans hsettled.journal).trans hevents, ?_, hfile⟩
  rw [requests, hobservers, hsettled.observers]
  exact h.untold

/-- What has happened when all frames of a file were replayed, and what is in the file recorded into. -/
structure Replayed (x : Setup) (now : Int64) (s : Session) : Prop where
  entered : (enteredInto ⟨1⟩ s.journal.reverse).map (fun f => (f.toFrameTags, f.payload))
    = x.input.frames.mapIdx fun k f => (tags x k f, f.payload)
  shots : (shown s).map EmittedImage.shot
    = List.zipWith (fun f t => ⟨emittedRtp f.rtp t, f.payload⟩) x.input.frames
        (stamps x now {} 0 x.input.frames.length)
  file (path : String) : x.output = some path →
    s.files.read path = .ok ((Container.ofCodec x.input.codec).closed x.input.frames.length
      (Container.lead x.input.codec x.input.resolution.width x.input.resolution.height
        ++ ((shown s).map EmittedImage.shot).flatMap fun i =>
          Recording.entry (Container.ofCodec x.input.codec) i.rtp i.payload))

/-- **A whole replay** that gets going, of a file whose frames are not empty. -/
theorem run_of_assemble {x : Setup} {files : FileTree} {p : Parts} {u : Session}
    (hassemble : assemble x { files } = (.ok p, u)) (hpace : canPace x.fps = true)
    (hne : ∀ f ∈ x.input.frames, f.payload ≠ []) (now : Int64) :
    ∃ s, run x files now = (.ok {
        pushed := x.input.frames.length
        keyframeRequests := 0
        stats := PipelineStats.passed {} x.input.frames
        recorded := x.output.map fun _ => x.input.frames.length }, s) ∧ Replayed x now s := by
  obtain ⟨y, hready⟩ := assemble_ok hassemble
  obtain ⟨z, es, hall, -, hpasses⟩ := pushAll_of_flowing x now x.input.frames hne 0
    hready.has hready.wired hready.flowing
  have hall : pushAll x p.source now 0 x.input.frames u = (.ok x.input.frames.length, u.move p.lane z es) := hall
  have hshots := hpasses.shots
  rw [hready.aligner] at hshots
  have hlength : (presentedTo p.output es).length = x.input.frames.length := by
    have hlen := congrArg List.length hshots
    rwa [List.length_map, List.length_zipWith, length_stamps, Nat.min_self] at hlen
  have hstats : (((u.move p.lane z es).pipeline? p.pipeline).map Pipeline.stats).getD {}
      = PipelineStats.passed {} x.input.frames := by
    have hpipeline : (u.move p.lane z es).pipeline? p.pipeline = some z.pipeline :=
      (Session.has_move hready.has).pipeline
    rw [hpipeline, Option.map_some, Option.getD_some, hpasses.stats, hready.stats]
  obtain ⟨s, hclose, hjournal, huntold, hfile⟩ :=
    hready.closed hpasses.wiring hpasses.output hlength (data_ne_of_shots hne hshots)
  have hevents : s.journal.reverse = es := by rw [hjournal, List.reverse_reverse]
  have hshown : shown s = presentedTo p.output es := by rw [shown, hevents, hready.output]
  refine ⟨s, ?_, ?_, hshown ▸ hshots, fun path hpath => ?_⟩
  · rw [run, hassemble]
    dsimp only
    rw [if_pos hpace, hall]
    dsimp only
    rw [hstats, hclose]
    dsimp only
    rw [huntold]
  · have hentered := hpasses.entered
    simp only [Nat.zero_add] at hentered
    rw [hevents, ← hready.source]
    exact hentered
  · rw [hfile path hpath, hshown, List.flatMap_map]
    rfl

/-- A replay that succeeds has got going. -/
theorem run_ok {x : Setup} {now : Int64} {files : FileTree} {result : Result} {s : Session}
    (h : run x files now = (.ok result, s)) :
    ∃ p u, assemble x { files } = (.ok p, u) ∧ canPace x.fps = true := by
  unfold run at h
  cases hassemble : assemble x { files } with
  | mk made u =>
  rw [hassemble] at h
  cases made with
  | error e => cases h
  | ok p =>
  dsimp only at h
  by_cases hpace : canPace x.fps = true
  · exact ⟨p, u, rfl, hpace⟩
  · rw [if_neg hpace] at h
    cases h

/-- The images and the recording of a replay that succeeds. -/
theorem run_shows {x : Setup} {now : Int64} {files : FileTree} {result : Result} {s : Session}
    (hne : ∀ f ∈ x.input.frames, f.payload ≠ [])
    (hivf : Container.ofCodec x.input.codec = .ivf) (h : run x files now = (.ok result, s)) :
    (shown s).map EmittedImage.shot
      = List.zipWith (fun f t => ⟨emittedRtp f.rtp t, f.payload⟩) x.input.frames
          (stamps x now {} 0 x.input.frames.length) ∧
    ∀ path, x.output = some path → ∃ v w,
      v = Container.lead x.input.codec x.input.resolution.width x.input.resolution.height
        ++ ((shown s).map EmittedImage.shot).flatMap (fun i => Recording.entry .ivf i.rtp i.payload) ∧
      (w = v ∨ w = Container.ivf.closed x.input.frames.length v) ∧ s.files.read path = .ok w := by
  obtain ⟨p, u, hassemble, hpace⟩ := run_ok h
  obtain ⟨t, hrun, hreplayed⟩ := run_of_assemble hassemble hpace hne now
  rw [h] at hrun
  obtain rfl : s = t := congrArg Prod.snd hrun
  refine ⟨hreplayed.shots, fun path hpath => ?_⟩
  have hread := hreplayed.file path hpath
  rw [hivf] at hread
  exact ⟨_, _, rfl, .inr rfl, hread⟩

/-- A recording of images is read as these images, whether or not the frame count has been put in. -/
theorem read_recorded {c : Codec} {fourcc v w : Octets} {shots : List Shot} (hc : c.fourcc = some fourcc)
    (hfit : ∀ i ∈ shots, i.payload ≠ [] ∧ i.payload.length < 0x100000000) (width height : UInt32) {n : Nat}
    (hv : v = Container.lead c width height
      ++ shots.flatMap fun i => Recording.entry .ivf i.rtp i.payload)
    (hw : w = v ∨ w = Container.ivf.closed n v) :
    ∃ g, Ivf.read w = .ok g ∧ g.header.codec = c ∧ g.header.rate = 90000 ∧ g.header.scale = 1 ∧
      g.frames = shots.map Shot.record := by
  have hentries : (shots.flatMap fun i => Recording.entry .ivf i.rtp i.payload)
      = (shots.map Shot.record).flatMap Ivf.Record.octets := by
    rw [List.flatMap_map]
    simp only [entry_ivf]
  have hlead : Container.lead c width height = Ivf.header fourcc width.toNat height.toNat 0 := by
    rw [Container.lead, hc]
  rw [hlead, hentries] at hv
  have hrecords : Ivf.Fitting (shots.map Shot.record) := by
    intro r hr
    obtain ⟨i, hi, rfl⟩ := List.mem_map.mp hr
    exact (hfit i hi).2
  have hne : ∀ r ∈ shots.map Shot.record, r.data ≠ [] := by
    intro r hr
    obtain ⟨i, hi, rfl⟩ := List.mem_map.mp hr
    exact (hfit i hi).1
  rcases hw with rfl | rfl
  · rw [hv]
    exact ⟨_, Ivf.read_frames hc hrecords hne _ _ 0, rfl, rfl, rfl, rfl⟩
  · rw [hv, closed_header (Ivf.length_fourcc hc)]
    exact ⟨_, Ivf.read_frames hc hrecords hne _ _ n, rfl, rfl, rfl, rfl⟩

theorem exists_of_read {data : Octets} {size : Resolution} {i : Input} (hsig : Ivf.hasSignature data = true)
    (h : Input.read data size = .ok i) : ∃ f, Ivf.read data = .ok f ∧ i = .ofIvf f := by
  unfold Input.read at h
  rw [if_pos hsig] at h
  split at h
  · next f hf =>
    cases h
    exact ⟨f, hf, rfl⟩
  · cases h

/-- Times that are not zero are the images' own, whatever the stamps. -/
theorem zipWith_emittedRtp {frames : List Ivf.Record} {h : Ivf.Header} (stamps : List (Stamped Int64))
    (hlen : stamps.length = frames.length) (hne : ∀ r ∈ frames, h.toRtp r.timestamp ≠ 0) :
    List.zipWith (fun r t => (⟨emittedRtp (h.toRtp r.timestamp) t, r.data⟩ : Shot)) frames stamps
      = frames.map fun r => ⟨h.toRtp r.timestamp, r.data⟩ := by
  induction frames generalizing stamps with
  | nil => rfl
  | cons r rest ih =>
    obtain ⟨hr, hrest⟩ := List.forall_mem_cons.mp hne
    cases stamps with
    | nil => cases hlen
    | cons t ts =>
      rw [List.zipWith_cons_cons, List.map_cons, ih ts (Nat.succ.inj hlen) hrest, emittedRtp, if_pos hr]

/-- **The timing of a replayed IVF file.**  There is one image for each frame, with its data, in order; it has
the frame's own RTP time if this is not zero, and else the RTP time of its placeholder's stamp.  A file that
is recorded is read back as these images.  If no frame's time is zero, all images have the times of the file,
and these do not go backwards if the file's timestamps do not and no time wraps around. -/
theorem timing_kept_unless_zero {x : Setup} {data : Octets} {size : Resolution} {files : FileTree}
    {now : Int64} {result : Result} {s : Session} (hsig : Ivf.hasSignature data = true)
    (hinput : Input.read data size = .ok x.input) (hrun : run x files now = (.ok result, s)) :
    ∃ f, Ivf.read data = .ok f ∧
      (shown s).map EmittedImage.shot
        = List.zipWith (fun r t => ⟨emittedRtp (f.header.toRtp r.timestamp) t, r.data⟩) f.frames
            (stamps x now {} 0 f.frames.length) ∧
      (∀ path, x.output = some path → ∃ written g, s.files.read path = .ok written ∧
        Ivf.read written = .ok g ∧ g.header.codec = f.header.codec ∧
        g.frames = (shown s).map (fun i => i.shot.record) ∧
        ∀ i : EmittedImage, g.header.toRtp i.shot.record.timestamp = i.image.rtp.value) ∧
      ((∀ r ∈ f.frames, f.header.toRtp r.timestamp ≠ 0) →
        (shown s).map EmittedImage.shot = f.frames.map (fun r => ⟨f.header.toRtp r.timestamp, r.data⟩) ∧
        ((∀ r ∈ f.frames,
            r.timestamp.toNat * f.header.scale.toNat * 90000 / f.header.rate.toNat < 0x100000000) →
          (f.frames.Pairwise fun r r' => r.timestamp ≤ r'.timestamp) →
          (shown s).Pairwise fun i i' => i.image.rtp.value ≤ i'.image.rtp.value)) := by
  obtain ⟨f, hf, hx⟩ := exists_of_read hsig hinput
  have hdata := Ivf.data_of_mem_read hf
  obtain ⟨fourcc, hfourcc⟩ := Ivf.fourcc_of_read hf
  have hivf : Container.ofCodec x.input.codec = .ivf := by
    rw [hx, Input.ofIvf, Container.ofCodec, hfourcc]
    rfl
  have hne : ∀ i ∈ x.input.frames, i.payload ≠ [] := by
    intro i hi
    rw [hx] at hi
    obtain ⟨r, hr, rfl⟩ := List.mem_map.mp hi
    exact (hdata r hr).1
  obtain ⟨hshots, hfile⟩ := run_shows hne hivf hrun
  have hshots : (shown s).map EmittedImage.shot
      = List.zipWith (fun r t => ⟨emittedRtp (f.header.toRtp r.timestamp) t, r.data⟩) f.frames
          (stamps x now {} 0 f.frames.length) := by
    rw [hshots, hx, Input.ofIvf, List.zipWith_map_left, List.length_map]
    rfl
  refine ⟨f, hf, hshots, ?_, ?_⟩
  · intro path hpath
    obtain ⟨v, w, hv, hw, hread⟩ := hfile path hpath
    have hfit : ∀ i ∈ (shown s).map EmittedImage.shot, i.payload ≠ [] ∧ i.payload.length < 0x100000000 := by
      intro i hi
      rw [hshots] at hi
      obtain ⟨k, hk, rfl⟩ := List.getElem_of_mem hi
      rw [List.getElem_zipWith]
      exact hdata _ (List.getElem_mem _)
    have hcodec : x.input.codec = f.header.codec := by rw [hx]; rfl
    rw [hcodec] at hv
    obtain ⟨g, hg, hgc, hrate, hscale, hframes⟩ := read_recorded hfourcc hfit _ _ hv hw
    refine ⟨w, g, hread, hg, hgc, ?_, fun i => Ivf.toRtp_toUInt64 hrate hscale _⟩
    rw [hframes, List.map_map]
    rfl
  · intro hnonzero
    have hown : (shown s).map EmittedImage.shot
        = f.frames.map fun r => ⟨f.header.toRtp r.timestamp, r.data⟩ :=
      hshots.trans (zipWith_emittedRtp _ (length_stamps x now {} 0 _) hnonzero)
    refine ⟨hown, fun hwrap hsorted => ?_⟩
    have hpairs : (f.frames.map fun r => (⟨f.header.toRtp r.timestamp, r.data⟩ : Shot)).Pairwise
        fun i i' => i.rtp ≤ i'.rtp := by
      rw [List.pairwise_map]
      apply hsorted.imp_of_mem
      intro r r' _ hr' hle
      exact Ivf.toRtp_le_toRtp hle (hwrap r' hr')
    rw [← hown, List.pairwise_map] at hpairs
    exact hpairs

/-- A VP8 file that counts in RTP ticks. -/
def clip (frames : List Ivf.Record) : Octets :=
  Ivf.header [0x56, 0x50, 0x38, 0x30] 320 240 frames.length ++ frames.flatMap Ivf.Record.octets

/-- What is in such a file. -/
def clipFile (frames : List Ivf.Record) : Ivf.File :=
  ⟨⟨.vp8, 320, 240, 90000, 1, UInt32.ofNat frames.length⟩, frames, none⟩

theorem read_clip (frames : List Ivf.Record) (hfit : ∀ r ∈ frames, r.data.length < 0x100000000)
    (hne : ∀ r ∈ frames, r.data ≠ []) :
    Ivf.hasSignature (clip frames) = true ∧ Ivf.read (clip frames) = .ok (clipFile frames) ∧
      ∀ size, Input.read (clip frames) size = .ok (.ofIvf (clipFile frames)) := by
  have hsig : Ivf.hasSignature (clip frames) = true := Ivf.hasSignature_header _ _ _ _
  have hread : Ivf.read (clip frames) = .ok (clipFile frames) :=
    Ivf.read_frames (c := .vp8) rfl hfit hne 320 240 frames.length
  refine ⟨hsig, hread, fun size => ?_⟩
  rw [Input.read, if_pos hsig, hread]

/-- A replay of such a file without a rate. -/
def clipSetup (frames : List Ivf.Record) (output : Option String) : Setup :=
  ⟨{}, {}, 0, .ofIvf (clipFile frames), output⟩

def timed : List Ivf.Record := [⟨3000, [0x10]⟩, ⟨6000, [0x11]⟩]

theorem run_timed :
    (run (clipSetup timed (some "out")) {} 0).1 = .ok ⟨2, 0, ⟨2, 2, 1, 0, 0, 2⟩, some 2⟩ := by cbv

theorem timing_kept_unless_zero_timed :
    ∃ result s, run (clipSetup timed (some "out")) {} 0 = (.ok result, s) ∧
    (shown s).map EmittedImage.shot = [⟨3000, [0x10]⟩, ⟨6000, [0x11]⟩] ∧
    (∃ written g, s.files.read "out" = .ok written ∧ Ivf.read written = .ok g ∧ g.frames = timed) ∧
    (shown s).Pairwise fun i i' => i.image.rtp.value ≤ i'.image.rtp.value := by
  obtain ⟨hsig, hread, hinput⟩ := read_clip timed (by decide) (by decide)
  have hrun : run (clipSetup timed (some "out")) {} 0 = (.ok _, _) := Prod.ext run_timed rfl
  obtain ⟨f, hf, -, hfile, hkept⟩ := timing_kept_unless_zero hsig (hinput ⟨0, 0⟩) hrun
  rw [hread] at hf
  cases hf
  obtain ⟨hshots, hsorted⟩ := hkept (by decide)
  obtain ⟨written, g, hwritten, hg, -, hframes, -⟩ := hfile "out" rfl
  refine ⟨_, _, hrun, hshots, ⟨written, g, hwritten, hg, ?_⟩, hsorted (by decide) (by decide)⟩
  have hmap := congrArg (List.map Shot.record) hshots
  rw [List.map_map] at hmap
  exact hframes.trans hmap

def fromZero : List Ivf.Record := [⟨0, [0x10]⟩, ⟨1, [0x11]⟩]

theorem run_fromZero :
    (run (clipSetup fromZero (some "out")) {} 0).1 = .ok ⟨2, 0, ⟨2, 2, 1, 0, 0, 2⟩, some 2⟩ := by cbv

/-- The first image has not the time of its frame, and the times go backwards. -/
theorem zero_time_replaced :
    Input.read (clip fromZero) ⟨0, 0⟩ = .ok (clipSetup fromZero (some "out")).input ∧
    Ivf.read (clip fromZero) = .ok (clipFile fromZero) ∧
    fromZero.map (fun r => (clipFile fromZero).header.toRtp r.timestamp) = [0, 1] ∧
    ∃ result s, run (clipSetup fromZero (some "out")) {} 0 = (.ok result, s) ∧
      (shown s).map (fun i => i.image.rtp.value) = [2999, 1] := by
  obtain ⟨-, hread, hinput⟩ := read_clip fromZero (by decide) (by decide)
  have hrun : run (clipSetup fromZero (some "out")) {} 0 = (.ok _, _) := Prod.ext run_fromZero rfl
  obtain ⟨hshots, -⟩ := run_shows (by decide) rfl hrun
  refine ⟨hinput _, hread, by decide, _, _, hrun, ?_⟩
  have hmap := congrArg (List.map Shot.rtp) hshots
  rw [List.map_map] at hmap
  refine hmap.trans ?_
  decide

end Replay

end EncodedFeed
