import EncodedFeed.Cli.Perform
import EncodedFeed.Proofs.AnnexB.Reassembly
import EncodedFeed.Proofs.Encoder.Transparency
import EncodedFeed.Proofs.Replay.Timing
import EncodedFeed.Proofs.Session.Room

/-!
# Replays are complete

Whatever can be read from a file goes through a replay whole.  The readers give no empty frame
(`Input.sound_of_read`), a replay of a picture that has a size gets going unless its output file cannot be made
(`assemble_of_valid`), and once it has got going nothing is lost (`run_of_assemble`).  It pushes without checks, and
comes to the same with them (`pushAll_checked`).
-/

namespace EncodedFeed

/-! ### What can be read -/

namespace Replay.Input

/-- What the readers promise of an input. -/
structure Sound (i : Input) : Prop where
  container : Container.ofCodec i.codec = i.container
  payload : ∀ f ∈ i.frames, f.payload ≠ []
  fits : i.container = .ivf → i.resolution.width.toNat < 65536 ∧ i.resolution.height.toNat < 65536 ∧
    ∀ f ∈ i.frames, f.payload.length < 0x100000000

theorem sound_ofIvf {data : Octets} {f : Ivf.File} (h : Ivf.read data = .ok f) : (ofIvf f).Sound := by
  have hdata := Ivf.data_of_mem_read h
  obtain ⟨fourcc, hfourcc⟩ := Ivf.fourcc_of_read h
  refine ⟨?_, fun g hg => ?_, fun _ => ⟨?_, ?_, fun g hg => ?_⟩⟩
  · rw [ofIvf, Container.ofCodec, hfourcc]
    rfl
  · obtain ⟨r, hr, rfl⟩ := List.mem_map.mp hg
    exact (hdata r hr).1
  · show f.header.width.toUInt32.toNat < 65536
    rw [UInt16.toNat_toUInt32]
    exact f.header.width.toNat_lt
  · show f.header.height.toUInt32.toNat < 65536
    rw [UInt16.toNat_toUInt32]
    exact f.header.height.toNat_lt
  · obtain ⟨r, hr, rfl⟩ := List.mem_map.mp hg
    exact (hdata r hr).2

theorem sound_ofAnnexB (data : Octets) (dropped : Nat) (size : Resolution) :
    (ofAnnexB (Assembler.assemble data).1 dropped size).Sound := by
  refine ⟨rfl, fun g hg => ?_, fun hivf => (nomatch hivf)⟩
  obtain ⟨f, hf, rfl⟩ := List.mem_map.mp hg
  exact Assembler.data_ne_nil_of_mem_assemble hf

/-- **No reader gives an empty frame**, nor an IVF frame that would not fit into an IVF file. -/
theorem sound_of_read {data : Octets} {size : Resolution} {i : Input} (h : Input.read data size = .ok i) :
    i.Sound := by
  unfold Input.read at h
  split at h
  · split at h
    · next f hf =>
      cases h
      exact sound_ofIvf hf
    · cases h
  · dsimp only at h
    split at h
    · cases h
    · cases h
      exact sound_ofAnnexB data _ size

/-- The octets are a recording of the frames in the container of their codec: the payloads one after the other, or
an IVF file of them that is whole. -/
def RecordedAs (i : Input) (written : Octets) : Prop :=
  match i.container with
  | .annexB => written = (i.frames.map InputFrame.payload).flatten
  | .ivf => ∃ g, Ivf.read written = .ok g ∧
      g.header.Describes i.codec i.resolution.width i.resolution.height ∧
      g.header.frameCount.toNat = i.frames.length % 0x100000000 ∧
      g.frames.map Ivf.Record.data = i.frames.map InputFrame.payload ∧ g.cutAt = none

end Replay.Input

namespace Replay

theorem lead_of_annexB {c : Codec} (h : Container.ofCodec c = .annexB) (width height : UInt32) :
    Container.lead c width height = [] := by
  rw [Container.lead]
  cases hfourcc : c.fourcc with
  | none => rfl
  | some fourcc =>
    rw [Container.ofCodec, hfourcc] at h
    cases h

theorem exists_fourcc_of_ivf {c : Codec} (h : Container.ofCodec c = .ivf) : ∃ fourcc, c.fourcc = some fourcc := by
  cases hfourcc : c.fourcc with
  | some fourcc => exact ⟨fourcc, rfl⟩
  | none =>
    rw [Container.ofCodec, hfourcc] at h
    cases h

/-- A recording of images with the payloads of the frames is a recording of the frames. -/
theorem recordedAs_of_shots {i : Input} (hi : i.Sound) {shots : List Shot}
    (hshots : shots.map Shot.payload = i.frames.map InputFrame.payload) :
    i.RecordedAs ((Container.ofCodec i.codec).closed i.frames.length
      (Container.lead i.codec i.resolution.width i.resolution.height
        ++ shots.flatMap fun shot => Recording.entry (Container.ofCodec i.codec) shot.rtp shot.payload)) := by
  unfold Input.RecordedAs
  rw [hi.container]
  cases hcontainer : i.container with
  | annexB =>
    have hlead := lead_of_annexB (hi.container.trans hcontainer) i.resolution.width i.resolution.height
    have hentry : (fun shot : Shot => Recording.entry .annexB shot.rtp shot.payload) = Shot.payload := by
      funext shot
      simp only [Recording.entry, Container.pieces, List.flatten_cons, List.flatten_nil, List.append_nil]
    show Container.annexB.closed _ _ = _
    rw [hlead, hentry, List.nil_append, List.flatMap_def, hshots]
    rfl
  | ivf =>
    obtain ⟨hwidth, hheight, hfits⟩ := hi.fits hcontainer
    obtain ⟨fourcc, hfourcc⟩ := exists_fourcc_of_ivf (hi.container.trans hcontainer)
    have hmem : ∀ shot ∈ shots, ∃ f ∈ i.frames, f.payload = shot.payload := by
      intro shot hshot
      have hin : shot.payload ∈ i.frames.map InputFrame.payload := hshots ▸ List.mem_map_of_mem hshot
      exact List.mem_map.mp hin
    have hfit : Ivf.Fitting (shots.map Shot.record) := by
      intro r hr
      obtain ⟨shot, hshot, rfl⟩ := List.mem_map.mp hr
      obtain ⟨f, hf, hpayload⟩ := hmem shot hshot
      show shot.payload.length < 0x100000000
      rw [← hpayload]
      exact hfits f hf
    have hne : ∀ r ∈ shots.map Shot.record, r.data ≠ [] := by
      intro r hr
      obtain ⟨shot, hshot, rfl⟩ := List.mem_map.mp hr
      obtain ⟨f, hf, hpayload⟩ := hmem shot hshot
      show shot.payload ≠ []
      rw [← hpayload]
      exact hi.payload f hf
    have hentries : (shots.flatMap fun shot => Recording.entry .ivf shot.rtp shot.payload)
        = (shots.map Shot.record).flatMap Ivf.Record.octets := by
      rw [List.flatMap_map]
      simp only [entry_ivf]
    have hlead : Container.lead i.codec i.resolution.width i.resolution.height
        = Ivf.header fourcc i.resolution.width.toNat i.resolution.height.toNat 0 := by
      rw [Container.lead, hfourcc]
    rw [hlead, hentries, closed_header (Ivf.length_fourcc hfourcc)]
    refine ⟨_, Ivf.read_frames hfourcc hfit hne _ _ _, describes_of_lt hwidth hheight _, rfl, ?_, rfl⟩
    rw [← hshots, List.map_map]
    rfl

/-! ### Getting going -/

/-- A recording that is wanted can be begun. -/
theorem openRecording_of_create {x : Setup} {s : Session}
    (hcreate : ∀ path, x.output = some path → ∃ made, s.files.create path = .ok made) (o : Ref .output) :
    ∃ recording t, openRecording x o s = (.ok recording, t) := by
  unfold openRecording
  cases hx : x.output with
  | none => exact ⟨none, s, rfl⟩
  | some path =>
    obtain ⟨⟨place, files⟩, hmade⟩ := hcreate path hx
    simp only [Session.addRecording, Recording.create, hmade]
    exact ⟨_, _, rfl⟩

/-- **A replay gets going** if the picture has a size, the placeholder is not too large and the file to record into can
be made. -/
theorem assemble_of_valid {x : Setup} {files : FileTree} (hplaceholder : x.source.placeholder.HasPicture)
    (hsize : x.input.resolution.isValid = true)
    (hcreate : ∀ path, x.output = some path → ∃ made, files.create path = .ok made) :
    ∃ p s, assemble x { files } = (.ok p, s) := by
  obtain ⟨recording, u, hopen⟩ := openRecording_of_create (s := staged x files) hcreate ⟨1⟩
  simp only [Resolution.isValid, Bool.and_eq_true, decide_eq_true_eq] at hsize
  have hne : ∀ {n : UInt32}, n > 0 → n ≠ 0 := by
    rintro n hn rfl
    exact absurd hn (by decide)
  obtain ⟨q, hq⟩ : ∃ q, x.passthrough.init x.settings = .ok q :=
    Passthrough.init_of_valid (hne hsize.1) (hne hsize.2) rfl
  have hadd : (u.addEncoder (.passthrough x.passthrough)).2.addPipeline ⟨u.encoders.next⟩ x.settings ⟨1⟩ = _ :=
    Session.pipelineAround_of_calls (y := .passthrough q) (z := .passthrough (q.connect ⟨⟨1⟩, some ⟨u.pipelines.next⟩⟩))
      (fun t e ht => by simp only [Session.call, ht, Session.callPassthrough, hq])
      (fun t e ht => by simp only [Session.call, ht, Session.callPassthrough])
  rw [assemble_eq hplaceholder, hopen]
  dsimp only
  rw [connect_eq, hadd]
  exact ⟨_, _, rfl⟩

/-! ### Times and depths of a replay -/

/-- **A replay pushes as with checks.**  It counts its times from zero, so they fit as long as all of them do, and so
does one past the depth at which the source warns. -/
theorem pushAll_checked {x : Setup} {files : FileTree} {p : Parts} {u : Session}
    (hassemble : assemble x { files } = (.ok p, u)) (hpace : canPace x.fps = true)
    (hne : ∀ f ∈ x.input.frames, f.payload ≠ []) (hdepth : x.source.warnDepth.toNat + 1 < 2 ^ 64)
    (htimes : x.input.frames.length * (frameInterval x.fps + 1) < 2 ^ 63) (now : Int64) :
    u.run? (captures x p.source now 0 x.input.frames) = some (pushAll x p.source now 0 x.input.frames u).2 := by
  obtain ⟨y, hready⟩ := assemble_ok hassemble
  obtain ⟨z, es, hall, hrun, -⟩ := pushAll_of_flowing x now x.input.frames hne 0
    hready.has hready.wired hready.flowing
  have hdial : u.dial? p.source = some (x.source.warnDepth, {}) := by
    rw [Session.dial?, show u.source? p.source = some y.source from hready.has.source, Option.map_some, Source.dial,
      hready.depth, hready.aligner]
  have hpushed : (pushAll x p.source now 0 x.input.frames u).2 = u.run (captures x p.source now 0 x.input.frames) :=
    (congrArg Prod.snd hall).trans hrun.symm
  rw [hpushed]
  refine run?_of_counted (n := x.input.frames.length) hpace (fun a ha => ?_) ?_
  · obtain ⟨k, hk, rfl⟩ := List.mem_mapIdx.mp ha
    exact ⟨⟨k, hk, congrArg (captureTime x.fps) (Nat.zero_add k)⟩, _, hdial, hdepth⟩
  · rwa [captures, List.length_mapIdx, ← Nat.mul_succ]

/-! ### Whole replays -/

/-- What a command comes to that replays what it finds. -/
theorem perform_replay {o : Cli.ReplayOptions} {e : Cli.Surroundings} {source : SourceConfig}
    {encoder : EncoderConfig} {data : Octets} {i : Input} {r : Result} {s : Session}
    (hconfig : Cli.configured (Preferences.loadOrDefault e.files e.configPath).1 = .ok (source, encoder))
    (hfile : e.files.read o.file = .ok data)
    (hinput : Input.read data (Cli.declaredResolution o source) = .ok i)
    (hrun : run ⟨source, encoder, o.fps, i, o.output⟩ e.files e.now = (.ok r, s)) :
    ((Cli.Command.replay o).perform e).ending = Cli.replayEnding r ∧
      ((Cli.Command.replay o).perform e).files = s.files ∧
      ((Cli.Command.replay o).perform e).printed
        = if o.json then Cli.replayJson o.file i r else Cli.replayText o.file i r := by
  simp only [Cli.Command.perform, Cli.withConfigured, hconfig, Cli.replayFile, hfile, hinput, Cli.replayInput, hrun,
    and_self]

theorem payload_zipWith {frames : List InputFrame} {stamps : List (Stamped Int64)}
    (h : stamps.length = frames.length) :
    (List.zipWith (fun f t => (⟨emittedRtp f.rtp t, f.payload⟩ : Shot)) frames stamps).map Shot.payload
      = frames.map InputFrame.payload := by
  refine List.ext_getElem ?_ fun k _ _ => ?_
  · rw [List.length_map, List.length_zipWith, h, Nat.min_self, List.length_map]
  · rw [List.getElem_map, List.getElem_zipWith, List.getElem_map]

/-- **Replays are complete.**  Given a configuration in which the pixels of the placeholder are a word of 32 bits, a
file that can be read as frames of some size, a rate of at most a million and an output file, if one is wanted, that
can be made, a replay ends well: each frame of the file is pushed once, in order, each comes out at once, and all are
in the output file; and this is what is reported. -/
theorem replay_complete {o : Cli.ReplayOptions} {e : Cli.Surroundings} {source : SourceConfig}
    {encoder : EncoderConfig} {data : Octets} {i : Input}
    (hconfig : Cli.configured (Preferences.loadOrDefault e.files e.configPath).1 = .ok (source, encoder))
    (hfile : e.files.read o.file = .ok data)
    (hinput : Input.read data (Cli.declaredResolution o source) = .ok i) (hsize : i.resolution.isValid = true)
    (hplaceholder : source.placeholder.area < 2 ^ 32) (hfps : o.fps ≤ 1000000)
    (hcreate : ∀ path, o.output = some path → ∃ made, e.files.create path = .ok made) :
    ∃ r s, run ⟨source, encoder, o.fps, i, o.output⟩ e.files e.now = (.ok r, s) ∧
      ((Cli.Command.replay o).perform e).ending = .done ∧
      ((Cli.Command.replay o).perform e).printed
        = (if o.json then Cli.replayJson o.file i r else Cli.replayText o.file i r) ∧
      ((enteredInto ⟨1⟩ s.journal.reverse).map fun f => (f.toFrameTags, f.payload))
        = i.frames.mapIdx (fun k f => (tags ⟨source, encoder, o.fps, i, o.output⟩ k f, f.payload)) ∧
      ((shown s).map fun image => image.image.data) = i.frames.map InputFrame.payload ∧
      r = {
        pushed := i.frames.length
        keyframeRequests := 0
        stats := {
          pulls := i.frames.length
          framesEmitted := i.frames.length
          keyframesEmitted := i.frames.countP InputFrame.isKey
          emptyPulls := 0
          errors := 0
          bytesEmitted := (i.frames.map fun f => f.payload.length).sum }
        recorded := o.output.map fun _ => i.frames.length } ∧
      ∀ path, o.output = some path →
        ∃ written, ((Cli.Command.replay o).perform e).files.read path = .ok written ∧ i.RecordedAs written := by
  set x : Setup := ⟨source, encoder, o.fps, i, o.output⟩ with hx
  have hsound := Input.sound_of_read hinput
  obtain ⟨p, u, hassemble⟩ := assemble_of_valid (x := x) (Resolution.hasPicture_of_area hplaceholder) hsize hcreate
  obtain ⟨s, hrun, hreplayed⟩ := run_of_assemble hassemble (canPace_of_le hfps) hsound.payload e.now
  obtain ⟨hending, hfiles, hprinted⟩ := perform_replay hconfig hfile hinput hrun
  have hcounts : PipelineStats.passed {} i.frames = {
      pulls := i.frames.length
      framesEmitted := i.frames.length
      keyframesEmitted := i.frames.countP InputFrame.isKey
      emptyPulls := 0
      errors := 0
      bytesEmitted := (i.frames.map fun f => f.payload.length).sum } := by
    simp only [PipelineStats.passed, Nat.zero_add]
  have hpayloads := congrArg (List.map Shot.payload) hreplayed.shots
  rw [payload_zipWith (length_stamps _ _ _ _ _)] at hpayloads
  refine ⟨_, s, hrun, ?_, hprinted, hreplayed.entered, ?_, ?_, fun path hpath => ?_⟩
  · rw [hending, Cli.replayEnding, hcounts]
    exact if_pos rfl
  · rw [← hpayloads, List.map_map]
    rfl
  · rw [hcounts]
  · rw [hfiles]
    exact ⟨_, hreplayed.file path hpath, recordedAs_of_shots hsound hpayloads⟩

/-- A directory with a file of two frames and no configuration. -/
def clipAlone : Cli.Surroundings := ⟨⟨[(["in"], .file (clip timed))]⟩, "rc", 0⟩

theorem replay_complete_clipAlone :
    ((Cli.Command.replay { file := "in", output := some "out" }).perform clipAlone).ending = .done ∧
    ∃ written, ((Cli.Command.replay { file := "in", output := some "out" }).perform clipAlone).files.read "out"
        = .ok written ∧ (Input.ofIvf (clipFile timed)).RecordedAs written := by
  have hconfig : Cli.configured (Preferences.loadOrDefault clipAlone.files clipAlone.configPath).1 = .ok ({}, {}) := by
    cbv
  have hfile : clipAlone.files.read "in" = .ok (clip timed) := by cbv
  have hinput := (read_clip timed (by decide) (by decide)).2.2 ⟨1280, 720⟩
  have hmade : clipAlone.files.create "out" = .ok (["out"], clipAlone.files.put ["out"] (.file [])) := by cbv
  have hcreate : ∀ path, some "out" = some path → ∃ made, clipAlone.files.create path = .ok made := by
    intro path hpath
    cases hpath
    exact ⟨_, hmade⟩
  obtain ⟨r, s, -, hending, -, -, -, -, hwritten⟩ :=
    replay_complete (o := { file := "in", output := some "out" }) hconfig hfile hinput (by decide) (by decide)
      (by decide) hcreate
  exact ⟨hending, hwritten "out" rfl⟩

end Replay

end EncodedFeed
