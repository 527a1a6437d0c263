import EncodedFeed.Cli.Perform
import EncodedFeed.Proofs.Simulation.Layers
import Mathlib

/-!
# Simulations keep their schedule

If there are pictures of the sizes that are configured, a simulation gets going, and then all of its layers come
through all frames: on each layer every frame that is pushed comes out at once, in order, and is a keyframe just when
the schedule says so.  This is also what is reported (`report_of_course`), and so no layer is ever found wrong.  The
loop pushes without checks, and comes to the same with them (`steps_checked`).
-/

namespace EncodedFeed

namespace Simulation

variable {x : Setup} {l n : Nat} {due : Bool} {s : Session} {y : Lane.State}

/-! ### A whole run -/

/-- All layers stand before their first frame. -/
theorem Built.reached (h : Built x x.layers s) : Reached x 0 s := by
  refine ⟨?_, h.layer⟩
  rw [Session.Listens, h.observer]
  rfl

theorem length_doings_le (x : Setup) (now : Int64) (n m : Nat) : (doings x now n m).length ≤ m * (1 + x.layers) := by
  have hone : ∀ k ∈ (List.range' n m).map fun i => (asking x i ++ captures x now i 0 x.layers).length,
      k ≤ 1 + x.layers := by
    intro k hk
    obtain ⟨i, -, rfl⟩ := List.mem_map.mp hk
    rw [List.length_append, captures, List.length_map, List.length_range', asking, List.length_map]
    exact Nat.add_le_add_right Option.length_toList_le x.layers
  have hsum := List.sum_le_card_nsmul _ _ hone
  rwa [List.length_map, List.length_range', smul_eq_mul, ← List.length_flatMap] at hsum

/-- **A simulation pushes as with checks.**  It counts its times from zero, and there are not that many. -/
theorem steps_checked {g : Group} (hx : 0 < x.layers) (hlayers : x.layers < 2 ^ 30) (hg : Suits x g)
    (hs : Built x x.layers s) (harea : x.source.resolution.area < 2 ^ 32) (hpace : canPace x.fps = true)
    (hdepth : x.source.warnDepth.toNat + 1 < 2 ^ 64) (now : Int64) : s.run? (doings x now 0 x.frames.toNat)
      = some (steps x g audience now (List.range x.frames.toNat) ((List.range x.layers).map (layerAt x 0)) s).2 := by
  obtain ⟨t, hloop, hrun, -⟩ := reached_steps hx (fun l => Resolution.area_scaledDown_lt harea _)
    (fun l hl => hg.layer hl) now x.frames.toNat hs.reached
  rw [← List.range_eq_range'] at hloop
  rw [congrArg Prod.snd hloop, ← hrun]
  refine run?_of_counted (n := x.frames.toNat) hpace (fun a ha => ?_) ?_
  · obtain ⟨i, hi, ha⟩ := List.mem_flatMap.mp ha
    obtain ⟨-, hi⟩ := List.mem_range'_1.mp hi
    rcases List.mem_append.mp ha with ha | ha
    · obtain ⟨l, -, rfl⟩ := List.mem_map.mp ha
      trivial
    · obtain ⟨l, hl, rfl⟩ := List.mem_map.mp ha
      obtain ⟨-, hl⟩ := List.mem_range'_1.mp hl
      exact ⟨⟨i, by omega, rfl⟩, _, hs.dial l (by omega), hdepth⟩
  · have hlength := length_doings_le x now 0 x.frames.toNat
    have hinterval := frameInterval_le x.fps
    calc x.frames.toNat * frameInterval x.fps + (doings x now 0 x.frames.toNat).length
        ≤ x.frames.toNat * frameInterval x.fps + x.frames.toNat * (1 + x.layers) := by omega
      _ = x.frames.toNat * (frameInterval x.fps + (1 + x.layers)) := (Nat.mul_add _ _ _).symm
      _ ≤ 2 ^ 32 * (1000000 + (1 + 2 ^ 30)) := Nat.mul_le_mul (Nat.le_of_lt x.frames.toNat_lt) (by omega)
      _ < 2 ^ 63 := by decide

/-- **A simulation comes through all its frames.** -/
theorem run_reached (hx : 0 < x.layers) (hplaceholder : x.source.placeholder.area < 2 ^ 32)
    (harea : x.source.resolution.area < 2 ^ 32) (hpace : canPace x.fps = true) (now : Int64) :
    ∃ s, run x now
        = (.ok (((List.range x.layers).map (layerAt x x.frames.toNat)).map (report s audience)), s) ∧
      Reached x x.frames.toNat s := by
  obtain ⟨g, t, hgroup, hmade⟩ := exists_addGroup hx (Resolution.hasPicture_of_area hplaceholder)
    ({} : Session).addRegistry.2 ⟨1⟩
  obtain ⟨hsuits, hobserver, hbuilt⟩ := built_addGroup hgroup
  set u := t.addObserver.2.watchGroup g audience with hu
  obtain ⟨v, hlayers, hv⟩ := built_addLayers (u.streams g) hsuits x.layers (Nat.zero_add _) hbuilt
  rw [← List.range_eq_range', ← hsuits.layers] at hlayers
  obtain ⟨w, hloop, -, hw⟩ := reached_steps hx (fun l => Resolution.area_scaledDown_lt harea _)
    (fun l hl => hsuits.layer hl) now x.frames.toNat hv.reached
  rw [← List.range_eq_range', Nat.zero_add] at hloop
  rw [Nat.zero_add] at hw
  refine ⟨w, ?_, hw⟩
  unfold run
  dsimp only
  rw [show ({} : Session).addRegistry.1 = ⟨1⟩ from rfl, hmade]
  dsimp only
  rw [hobserver, ← hu, hlayers]
  dsimp only
  rw [if_pos hpace, hloop]

/-! ### Reports -/

/-- **What is reported on a layer** after `n` frames. -/
theorem report_of_course (h : Course x l n due s y) (hn : n ≤ 0x100000000) :
    report s audience (layerAt x n l) = {
      index := l
      resolution := resolution x l
      pushed := n
      keyframes := (framesBefore x l n).countP (·.isKey)
      keyframeRequests := requestsBefore x l n
      inOrder := true
      indexed := true
      stats := counts (framesBefore x l n) } := by
  obtain ⟨images, himages, htraits⟩ := h.output
  have houtput : s.output? (layerAt x n l).output = some (.collector images) :=
    h.isLayer.has.output.trans (congrArg some himages)
  have hpipeline : s.pipeline? (layerAt x n l).pipeline = some y.pipeline := h.isLayer.has.pipeline
  have hlength : images.toList.length = n := by
    have hlen := congrArg List.length htraits
    rwa [List.length_map, List.length_map, length_framesBefore] at hlen
  have hdata : images.toList.map (fun i => i.image.data) = (framesBefore x l n).map (fun f => f.payload) := by
    have hfst := congrArg (List.map Prod.fst) htraits
    rwa [List.map_map, List.map_map] at hfst
  have horder : countsFrom 0 (images.toList.map fun i => i.image.data) = true := by
    refine countsFrom_of_getElem? fun i data hi => ?_
    rw [hdata, framesBefore, List.map_map, List.getElem?_map, Option.map_eq_some_iff] at hi
    obtain ⟨j, hj, rfl⟩ := hi
    obtain ⟨hlt, rfl⟩ := List.getElem?_eq_some_iff.mp hj
    rw [List.length_range] at hlt
    rw [List.getElem_range, Nat.zero_add]
    exact payloadIndex?_payload l (Nat.lt_of_lt_of_le hlt hn) _ _
  have hindexed : (images.toList.all fun i => i.image.layer == some (UInt32.ofNat l)) = true := by
    refine List.all_eq_true.mpr fun i hi => ?_
    have hmem : traits i ∈ (framesBefore x l n).map (expected l) := htraits ▸ List.mem_map_of_mem hi
    obtain ⟨f, -, hf⟩ := List.mem_map.mp hmem
    exact beq_iff_eq.mpr (congrArg (·.2.2) hf).symm
  unfold report
  dsimp only
  rw [houtput, hpipeline, requests_eq]
  dsimp only [layerAt, Option.map_some, Option.getD_some, Output.images]
  rw [h.told, h.stats, hlength, horder, hindexed, beq_self_eq_true]
  rfl

/-! ### The schedule -/

/-- The frames that have gone into a layer, first to last. -/
def framesInto (s : Session) (l : Nat) : List EncodedFrame := enteredInto (lane l).source s.journal.reverse

/-- The images that have come out of a layer, first to last. -/
def imagesOf (s : Session) (l : Nat) : List EmittedImage := ((s.output? (lane l).output).map Output.images).getD []

/-- A layer has kept the schedule in a run that ended in a session, and the report on it says so. -/
structure KeptSchedule (x : Setup) (l : Nat) (s : Session) (r : LayerReport) : Prop where
  index : r.index = l
  resolution : r.resolution = resolution x l
  verified : r.inOrder = true ∧ r.indexed = true
  /-- Every frame was pushed, every pull gave an image, and none failed. -/
  pushed : r.pushed = x.frames.toNat ∧ (framesInto s l).length = x.frames.toNat
  stats : r.stats = {
    pulls := x.frames.toNat
    framesEmitted := x.frames.toNat
    keyframesEmitted := (framesInto s l).countP (·.isKey)
    emptyPulls := 0
    errors := 0
    bytesEmitted := ((framesInto s l).map fun f => f.payload.length).sum }
  keyframes : r.keyframes = (framesInto s l).countP (·.isKey)
  /-- The images are those of the frames, in order, and have their key flags. -/
  images : (imagesOf s l).map (fun i => (i.image.data, i.image.frameType, i.image.layer))
    = (framesInto s l).map fun f => (f.payload, FrameType.ofKey f.isKey, some (UInt32.ofNat l))
  /-- The `k`-th request is made before frame `k * interval`, of layer `k % layers`. -/
  requests : r.keyframeRequests = if x.requestInterval = 0 then 0
    else Nat.count (fun k => 0 < k ∧ k * x.requestInterval.toNat < x.frames.toNat ∧ k % x.layers = l) x.frames.toNat
  /-- A frame is a keyframe when a group of pictures begins, or right behind a request of its layer. -/
  schedule (i : Nat) (f : EncodedFrame) : (framesInto s l)[i]? = some f →
    payloadIndex? f.payload = some i ∧
      (f.isKey = true ↔ (0 < x.gop.toNat ∧ x.gop.toNat ∣ i) ∨
        (0 < x.requestInterval.toNat ∧
          ∃ k, 0 < k ∧ k % x.layers = l ∧ i = k * x.requestInterval.toNat + 1))

theorem keptSchedule_of_course (h : Course x l x.frames.toNat due s y) :
    KeptSchedule x l s (report s audience (layerAt x x.frames.toNat l)) := by
  have hn : x.frames.toNat ≤ 0x100000000 := Nat.le_of_lt x.frames.toNat_lt
  have hentered : framesInto s l = framesBefore x l x.frames.toNat := h.entered
  obtain ⟨images, himages, htraits⟩ := h.output
  have houtput : s.output? (lane l).output = some (.collector images) :=
    h.isLayer.has.output.trans (congrArg some himages)
  rw [report_of_course h hn]
  refine ⟨rfl, rfl, ⟨rfl, rfl⟩, ⟨rfl, ?_⟩, ?_, ?_, ?_, requestsBefore_eq x l _, fun i f hi => ?_⟩
  · rw [hentered, length_framesBefore]
  · rw [hentered, counts, length_framesBefore]
  · rw [hentered]
  · rw [hentered, imagesOf, houtput]
    exact htraits
  · rw [hentered, framesBefore, List.getElem?_map, Option.map_eq_some_iff] at hi
    obtain ⟨j, hj, rfl⟩ := hi
    obtain ⟨hlt, rfl⟩ := List.getElem?_eq_some_iff.mp hj
    rw [List.length_range] at hlt
    rw [List.getElem_range]
    exact ⟨payloadIndex?_payload l (Nat.lt_of_lt_of_le hlt hn) _ _, isKeyAt_iff⟩

/-! ### The command -/

/-- What a command comes to that simulates what is configured. -/
theorem perform_simulate {o : Cli.SimulateOptions} {e : Cli.Surroundings} {source : SourceConfig}
    {encoder : EncoderConfig} {codec : Codec} {reports : List LayerReport}
    (hconfig : Cli.configured (Preferences.loadOrDefault e.files e.configPath).1 = .ok (source, encoder))
    (hcodec : Cli.simulatedCodec o source = .ok codec)
    (hrun : run {
      source := { source with codec }, encoder, layers := o.layers, frames := o.frames, gop := o.gop
      requestInterval := o.keyframeInterval, fps := o.fps } e.now = (.ok reports, s)) :
    ((Cli.Command.simulate o).perform e).ending = Cli.simulationEnding reports ∧
      ((Cli.Command.simulate o).perform e).printed
        = if o.json then Cli.simulationJson codec reports else Cli.simulationText codec reports := by
  simp only [Cli.Command.perform, Cli.withConfigured, hconfig, Cli.simulate, hcodec, hrun, and_self]

/-- **Simulations keep their schedule.**  Given a configuration in which the pixels of the picture and those of the
placeholder are words of 32 bits, a codec, a layer at least and a rate of at most a million, a simulation ends well,
and there is a report on each layer, which has kept the schedule. -/
theorem simulate_keeps_schedule {o : Cli.SimulateOptions} {e : Cli.Surroundings} {source : SourceConfig}
    {encoder : EncoderConfig} {codec : Codec}
    (hconfig : Cli.configured (Preferences.loadOrDefault e.files e.configPath).1 = .ok (source, encoder))
    (hplaceholder : source.placeholder.area < 2 ^ 32) (harea : source.resolution.area < 2 ^ 32)
    (hcodec : Cli.simulatedCodec o source = .ok codec) (hlayers : 0 < o.layers) (hfps : o.fps ≤ 1000000) :
    let x : Setup := {
      source := { source with codec }, encoder, layers := o.layers, frames := o.frames, gop := o.gop
      requestInterval := o.keyframeInterval, fps := o.fps }
    ∃ reports s, run x e.now = (.ok reports, s) ∧
      ((Cli.Command.simulate o).perform e).ending = .done ∧
      ((Cli.Command.simulate o).perform e).printed
        = (if o.json then Cli.simulationJson codec reports else Cli.simulationText codec reports) ∧
      reports.length = o.layers ∧
      ∀ l r, reports[l]? = some r → KeptSchedule x l s r := by
  intro x
  obtain ⟨s, hrun, hreached⟩ := run_reached (x := x) hlayers hplaceholder harea (canPace_of_le hfps) e.now
  obtain ⟨hending, hprinted⟩ := perform_simulate hconfig hcodec hrun
  set reports := ((List.range x.layers).map (layerAt x x.frames.toNat)).map (report s audience) with hreports
  have hkept : ∀ l r, reports[l]? = some r → KeptSchedule x l s r := by
    intro l r hr
    rw [hreports, List.map_map, List.getElem?_map, Option.map_eq_some_iff] at hr
    obtain ⟨k, hk, rfl⟩ := hr
    obtain ⟨hlt, rfl⟩ := List.getElem?_eq_some_iff.mp hk
    rw [List.length_range] at hlt
    rw [List.getElem_range]
    obtain ⟨y, hy⟩ := hreached.layer l hlt
    exact keptSchedule_of_course hy
  refine ⟨reports, s, hrun, ?_, hprinted, ?_, hkept⟩
  · have hnone : reports.find? (fun r => !r.ok) = none := by
      refine List.find?_eq_none.mpr fun r hr => ?_
      obtain ⟨l, hl⟩ := List.getElem?_of_mem hr
      obtain ⟨horder, hindexed⟩ := (hkept l r hl).verified
      simp [LayerReport.ok, horder, hindexed]
    rw [hending, Cli.simulationEnding, hnone]
  · rw [hreports, List.length_map, List.length_map, List.length_range]

/-- No configuration, and no file at all. -/
def nothingAround : Cli.Surroundings := ⟨⟨[]⟩, "rc", 0⟩

/-- Six frames in two layers, a group of pictures being four frames and every second frame coming with a request. -/
def sixFrames : Cli.SimulateOptions where
  layers := 2
  frames := 6
  gop := 4
  keyframeInterval := 2

theorem simulate_keeps_schedule_sixFrames :
    ((Cli.Command.simulate sixFrames).perform nothingAround).ending = .done ∧
    ∃ reports s, run ⟨{}, {}, 2, 6, 4, 2, 0⟩ 0 = (.ok reports, s) ∧
      reports.map LayerReport.keyframeRequests = [1, 1] ∧ (framesInto s 1)[3]?.map (·.isKey) = some true := by
  have hconfig : Cli.configured (Preferences.loadOrDefault nothingAround.files nothingAround.configPath).1
      = .ok ({}, {}) := by cbv
  have hcodec : Cli.simulatedCodec sixFrames {} = .ok ({} : SourceConfig).codec := rfl
  obtain ⟨reports, s, hrun, hending, -, hlength, hkept⟩ :=
    simulate_keeps_schedule hconfig (by decide) (by decide) hcodec (by decide) (by decide)
  obtain ⟨r₀, r₁, rfl⟩ := List.length_eq_two.mp hlength
  have h₀ := hkept 0 r₀ rfl
  have h₁ := hkept 1 r₁ rfl
  refine ⟨hending, [r₀, r₁], s, hrun, ?_, ?_⟩
  · rw [List.map_cons, List.map_singleton, h₀.requests, h₁.requests]
    decide
  · obtain ⟨f, hf⟩ : ∃ f, (framesInto s 1)[3]? = some f := by
      refine ⟨_, List.getElem?_eq_getElem ?_⟩
      rw [h₁.pushed.2]
      decide
    have hkey : f.isKey = true := ((h₁.schedule 3 f hf).2).mpr (.inr ⟨by decide, 1, by decide, rfl, rfl⟩)
    rw [hf, Option.map_some, hkey]

end Simulation

end EncodedFeed
