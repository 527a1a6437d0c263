import EncodedFeed.Proofs.Session.Run
import EncodedFeed.Proofs.Table

/-!
# Lanes

A lane is a source with one pipeline attached to it, the pipeline's encoder, which is bound to the source,
and the output behind it.  What is done to a lane stays in the lane: whatever else a session holds, a frame
pushed into the source changes these four objects, as `Lane.State` says, and tells the watcher of the source
of a keyframe request.
-/

namespace EncodedFeed

/-- The objects of a lane. -/
structure Lane where
  source : RoutingId
  pipeline : Ref .pipeline
  encoder : Ref .encoder
  output : Ref .output
deriving DecidableEq

/-- What the objects of a lane are. -/
structure Lane.State where
  source : Source
  pipeline : Pipeline
  encoder : Passthrough
  output : Output

namespace Session

/-- The lane is there and is in a state. -/
structure Has (s : Session) (a : Lane) (x : Lane.State) : Prop where
  source : s.source? a.source = some x.source
  pipeline : s.pipeline? a.pipeline = some x.pipeline
  encoder : s.encoder? a.encoder = some (.passthrough x.encoder)
  output : s.output? a.output = some x.output

/-- Put a lane into a state; meanwhile something happens. -/
def move (s : Session) (a : Lane) (x : Lane.State) (es : List Event) : Session :=
  { s with
    sources := s.sources.modify a.source.number fun _ => x.source
    pipelines := s.pipelines.modify a.pipeline.number fun _ => x.pipeline
    encoders := s.encoders.modify a.encoder.number fun _ => .passthrough x.encoder
    outputs := s.outputs.modify a.output.number fun slot => { slot with output := x.output }
    journal := es.reverse ++ s.journal }

/-- Tell a watcher, if there is one, of a keyframe request. -/
def tell (s : Session) : Option Watcher → Session
  | none => s
  | some w => { s with observers := s.observers.modify w.observer.number fun x => x.push w.layer }

end Session

namespace Lane.State

/-! ### What happens in a lane -/

/-- The encoder takes the next frame and presents it. -/
def passOn (x : State) (a : Lane) (raw : RawFrame) : Except Error Outcome × State × List Event :=
  match x.source.queue with
  | [] => (.ok .noOutput, x, [])
  | f :: rest =>
    let i := x.encoder.image f raw
    let y := { x with source := { x.source with queue := rest }, output := (x.output.offer i).2 }
    match (x.output.offer i).1 with
    | some e =>
      (.error (.sink e), y,
        [.taken a.source f, .presented a.output i (some e), .warned (.refused e)])
    | none =>
      (.ok .emitted,
        { y with
          pipeline := { y.pipeline with stats := y.pipeline.stats.accept i.image }
          encoder := { y.encoder with emitted := y.encoder.emitted + 1 } },
        [.taken a.source f, .presented a.output i none])

/-- The pipeline counts what came of a pull. -/
def tally (x : State) : Except Error Outcome → State × List Event
  | .ok .emitted => (x, [])
  | .ok .noOutput =>
    ({ x with
        pipeline := { x.pipeline with
          stats := { x.pipeline.stats with emptyPulls := x.pipeline.stats.emptyPulls + 1 } } }, [])
  | .error e =>
    ({ x with
        pipeline := { x.pipeline with
          stats := { x.pipeline.stats with errors := x.pipeline.stats.errors + 1 } } },
      [.warned (if e.needsReinit then .needsReinit e else .pullFailed e)])

/-- The lane after its source was asked for a keyframe, if it was. -/
def asked (x : State) (key : Bool) : State :=
  { x with source := if key then x.source.requestKeyframe else x.source }

/-- What a pull gives.  A key frame is asked for even if nothing is sent. -/
def pull (x : State) (a : Lane) (raw : RawFrame) (key : Bool) : Except Error Outcome × State × List Event :=
  let p := if x.encoder.sending then (x.asked key).passOn a raw else (.ok .noOutput, x.asked key, [])
  (p.1, p.2.1, (if key then [.asked a.source] else []) ++ p.2.2)

/-- A raw frame as the pipeline hands it on. -/
def clocked (raw : RawFrame) : RawFrame := { raw with rtp := raw.timestamp.map rtpOfMicros }

/-- The lane with one more pull counted, and no keyframe pending. -/
def counted (x : State) : State :=
  { x with
    pipeline := { x.pipeline with
      keyframePending := false, stats := { x.pipeline.stats with pulls := x.pipeline.stats.pulls + 1 } } }

/-- The pipeline gets a raw frame. -/
def fed (x : State) (a : Lane) (raw : RawFrame) : State × List Event :=
  let p := x.counted.pull a (clocked raw) x.pipeline.keyframePending
  ((p.2.1.tally p.1).1, p.2.2 ++ (p.2.1.tally p.1).2)

/-- Who hears of a keyframe request, if there is one. -/
def hearer (x : State) (key : Bool) : Option Watcher := if key then x.source.watcher else none

/-- The warning that goes with a frame if the queue has grown past its depth. -/
def depthWarning (x : State) (a : Lane) : List Event :=
  if x.source.isPastDepth then [.warned (.queueGrew a.source x.source.warnDepth)] else []

/-- The lane with one more frame waiting. -/
def enqueued (x : State) (f : EncodedFrame) : State := { x with source := x.source.enqueue f }

/-- The stamp for a capture time. -/
def stamp (x : State) (capture now : Int64) : Stamped Int64 := (x.source.pump.stamp capture now).1

/-- The lane after a stamp was given. -/
def stamped (x : State) (capture now : Int64) : State :=
  { x with source := { x.source with pump := (x.source.pump.stamp capture now).2 } }

/-- The placeholder that goes with a stamp. -/
def placeholder (x : State) (a : Lane) (t : Stamped Int64) : RawFrame where
  picture := x.source.pump.placeholder
  timestamp := t
  source := some a.source

/-- The lane after a frame was pushed. -/
def pushed (x : State) (a : Lane) (f : EncodedFrame) (now : Int64) : State × List Event :=
  let y := x.enqueued f
  let z := (y.stamped f.captureUs now).fed a (y.placeholder a (y.stamp f.captureUs now))
  (z.1, .pushed a.source f :: (y.depthWarning a ++ z.2))

/-- The parts of a lane fit together and are in working order. -/
structure Wired (a : Lane) (x : State) : Prop where
  live : x.source.closed = false
  running : x.source.pump.ended = false
  taps : x.source.pump.taps.map Prod.snd = [.pipeline a.pipeline]
  encoder : x.pipeline.encoder = a.encoder
  binding : x.encoder.binding = .bound a.source
  configured : x.encoder.settings.isSome = true
  destination : x.encoder.destination = some ⟨a.output, some a.pipeline⟩

end Lane.State

/-! ### Elementary changes of a lane -/

namespace Session

variable {s : Session} {a : Lane} {x y : Lane.State} {es es' : List Event}

theorem has_tell (h : s.Has a x) (w : Option Watcher) : (s.tell w).Has a x := by
  cases w with
  | none => exact h
  | some w => exact ⟨h.source, h.pipeline, h.encoder, h.output⟩

theorem tell_move (w : Option Watcher) : (s.move a y es).tell w = (s.tell w).move a y es := by
  cases w <;> rfl

theorem move_move : (s.move a x es).move a y es' = s.move a y (es ++ es') := by
  simp only [move, Table.modify_modify, List.reverse_append, List.append_assoc]

theorem has_move (h : s.Has a x) : (s.move a y es).Has a y where
  source := by
    have hs : s.sources.get? a.source.number = some x.source := h.source
    rw [source?, move, Table.get?_modify, if_pos rfl, hs, Option.map_some]
  pipeline := by
    have hp : s.pipelines.get? a.pipeline.number = some x.pipeline := h.pipeline
    rw [pipeline?, move, Table.get?_modify, if_pos rfl, hp, Option.map_some]
  encoder := by
    have he : s.encoders.get? a.encoder.number = some (.passthrough x.encoder) := h.encoder
    rw [encoder?, move, Table.get?_modify, if_pos rfl, he, Option.map_some]
  output := by
    obtain ⟨slot, hslot, _⟩ := Option.map_eq_some_iff.mp h.output
    simp only [output?, move, Table.get?_modify, if_true, hslot, Option.map_some]

/-- A lane is where it is. -/
theorem move_self (h : s.Has a x) : s.move a x [] = s := by
  have hs : s.sources.modify a.source.number (fun _ => x.source) = s.sources :=
    Table.modify_self _ h.source
  have hp : s.pipelines.modify a.pipeline.number (fun _ => x.pipeline) = s.pipelines :=
    Table.modify_self _ h.pipeline
  have he : s.encoders.modify a.encoder.number (fun _ => .passthrough x.encoder) = s.encoders :=
    Table.modify_self _ h.encoder
  have ho : s.outputs.modify a.output.number (fun slot => { slot with output := x.output }) = s.outputs := by
    obtain ⟨slot, hslot, hout⟩ := Option.map_eq_some_iff.mp h.output
    rw [Table.modify_eq_of_get? _ hslot, ← hout]
    exact Table.modify_self _ hslot
  simp only [move, hs, hp, he, ho, List.reverse_nil, List.nil_append]

theorem note_eq_move (h : s.Has a x) (e : Event) : s.note e = s.move a x [e] := by
  have hself := congrArg (fun t => note t e) (move_self h)
  exact hself.symm

theorem modifySource_eq_move (h : s.Has a x) (f : Source → Source) :
    s.modifySource a.source f = s.move a { x with source := f x.source } [] := by
  have hsrc : s.sources.modify a.source.number f
      = s.sources.modify a.source.number fun _ => f x.source := Table.modify_eq_of_get? _ h.source f
  have hself := congrArg (fun t => { t with sources := s.sources.modify a.source.number f }) (move_self h)
  rw [modifySource, ← hself, hsrc]
  rfl

theorem modifyPipeline_eq_move (h : s.Has a x) (f : Pipeline → Pipeline) :
    s.modifyPipeline a.pipeline f = s.move a { x with pipeline := f x.pipeline } [] := by
  have hpipe : s.pipelines.modify a.pipeline.number f
      = s.pipelines.modify a.pipeline.number fun _ => f x.pipeline := Table.modify_eq_of_get? _ h.pipeline f
  have hself := congrArg (fun t => { t with pipelines := s.pipelines.modify a.pipeline.number f })
    (move_self h)
  rw [modifyPipeline, ← hself, hpipe]
  rfl

theorem setEncoder_eq_move (h : s.Has a x) (p : Passthrough) :
    s.setEncoder a.encoder (.passthrough p) = s.move a { x with encoder := p } [] := by
  have hself := congrArg
    (fun t => { t with encoders := s.encoders.modify a.encoder.number fun _ => .passthrough p }) (move_self h)
  rw [setEncoder, ← hself]
  rfl

theorem modifyOutput_eq_move (h : s.Has a x) (f : Output → Output) :
    s.modifyOutput a.output f = s.move a { x with output := f x.output } [] := by
  obtain ⟨slot, hslot, hout⟩ := Option.map_eq_some_iff.mp h.output
  have hmod : s.outputs.modify a.output.number (fun slot => { slot with output := f slot.output })
      = s.outputs.modify a.output.number fun slot => { slot with output := f x.output } := by
    refine Table.modify_congr _ fun slot' h' => ?_
    rw [hslot, Option.some.injEq] at h'
    rw [← h', hout]
  have hself := congrArg
    (fun t => { t with outputs := s.outputs.modify a.output.number fun slot =>
      { slot with output := f slot.output } }) (move_self h)
  rw [modifyOutput, ← hself, hmod]
  rfl

/-! ### Compound changes of a lane -/

theorem count_eq_move (h : s.Has a x) (f : PipelineStats → PipelineStats) :
    s.count a.pipeline f
      = s.move a { x with pipeline := { x.pipeline with stats := f x.pipeline.stats } } [] :=
  modifyPipeline_eq_move h fun p => { p with stats := f p.stats }

theorem warn_eq_move (h : s.Has a x) (w : Warning) : s.warn w = s.move a x [.warned w] :=
  note_eq_move h (.warned w)

theorem queue_eq_of_has (h : s.Has a x) : s.queue a.source = x.source.queue := by
  simp only [queue, h.source, Option.map_some, Option.getD_some]

theorem take_eq_move (h : s.Has a x) {f : EncodedFrame} {rest : List EncodedFrame}
    (hq : x.source.queue = f :: rest) :
    s.take a.source
      = (some f, s.move a { x with source := { x.source with queue := rest } } [.taken a.source f]) := by
  rw [take_of_queue_cons ((queue_eq_of_has h).trans hq), modifySource_eq_move h,
    note_eq_move (has_move h), move_move]
  rfl

theorem requestKeyframe_eq_move (h : s.Has a x) :
    s.requestKeyframe a.source
      = (s.tell x.source.watcher).move a (x.asked true) [.asked a.source] := by
  unfold requestKeyframe
  rw [modifySource_eq_move h, note_eq_move (has_move h), move_move]
  dsimp only
  rw [(has_move h).source, Option.bind_some]
  show (match x.source.watcher with | none => _ | some w => _) = _
  cases x.source.watcher <;> rfl

theorem present_eq_move (h : s.Has a x) (i : EmittedImage) :
    s.present ⟨a.output, some a.pipeline⟩ i
      = ((x.output.offer i).1, s.move a { x with
          output := (x.output.offer i).2
          pipeline := match (x.output.offer i).1 with
            | none => { x.pipeline with stats := x.pipeline.stats.accept i.image }
            | some _ => x.pipeline } [.presented a.output i (x.output.offer i).1]) := by
  unfold present
  dsimp only
  rw [h.output, Option.bind_some, modifyOutput_eq_move h, note_eq_move (has_move h), move_move]
  cases (x.output.offer i).1 with
  | none => dsimp only; rw [count_eq_move (has_move h), move_move]; rfl
  | some e => rfl

theorem passOn_eq_move (h : s.Has a x) (raw : RawFrame) :
    s.passOn x.encoder ⟨a.output, some a.pipeline⟩ a.source raw
      = ((x.passOn a raw).1, (x.passOn a raw).2.1.encoder,
          s.move a { (x.passOn a raw).2.1 with encoder := x.encoder } (x.passOn a raw).2.2) := by
  unfold passOn Lane.State.passOn
  cases hq : x.source.queue with
  | nil =>
    rw [take_of_queue_nil ((queue_eq_of_has h).trans hq)]
    simp only [move_self h]
  | cons f rest =>
    rw [take_eq_move h hq]
    dsimp only
    rw [present_eq_move (has_move h), move_move]
    dsimp only
    cases (x.output.offer (x.encoder.image f raw)).1 with
    | none => rfl
    | some e =>
      dsimp only
      rw [warn_eq_move (has_move h), move_move]
      rfl

/-- A pull that gets as far as the source of the lane. -/
theorem pull_eq_move (h : s.Has a x) (hw : x.Wired a) (raw : RawFrame) (types : List FrameType) :
    s.pull x.encoder raw types
      = ((x.pull a raw (types.contains .key)).1, (x.pull a raw (types.contains .key)).2.1.encoder,
          (s.tell (x.hearer (types.contains .key))).move a
            { (x.pull a raw (types.contains .key)).2.1 with encoder := x.encoder }
            (x.pull a raw (types.contains .key)).2.2) := by
  obtain ⟨settings, hset⟩ := Option.isSome_iff_exists.mp hw.configured
  unfold pull
  rw [hset, hw.destination, hw.binding]
  simp only [resolve]
  -- whether or not a keyframe is asked for, the lane is then in the state `asked`
  obtain ⟨t, ht, hask, htell⟩ : ∃ t, t.Has a (x.asked (types.contains .key)) ∧
      (if types.contains .key then s.requestKeyframe a.source else s) = t ∧
      t = (s.tell (x.hearer (types.contains .key))).move a (x.asked (types.contains .key))
        (if types.contains .key then [.asked a.source] else []) := by
    cases types.contains .key with
    | true => exact ⟨_, has_move (has_tell h _), requestKeyframe_eq_move h, rfl⟩
    | false => exact ⟨s, h, rfl, (move_self h).symm⟩
  rw [hask, Lane.State.pull]
  cases x.encoder.sending with
  | true =>
    refine (passOn_eq_move ht raw).trans ?_
    rw [htell, move_move]
    rfl
  | false =>
    rw [htell]
    simp only [Bool.false_eq_true, if_false, List.append_nil]
    rfl

theorem call_pull_eq_move (h : s.Has a x) (hw : x.Wired a) (raw : RawFrame) (types : List FrameType) :
    s.call a.encoder (.pull raw types)
      = ((x.pull a raw (types.contains .key)).1,
          (s.tell (x.hearer (types.contains .key))).move a (x.pull a raw (types.contains .key)).2.1
            (x.pull a raw (types.contains .key)).2.2) := by
  unfold call
  rw [h.encoder]
  simp only [callPassthrough, pull_eq_move h hw raw types]
  rw [setEncoder_eq_move (has_move (has_tell h _)), move_move, List.append_nil]

theorem tally_eq_move (h : s.Has a x) (r : Except Error Outcome) :
    s.tally a.pipeline r = s.move a (x.tally r).1 (x.tally r).2 := by
  cases r with
  | error e =>
    show (s.count a.pipeline _).warn _ = _
    rw [count_eq_move h, warn_eq_move (has_move h), move_move]
    rfl
  | ok o =>
    cases o with
    | emitted => exact (move_self h).symm
    | noOutput => exact count_eq_move h fun c => { c with emptyPulls := c.emptyPulls + 1 }

/-- **A raw frame that reaches the pipeline of a lane.** -/
theorem feed_eq_move (h : s.Has a x) (hw : x.Wired a) (raw : RawFrame) :
    s.feed a.pipeline raw
      = (s.tell (x.hearer x.pipeline.keyframePending)).move a (x.fed a raw).1 (x.fed a raw).2 := by
  have hcount : (s.move a x.counted []).Has a x.counted := has_move h
  have hcounted : x.counted.Wired a :=
    ⟨hw.live, hw.running, hw.taps, hw.encoder, hw.binding, hw.configured, hw.destination⟩
  have hkey : [x.pipeline.nextType].contains FrameType.key = x.pipeline.keyframePending := by
    cases hp : x.pipeline.keyframePending <;> simp [Pipeline.nextType, FrameType.ofKey, hp]
  have hcall := call_pull_eq_move hcount hcounted (Lane.State.clocked raw) [x.pipeline.nextType]
  rw [hkey, tell_move, move_move, ← hw.encoder] at hcall
  unfold feed
  rw [h.pipeline]
  dsimp only
  rw [modifyPipeline_eq_move h]
  refine (congrArg (fun r => r.2.tally a.pipeline r.1) hcall).trans ?_
  dsimp only
  rw [tally_eq_move (has_move (has_tell h _)), move_move]
  rfl

/-- The pump of a lane stamps a placeholder and hands it out. -/
theorem emit_eq_move (h : s.Has a x) (hw : x.Wired a) (capture now : Int64) :
    (s.emit a.source capture now).2
      = (s.tell (x.hearer x.pipeline.keyframePending)).move a
          ((x.stamped capture now).fed a (x.placeholder a (x.stamp capture now))).1
          ((x.stamped capture now).fed a (x.placeholder a (x.stamp capture now))).2 := by
  have hstamp : s.modifyPump a.source (fun _ => (x.source.pump.stamp capture now).2)
      = s.move a (x.stamped capture now) [] := modifySource_eq_move h _
  have hstamped : (x.stamped capture now).Wired a :=
    ⟨hw.live, hw.running, hw.taps, hw.encoder, hw.binding, hw.configured, hw.destination⟩
  have hin : (s.move a (x.stamped capture now) []).Has a (x.stamped capture now) := has_move h
  have hfeed := feed_eq_move hin hstamped (x.placeholder a (x.stamp capture now))
  unfold emit
  rw [h.source]
  dsimp only
  rw [hstamp, pushRaw, hin.source]
  dsimp only
  have hrun : (x.stamped capture now).source.pump.ended = false := hw.running
  have htaps : (x.stamped capture now).source.pump.taps.map Prod.snd = [.pipeline a.pipeline] := hw.taps
  rw [hrun, htaps, if_neg Bool.false_ne_true]
  refine hfeed.trans ?_
  rw [tell_move, move_move]
  rfl

theorem checkDepth_eq_move (h : s.Has a x) : s.checkDepth a.source = s.move a x (x.depthWarning a) := by
  unfold checkDepth Lane.State.depthWarning
  rw [h.source]
  dsimp only
  split
  · exact warn_eq_move h _
  · exact (move_self h).symm

/-- **A frame that is pushed into the source of a lane.** -/
theorem push_eq_move (h : s.Has a x) (hw : x.Wired a) (f : EncodedFrame) (now : Int64) :
    s.push a.source f now
      = (true, (s.tell (x.hearer x.pipeline.keyframePending)).move a (x.pushed a f now).1
          (x.pushed a f now).2) := by
  have henq : (x.enqueued f).Wired a :=
    ⟨hw.live, hw.running, hw.taps, hw.encoder, hw.binding, hw.configured, hw.destination⟩
  have hin : (s.modifySource a.source fun src => src.enqueue f).note (.pushed a.source f)
      = s.move a (x.enqueued f) [.pushed a.source f] := by
    rw [modifySource_eq_move h, note_eq_move (has_move h), move_move]
    rfl
  unfold push
  rw [h.source]
  dsimp only
  rw [hw.live, if_neg Bool.false_ne_true, hin, checkDepth_eq_move (has_move h), move_move,
    emit_eq_move (has_move h) henq, tell_move, move_move]
  rfl

end Session

end EncodedFeed
