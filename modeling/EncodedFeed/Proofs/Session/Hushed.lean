import EncodedFeed.Proofs.Encoder.Unseen
import EncodedFeed.Proofs.Session.Conservation
import EncodedFeed.Proofs.Session.Run
import EncodedFeed.Proofs.Table

/-!
# Keyframe requests change nothing else

A request leaves its traces in flags, with observers, in the journal, and in the calls that fallbacks record.
`Session.hushed` is a session without these traces.  Whatever is done to a session and its traces taken out
afterwards, it comes to the same as doing it to the session without traces; a request does nothing to that one
at all.  So a run and what is left of it without its requests end alike but for the traces: `hushed_run_filter`.
-/

namespace EncodedFeed

/-! ### Traces of requests -/

/-- The source, no keyframe being wanted of it. -/
def Source.hushed (s : Source) : Source := { s with keyframeRequested := false }

/-- The pipeline, not to ask for a keyframe. -/
def Pipeline.hushed (p : Pipeline) : Pipeline := { p with keyframePending := false }

/-- The fallback, never asked for a keyframe. -/
def Fallback.hushed (f : Fallback) : Fallback := { f with calls := f.calls.map Call.hushed }

theorem Call.hushed_hushed (c : Call) : c.hushed.hushed = c.hushed := by
  cases c <;> rfl

/-- An answer does not tell whether a keyframe was asked for. -/
theorem Fallback.answer_hushed (f : Fallback) (c : Call) : f.hushed.answer c.hushed = f.answer c := by
  have hheard : f.hushed.calls.toList.map Call.hushed = f.calls.toList.map Call.hushed := by
    rw [hushed, Array.toList_map, List.map_map]
    exact List.map_congr_left fun c _ => c.hushed_hushed
  unfold answer
  rw [hheard, c.hushed_hushed]
  cases c <;> rfl

/-- The session without traces of keyframe requests. -/
def Session.hushed (s : Session) : Session :=
  { s with
    sources := s.sources.map Source.hushed
    pipelines := s.pipelines.map Pipeline.hushed
    fallbacks := s.fallbacks.map Fallback.hushed
    observers := s.observers.map fun _ => #[]
    journal := s.journal.filter fun e => e.asked?.isNone }

namespace Action

/-- The action asks a source or a pipeline for a keyframe, and does nothing else. -/
def requests : Action → Bool
  | requestKeyframe _ | wantKeyframe _ => true
  | _ => false

/-- The action, asking an encoder for no keyframe. -/
def hushed : Action → Action
  | addFallback f => addFallback f.hushed
  | call e c => call e c.hushed
  | a => a

end Action

namespace Session

variable (s : Session)

/-! ### Elementary changes -/

theorem hushed_note {e : Event} (he : e.asked? = none) : (s.note e).hushed = s.hushed.note e := by
  simp only [hushed, note, List.filter_cons, he, Option.isNone_none, if_true]

theorem hushed_warn (w : Warning) : (s.warn w).hushed = s.hushed.warn w := s.hushed_note rfl

theorem hushed_modifySource (id : RoutingId) {f : Source → Source} (hf : ∀ src, (f src).hushed = f src.hushed) :
    (s.modifySource id f).hushed = s.hushed.modifySource id f := by
  have hsources := s.sources.map_modify Source.hushed id.number hf
  simp only [hushed, modifySource, hsources]

theorem hushed_modifyPipeline (p : Ref .pipeline) {f : Pipeline → Pipeline}
    (hf : ∀ x, (f x).hushed = f x.hushed) : (s.modifyPipeline p f).hushed = s.hushed.modifyPipeline p f := by
  have hpipelines := s.pipelines.map_modify Pipeline.hushed p.number hf
  simp only [hushed, modifyPipeline, hpipelines]

theorem hushed_modifyPump (id : RoutingId) (f : Pump → Pump) :
    (s.modifyPump id f).hushed = s.hushed.modifyPump id f :=
  s.hushed_modifySource id fun _ => rfl

theorem source?_hushed (id : RoutingId) : s.hushed.source? id = (s.source? id).map Source.hushed :=
  s.sources.get?_map Source.hushed id.number

theorem pipeline?_hushed (p : Ref .pipeline) : s.hushed.pipeline? p = (s.pipeline? p).map Pipeline.hushed :=
  s.pipelines.get?_map Pipeline.hushed p.number

theorem fallback?_hushed (f : Ref .fallback) : s.hushed.fallback? f = (s.fallback? f).map Fallback.hushed :=
  s.fallbacks.get?_map Fallback.hushed f.number

/-- What an observer is told is a trace. -/
theorem hushed_tell (w : Ref .observer) (f : Array (Option Nat) → Array (Option Nat)) :
    ({ s with observers := s.observers.modify w.number f } : Session).hushed = s.hushed := by
  have hobservers : (s.observers.modify w.number f).map (fun _ => (#[] : Array (Option Nat)))
      = s.observers.map fun _ => #[] := by
    apply s.observers.map_modify_of_eq
    exact fun _ => rfl
  simp only [hushed, hobservers]

/-- **A request leaves nothing but traces.** -/
theorem hushed_requestKeyframe (id : RoutingId) : (s.requestKeyframe id).hushed = s.hushed := by
  have hsources : (s.sources.modify id.number Source.requestKeyframe).map Source.hushed
      = s.sources.map Source.hushed := s.sources.map_modify_of_eq Source.hushed id.number fun _ => rfl
  have hnoted : ((s.modifySource id Source.requestKeyframe).note (.asked id)).hushed = s.hushed := by
    simp only [hushed, modifySource, note, hsources]
    rfl
  unfold requestKeyframe
  dsimp only
  split
  · exact hnoted
  · rw [hushed_tell]
    exact hnoted

theorem hushed_wantKeyframe (p : Ref .pipeline) : (s.wantKeyframe p).hushed = s.hushed := by
  have hpipelines : (s.wantKeyframe p).pipelines.map Pipeline.hushed = s.pipelines.map Pipeline.hushed :=
    s.pipelines.map_modify_of_eq Pipeline.hushed p.number fun _ => rfl
  simp only [hushed, hpipelines]
  rfl

/-! ### Pulls -/

theorem take_hushed (id : RoutingId) : s.hushed.take id = ((s.take id).1, (s.take id).2.hushed) := by
  have htake : ∀ src : Source, src.hushed.take.1 = src.take.1 ∧ src.take.2.hushed = src.hushed.take.2 := by
    intro src
    unfold Source.take
    cases h : src.queue <;> simp [Source.hushed, h]
  have hfirst : ((s.hushed.source? id).bind fun src => src.take.1) = (s.source? id).bind fun src => src.take.1 := by
    rw [source?_hushed]
    cases s.source? id with
    | none => rfl
    | some src => exact (htake src).1
  unfold take
  rw [hfirst]
  cases (s.source? id).bind fun src => src.take.1 with
  | none => rfl
  | some f =>
    have hnoted := (s.modifySource id fun src => src.take.2).hushed_note (e := .taken id f) rfl
    dsimp only
    rw [hnoted, hushed_modifySource s id fun src => (htake src).2]

theorem present_hushed (d : Destination) (i : EmittedImage) :
    s.hushed.present d i = ((s.present d i).1, (s.present d i).2.hushed) := by
  have hrefusal : (s.hushed.output? d.output).bind (fun o => (o.offer i).1)
      = (s.output? d.output).bind fun o => (o.offer i).1 := rfl
  unfold present
  dsimp only
  rw [hrefusal]
  have hnoted : ∀ refusal, ((s.modifyOutput d.output fun o => (o.offer i).2).note
      (.presented d.output i refusal)).hushed
        = (s.hushed.modifyOutput d.output fun o => (o.offer i).2).note (.presented d.output i refusal) :=
    fun _ => hushed_note _ rfl
  cases (s.output? d.output).bind fun o => (o.offer i).1 with
  | some e => exact congrArg (Prod.mk _) (hnoted _).symm
  | none =>
    cases d.counter with
    | none => exact congrArg (Prod.mk _) (hnoted _).symm
    | some p =>
      have hcounted : ∀ t : Session, (t.count p fun c => c.accept i.image).hushed
          = t.hushed.count p fun c => c.accept i.image := by
        intro t
        apply hushed_modifyPipeline
        exact fun _ => rfl
      dsimp only
      rw [hcounted, hnoted]

theorem passOn_hushed (p : Passthrough) (d : Destination) (id : RoutingId) (raw : RawFrame) :
    s.hushed.passOn p d id raw
      = ((s.passOn p d id raw).1, (s.passOn p d id raw).2.1, (s.passOn p d id raw).2.2.hushed) := by
  unfold passOn
  rw [take_hushed]
  cases s.take id with
  | mk taken t =>
    cases taken with
    | none => rfl
    | some f =>
      dsimp only
      rw [present_hushed]
      cases t.present d (p.image f raw) with
      | mk refusal u =>
        cases refusal with
        | none => rfl
        | some e =>
          dsimp only
          rw [hushed_warn]

/-- A pull does the same whether or not it asks for a keyframe. -/
theorem pull_hushed (p : Passthrough) (raw : RawFrame) (types : List FrameType) :
    s.hushed.pull p raw [.delta]
      = ((s.pull p raw types).1, (s.pull p raw types).2.1, (s.pull p raw types).2.2.hushed) := by
  unfold pull
  cases p.settings with
  | none => rfl
  | some settings =>
    cases p.destination with
    | none => rfl
    | some d =>
      have hresolve : s.hushed.resolve p.binding raw = s.resolve p.binding raw := rfl
      dsimp only
      rw [hresolve]
      cases s.resolve p.binding raw with
      | none =>
        dsimp only
        rw [hushed_warn]
      | some id =>
        have hasked : (if types.contains .key then s.requestKeyframe id else s).hushed = s.hushed := by
          split
          · exact s.hushed_requestKeyframe id
          · rfl
        have hdelta : [FrameType.delta].contains .key = false := rfl
        dsimp only
        rw [hdelta, ← hasked]
        cases p.sending with
        | true => exact passOn_hushed _ p d id raw
        | false => rfl

/-! ### Calls -/

theorem callFallback_hushed (f : Ref .fallback) (c : Call) :
    s.hushed.callFallback f c.hushed = ((s.callFallback f c).1, (s.callFallback f c).2.hushed) := by
  have hanswer : ((s.hushed.fallback? f).map fun x => x.answer c.hushed) = (s.fallback? f).map fun x => x.answer c := by
    rw [fallback?_hushed, Option.map_map]
    exact congrArg (Option.map · _) (funext fun x => x.answer_hushed c)
  have hrecorded : s.hushed.fallbacks.modify f.number (fun x => x.record c.hushed)
      = (s.fallbacks.modify f.number fun x => x.record c).map Fallback.hushed := by
    symm
    apply s.fallbacks.map_modify
    intro x
    simp only [Fallback.hushed, Fallback.record, Array.map_push]
  unfold callFallback
  rw [hanswer, hrecorded]
  rfl

theorem unseen_hushed : Unseen hushed fun _ => [.delta] where
  pull := pull_hushed
  registry _ _ := rfl
  able s f := by
    unfold canFallBack
    rw [fallback?_hushed]
    cases s.fallback? f <;> rfl
  ask s f format := by
    have hasked : (s.fallbacks.modify f.number fun x => x.ask format).map Fallback.hushed
        = s.hushed.fallbacks.modify f.number fun x => x.ask format :=
      s.fallbacks.map_modify Fallback.hushed f.number fun _ => rfl
    simp only [hushed] at hasked ⊢
    rw [hasked]
  callFallback := callFallback_hushed

theorem call_hushed (e : Ref .encoder) (c : Call) :
    s.hushed.call e c.hushed = ((s.call e c).1, (s.call e c).2.hushed) := by
  have hencoder : s.hushed.encoder? e = s.encoder? e := rfl
  unfold call
  rw [hencoder]
  cases s.encoder? e with
  | none => rfl
  | some x =>
    cases x with
    | passthrough p =>
      dsimp only
      rw [Call.hushed, unseen_hushed.callPassthrough]
      rfl
    | lazy l =>
      dsimp only
      rw [Call.hushed, unseen_hushed.callLazy]
      rfl

/-! ### Raw frames -/

theorem hushed_tally (p : Ref .pipeline) (r : Except Error Outcome) :
    (s.tally p r).hushed = s.hushed.tally p r := by
  have hcounted : ∀ f : PipelineStats → PipelineStats, (s.count p f).hushed = s.hushed.count p f := by
    intro f
    apply hushed_modifyPipeline
    exact fun _ => rfl
  unfold tally
  split
  · rfl
  · exact hcounted _
  · rw [hushed_warn, hcounted]

theorem hushed_feed (p : Ref .pipeline) (raw : RawFrame) : (s.feed p raw).hushed = s.hushed.feed p raw := by
  unfold feed
  rw [pipeline?_hushed]
  cases s.pipeline? p with
  | none => rfl
  | some x =>
    have hcounted := s.hushed_modifyPipeline p
      (f := fun x => { x with keyframePending := false, stats := { x.stats with pulls := x.stats.pulls + 1 } })
      fun _ => rfl
    dsimp only [Option.map_some]
    rw [← hcounted]
    -- without the request the raw frame asks for a delta frame
    have hcall := call_hushed (s.modifyPipeline p fun x =>
        { x with keyframePending := false, stats := { x.stats with pulls := x.stats.pulls + 1 } })
      x.encoder (.pull { raw with rtp := raw.timestamp.map rtpOfMicros } [x.nextType])
    have hquiet : Call.hushed (.pull { raw with rtp := raw.timestamp.map rtpOfMicros } [x.nextType])
        = .pull { raw with rtp := raw.timestamp.map rtpOfMicros } [x.hushed.nextType] := rfl
    rw [hquiet] at hcall
    have hencoder : x.hushed.encoder = x.encoder := rfl
    rw [hencoder, hcall, hushed_tally]

theorem hushed_deliver (raw : RawFrame) (tap : Tap) : (s.deliver raw tap).hushed = s.hushed.deliver raw tap := by
  cases tap with
  | recorder r => rfl
  | pipeline p => exact s.hushed_feed p raw

theorem hushed_deliverAll (raw : RawFrame) (taps : List Tap) :
    (s.deliverAll raw taps).hushed = s.hushed.deliverAll raw taps := by
  induction taps generalizing s with
  | nil => rfl
  | cons tap rest ih =>
    show ((s.deliver raw tap).deliverAll raw rest).hushed = (s.hushed.deliver raw tap).deliverAll raw rest
    rw [ih, hushed_deliver]

theorem hushed_pushRaw (id : RoutingId) (picture : Picture) (t : Stamped Int64) :
    (s.pushRaw id picture t).hushed = s.hushed.pushRaw id picture t := by
  unfold pushRaw
  rw [source?_hushed]
  cases s.source? id with
  | none => rfl
  | some src =>
    show (if src.pump.ended then s else _).hushed = if src.pump.ended then s.hushed else _
    split
    · rfl
    · exact s.hushed_deliverAll _ _

theorem hushed_emit (id : RoutingId) (capture now : Int64) :
    (s.emit id capture now).2.hushed = (s.hushed.emit id capture now).2 := by
  unfold emit
  rw [source?_hushed]
  cases s.source? id with
  | none => rfl
  | some src =>
    show ((s.modifyPump id fun _ => (src.pump.stamp capture now).2).pushRaw id
      (src.pump.stamp capture now).2.placeholder (src.pump.stamp capture now).1).hushed = _
    rw [hushed_pushRaw, hushed_modifyPump]
    rfl

theorem hushed_checkDepth (id : RoutingId) : (s.checkDepth id).hushed = s.hushed.checkDepth id := by
  unfold checkDepth
  rw [source?_hushed]
  cases s.source? id with
  | none => rfl
  | some src =>
    show (if src.isPastDepth then _ else s).hushed = if src.isPastDepth then _ else s.hushed
    split
    · exact s.hushed_warn _
    · rfl

theorem hushed_push (id : RoutingId) (f : EncodedFrame) (now : Int64) :
    (s.push id f now).2.hushed = (s.hushed.push id f now).2 := by
  unfold push
  rw [source?_hushed]
  cases s.source? id with
  | none => rfl
  | some src =>
    show Session.hushed (Prod.snd (if src.closed then _ else _)) = (if src.closed then _ else _ : Bool × Session).2
    split
    · rfl
    · have hentered := s.hushed_modifySource id (f := fun src => src.enqueue f) fun _ => rfl
      dsimp only
      rw [hushed_emit, hushed_checkDepth, hushed_note _ rfl, hentered]

theorem hushed_capture (id : RoutingId) (tags : FrameTags) (payload : Octets) (now : Int64) :
    (s.capture id tags payload now).2.hushed = (s.hushed.capture id tags payload now).2 := by
  unfold capture
  cases EncodedFrame.make tags payload with
  | error e => exact s.hushed_warn _
  | ok f => exact s.hushed_push id f now

/-! ### Sources, registries and pipelines -/

theorem hushed_register (r : Ref .registry) (id source : RoutingId) :
    (s.register r id source).2.hushed = (s.hushed.register r id source).2 := by
  have hregistry : s.hushed.registry r = s.registry r := rfl
  unfold register
  rw [hregistry]
  split
  · exact s.hushed_warn _
  · rfl

theorem hushed_addSource (r : Ref .registry) (c : SourceConfig) :
    (s.addSource r c).2.hushed = (s.hushed.addSource r c).2 := by
  have hadded : ({ s with sources := s.sources.add (Source.ofConfig c r) } : Session).hushed
      = { s.hushed with sources := s.hushed.sources.add (Source.ofConfig c r) } := by
    simp only [hushed, Table.map_add]
    rfl
  have hnext : s.hushed.sources.next = s.sources.next := s.sources.next_map Source.hushed
  unfold addSource
  dsimp only
  rw [hushed_register, hadded, hnext]

theorem hushed_dropHandle (id : RoutingId) : (s.dropHandle id).hushed = s.hushed.dropHandle id := by
  unfold dropHandle
  rw [source?_hushed]
  cases s.source? id with
  | none => rfl
  | some src =>
    show Session.hushed (if src.handles > 1 then _ else _) = if src.handles > 1 then _ else _
    split
    · exact s.hushed_modifySource id fun _ => rfl
    · exact (s.unregister src.home id).2.hushed_modifySource id
        (f := fun src => { src.close with handles := 0 }) fun _ => rfl

theorem hushed_addPipeline (e : Ref .encoder) (settings : Settings) (o : Ref .output) :
    (s.addPipeline e settings o).2.hushed = (s.hushed.addPipeline e settings o).2 := by
  have hnext : s.hushed.pipelines.next = s.pipelines.next := s.pipelines.next_map Pipeline.hushed
  have hinit : s.hushed.call e (.init settings) = _ := s.call_hushed e (.init settings)
  have hconnect : ∀ (t : Session) (d : Destination),
      t.hushed.call e (.connect d) = ((t.call e (.connect d)).1, (t.call e (.connect d)).2.hushed) :=
    fun t d => t.call_hushed e (.connect d)
  unfold addPipeline
  dsimp only
  rw [hnext, hinit]
  cases s.call e (.init settings) with
  | mk result t =>
    cases result with
    | error err => rfl
    | ok u =>
      dsimp only
      rw [hconnect]
      cases t.call e (.connect ⟨o, some ⟨s.pipelines.next⟩⟩) with
      | mk result t =>
        cases result with
        | error err => rfl
        | ok u =>
          simp only [hushed, Table.map_add]
          rfl

theorem hushed_removeTaps (taps : List (RoutingId × TapId)) :
    (taps.foldl (fun s a => (s.removeTap a.1 a.2).2) s).hushed
      = taps.foldl (fun s a => (s.removeTap a.1 a.2).2) s.hushed := by
  induction taps generalizing s with
  | nil => rfl
  | cons a rest ih =>
    have hremoved : (s.removeTap a.1 a.2).2.hushed = (s.hushed.removeTap a.1 a.2).2 :=
      s.hushed_modifyPump a.1 _
    rw [List.foldl_cons, List.foldl_cons, ih, hremoved]

theorem hushed_detach (p : Ref .pipeline) : (s.detach p).hushed = s.hushed.detach p := by
  unfold detach
  rw [pipeline?_hushed]
  cases s.pipeline? p with
  | none => rfl
  | some x =>
    have hforgotten := s.hushed_modifyPipeline p (f := fun x => { x with attachments := [] }) fun _ => rfl
    dsimp only [Option.map_some]
    rw [hushed_removeTaps, hforgotten]
    rfl

theorem hushed_checkRelease (r : Except Error Outcome) :
    (s.checkRelease r).hushed = s.hushed.checkRelease r := by
  cases r with
  | ok u => rfl
  | error e => exact s.hushed_warn _

theorem hushed_dropPipeline (p : Ref .pipeline) : (s.dropPipeline p).hushed = s.hushed.dropPipeline p := by
  unfold dropPipeline
  rw [pipeline?_hushed]
  cases s.pipeline? p with
  | none => rfl
  | some x =>
    have hrelease : (s.detach p).hushed.call x.encoder .release = _ :=
      (s.detach p).call_hushed x.encoder .release
    dsimp only [Option.map_some]
    rw [← hushed_detach]
    have hencoder : x.hushed.encoder = x.encoder := rfl
    rw [hencoder, hrelease, ← hushed_checkRelease]
    simp only [hushed, dropEncoder, Table.map_erase]

theorem hushed_hintRate (p : Ref .pipeline) (hint : RateHint) :
    (s.hintRate p hint).hushed = s.hushed.hintRate p hint := by
  unfold hintRate
  rw [pipeline?_hushed]
  cases s.pipeline? p with
  | none => rfl
  | some x => exact (congrArg Prod.snd (s.call_hushed x.encoder (.rate hint))).symm

/-! ### Runs -/

theorem hushed_perform_of_requests {a : Action} (ha : a.requests = true) : (s.perform a).2.hushed = s.hushed := by
  cases a with
  | requestKeyframe id => exact s.hushed_requestKeyframe id
  | wantKeyframe p => exact s.hushed_wantKeyframe p
  | _ => cases ha

theorem hushed_perform {a : Action} (ha : a.requests = false) :
    (s.perform a).2.hushed = (s.hushed.perform a.hushed).2 := by
  cases a with
  | requestKeyframe | wantKeyframe => cases ha
  | addFallback f =>
    simp only [perform, Action.hushed, addFallback, hushed, Table.map_add]
  | addObserver =>
    simp only [perform, Action.hushed, addObserver, hushed, Table.map_add]
  | addSource r c => exact s.hushed_addSource r c
  | addPipeline e settings o => exact s.hushed_addPipeline e settings o
  | register r id source => exact s.hushed_register r id source
  | dropHandle id => exact s.hushed_dropHandle id
  | capture id tags payload now => exact s.hushed_capture id tags payload now
  | push id f now => exact s.hushed_push id f now
  | take id => exact (congrArg Prod.snd (s.take_hushed id)).symm
  | addHandle id | consumeKeyframeRequest id | watch id w => exact s.hushed_modifySource id fun _ => rfl
  | emit id capture now => exact s.hushed_emit id capture now
  | pushRaw id picture t => exact s.hushed_pushRaw id picture t
  | addTap id tap | removeTap id tap => exact s.hushed_modifyPump id _
  | call e c => exact (congrArg Prod.snd (s.call_hushed e c)).symm
  | attach p id =>
    have htapped : (s.addTap id (.pipeline p)).2.hushed = (s.hushed.addTap id (.pipeline p)).2 :=
      s.hushed_modifyPump id _
    have htap : (s.hushed.addTap id (.pipeline p)).1 = (s.addTap id (.pipeline p)).1 := by
      unfold addTap
      rw [source?_hushed]
      cases s.source? id <;> rfl
    have hattached := (s.addTap id (.pipeline p)).2.hushed_modifyPipeline p
      (f := fun x => { x with attachments := x.attachments ++ [(id, (s.addTap id (.pipeline p)).1)] })
      fun _ => rfl
    simp only [perform, Action.hushed, attach]
    rw [hattached, htapped, htap]
  | detach p => exact s.hushed_detach p
  | hintRate p hint => exact s.hushed_hintRate p hint
  | dropPipeline p => exact s.hushed_dropPipeline p
  | _ => rfl

theorem hushed_run (actions : List Action) :
    (s.run actions).hushed
      = s.hushed.run ((actions.filter fun a => !a.requests).map Action.hushed) := by
  induction actions generalizing s with
  | nil => rfl
  | cons a rest ih =>
    rw [run_cons, ih]
    cases ha : a.requests with
    | true => simp only [List.filter_cons, ha, Bool.not_true, Bool.false_eq_true, if_false,
        hushed_perform_of_requests s ha]
    | false => simp only [List.filter_cons, ha, Bool.not_false, if_true, List.map_cons, run_cons,
        hushed_perform s ha]

/-- **A run without its keyframe requests** ends like the run itself, but for the traces. -/
theorem hushed_run_filter (actions : List Action) :
    (s.run actions).hushed = (s.run (actions.filter fun a => !a.requests)).hushed := by
  rw [hushed_run, hushed_run, List.filter_filter]
  simp only [Bool.and_self]

/-- What an output was presented with is no trace. -/
theorem received_hushed (o : Ref .output) : s.hushed.received o = s.received o := by
  unfold received hushed
  dsimp only
  rw [← List.filter_reverse, List.filterMap_filter]
  congr 1
  funext e
  cases e <;> rfl

theorem received_of_hushed_eq {s t : Session} (h : s.hushed = t.hushed) (o : Ref .output) :
    s.received o = t.received o := by
  rw [← s.received_hushed, h, t.received_hushed]

end Session

end EncodedFeed
