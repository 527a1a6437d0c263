import EncodedFeed.Proofs.Encoder.Passthrough
import EncodedFeed.Proofs.Session.Conservation

/-!
# Calls that come to nothing

A call to a passthrough encoder that fails, or finds no frame, touches little, and how little depends on how far
it came.  Settings that are refused change nothing, and neither does a pull of an encoder that is not ready.  A
pull without an image has asked the source for a keyframe at most; one whose image is refused has taken the
oldest frame of the source, which is then lost, and has shown it to the output.  The encoder itself stays as it
was in all these cases.

`Spares` says what two sessions have in common if one source alone was asked and gave frames; outputs are spoken of
apart, and the journal goes on in any case.
-/

namespace EncodedFeed

/-- A source that was asked for a keyframe, if `key` says so, and has given `n` frames. -/
def Source.used (src : Source) (key : Bool) (n : Nat) : Source :=
  { src with queue := src.queue.drop n, keyframeRequested := src.keyframeRequested || key }

theorem Source.used_false_zero (src : Source) : src.used false 0 = src := by
  simp [used]

theorem Source.used_true_zero (src : Source) : src.used true 0 = src.requestKeyframe := by
  simp [used, requestKeyframe]

theorem Source.used_used (src : Source) (key key' : Bool) (n m : Nat) :
    (src.used key n).used key' m = src.used (key || key') (n + m) := by
  simp [used, List.drop_drop, Bool.or_assoc]

namespace Session

/-- The observer that hears of it when a source, if there is one, is asked for a keyframe. -/
def hearer? (s : Session) (id : Option RoutingId) : Option (Ref .observer) :=
  ((id.bind s.source?).bind Source.watcher).map Watcher.observer

/-- Outputs and journal apart, `t` is `s` but for one source, which was asked for a keyframe if `key` says so and has
given `n` frames, and for the observer that hears of it. -/
structure Spares (s t : Session) (id : Option RoutingId) (key : Bool) (n : Nat) : Prop where
  source (i : RoutingId) : t.source? i = (s.source? i).map fun src => if id = some i then src.used key n else src
  observer (o : Ref .observer) :
    (key = true → s.hearer? id ≠ some o) → t.observers.get? o.number = s.observers.get? o.number
  registries : t.registries = s.registries
  encoders : t.encoders = s.encoders
  pipelines : t.pipelines = s.pipelines
  fallbacks : t.fallbacks = s.fallbacks
  recorders : t.recorders = s.recorders
  recordings : t.recordings = s.recordings
  files : t.files = s.files

namespace Spares

variable {s t u : Session} {id : Option RoutingId} {i : RoutingId} {key key' : Bool} {n m : Nat}

/-- All other queues stay, and the first frames of one are gone. -/
theorem queue (h : Spares s t id key n) (i : RoutingId) :
    t.queue i = if id = some i then (s.queue i).drop n else s.queue i := by
  unfold Session.queue
  rw [h.source i]
  cases s.source? i with
  | none => simp
  | some src =>
    by_cases hi : id = some i
    · simp [hi, Source.used]
    · simp [hi]

theorem hearer? (h : Spares s t id key n) (j : Option RoutingId) : t.hearer? j = s.hearer? j := by
  cases j with
  | none => rfl
  | some j =>
    simp only [Session.hearer?, Option.bind_some, h.source j]
    cases s.source? j with
    | none => rfl
    | some src =>
      simp only [Option.map_some, Option.bind_some]
      split <;> rfl

protected theorem refl (s : Session) (id : Option RoutingId) : Spares s s id false 0 where
  source i := by simp [Source.used_false_zero]
  observer _ _ := rfl
  registries := rfl
  encoders := rfl
  pipelines := rfl
  fallbacks := rfl
  recorders := rfl
  recordings := rfl
  files := rfl

theorem trans (h : Spares s t id key n) (h' : Spares t u id key' m) : Spares s u id (key || key') (n + m) where
  source i := by
    rw [h'.source i, h.source i, Option.map_map]
    congr 1
    funext src
    by_cases hi : id = some i
    · simp only [Function.comp_apply, if_pos hi, Source.used_used]
    · simp only [Function.comp_apply, if_neg hi]
  observer o ho := by
    refine (h'.observer o fun hkey => ?_).trans (h.observer o fun hkey => ho (by rw [hkey, Bool.true_or]))
    rw [h.hearer? id]
    exact ho (by rw [hkey, Bool.or_true])
  registries := h'.registries.trans h.registries
  encoders := h'.encoders.trans h.encoders
  pipelines := h'.pipelines.trans h.pipelines
  fallbacks := h'.fallbacks.trans h.fallbacks
  recorders := h'.recorders.trans h.recorders
  recordings := h'.recordings.trans h.recordings
  files := h'.files.trans h.files

theorem requestKeyframe (s : Session) (id : RoutingId) : Spares s (s.requestKeyframe id) (some id) true 0 := by
  -- the watcher is looked up when the request is already noted, but it is the same
  have hsource : ∀ i, (s.modifySource id Source.requestKeyframe).source? i
      = (s.source? i).map fun src => if some id = some i then src.used true 0 else src := by
    intro i
    rw [source?_modifySource]
    by_cases hi : id = i
    · simp [hi, Source.used_true_zero]
    · simp [hi]
  have hnoted : Spares s ((s.modifySource id Source.requestKeyframe).note (.asked id)) (some id) true 0 :=
    ⟨hsource, fun _ _ => rfl, rfl, rfl, rfl, rfl, rfl, rfl, rfl⟩
  unfold Session.requestKeyframe
  dsimp only
  split
  · exact hnoted
  · next w hw =>
    have hhearer : s.hearer? (some id) = some w.observer := by
      rw [← hnoted.hearer? (some id), Session.hearer?, Option.bind_some, hw]
      rfl
    refine { hnoted with observer := fun o ho => ?_ }
    have hne : ¬ w.observer.number = o.number := by
      intro heq
      have hobserver : w.observer = o := by
        cases hw : w.observer
        cases o
        simp_all
      exact ho rfl (hobserver ▸ hhearer)
    rw [Table.get?_modify, if_neg hne]
    rfl

end Spares

/-! ### How a pull ends -/

/-- The session in which a pull looks for a frame: the source has been asked for a keyframe if one is wanted. -/
def asking (s : Session) (id : RoutingId) (types : List FrameType) : Session :=
  if types.contains .key then s.requestKeyframe id else s

/-- The session after the oldest frame `f` of a source was taken and its image `i` refused. -/
def refusing (s : Session) (d : Destination) (id : RoutingId) (f : EncodedFrame) (i : EmittedImage)
    (x : SinkError) : Session :=
  let s := (s.modifySource id fun src => { src with queue := src.queue.drop 1 }).note (.taken id f)
  ((s.modifyOutput d.output fun out => (out.offer i).2).note (.presented d.output i (some x))).warn (.refused x)

variable {s : Session}

theorem spares_asking (s : Session) (id : RoutingId) (types : List FrameType) :
    Spares s (s.asking id types) (some id) (types.contains .key) 0 := by
  unfold asking
  cases hkey : types.contains .key with
  | false => exact .refl s _
  | true => exact .requestKeyframe s id

theorem outputs_asking (s : Session) (id : RoutingId) (types : List FrameType) :
    (s.asking id types).outputs = s.outputs := by
  unfold asking requestKeyframe
  dsimp only
  split
  · split <;> rfl
  · rfl

/-- Nothing of all this is changed by a warning, whatever is wanted of a source that is not there. -/
theorem spares_warn (s : Session) (w : Warning) (key : Bool) : Spares s (s.warn w) none key 0 where
  source i := by simp [warn, note, source?]
  observer _ _ := rfl
  registries := rfl
  encoders := rfl
  pipelines := rfl
  fallbacks := rfl
  recorders := rfl
  recordings := rfl
  files := rfl

theorem spares_refusing (s : Session) (d : Destination) (id : RoutingId) (f : EncodedFrame) (i : EmittedImage)
    (x : SinkError) : Spares s (s.refusing d id f i x) (some id) false 1 := by
  refine ⟨fun j => ?_, fun _ _ => rfl, rfl, rfl, rfl, rfl, rfl, rfl, rfl⟩
  have hsource : (s.refusing d id f i x).source? j
      = (s.modifySource id fun src => { src with queue := src.queue.drop 1 }).source? j := rfl
  rw [hsource, source?_modifySource]
  by_cases hj : id = j
  · simp [hj, Source.used]
  · simp [hj]

/-- What a pull comes to.  Only an image that goes out is counted, and a frame whose image is refused does not come
back. -/
inductive Ends (s : Session) (p : Passthrough) (raw : RawFrame) (types : List FrameType) : Result Passthrough → Prop
  | unready (detail : String) : Ends s p raw types (.error (.uninitialized detail), p, s)
  | lost : s.resolve p.binding raw = none → Ends s p raw types (.ok .noOutput, p, s.warn (.unresolved raw.source))
  | idle {id} : s.resolve p.binding raw = some id → Ends s p raw types (.ok .noOutput, p, s.asking id types)
  | refused {d id f rest x} : p.destination = some d → s.resolve p.binding raw = some id →
    s.queue id = f :: rest → (s.output? d.output).bind (fun out => (out.offer (p.image f raw)).1) = some x →
    Ends s p raw types (.error (.sink x), p, (s.asking id types).refusing d id f (p.image f raw) x)
  | emitted (t : Session) : Ends s p raw types (.ok .emitted, { p with emitted := p.emitted + 1 }, t)

theorem present_of_refused {d : Destination} {i : EmittedImage} {x : SinkError} (h : (s.present d i).1 = some x) :
    s.present d i
      = (some x, (s.modifyOutput d.output fun out => (out.offer i).2).note (.presented d.output i (some x))) := by
  rw [present_fst] at h
  unfold present
  rw [h]

/-- Passing on the oldest frame of a source: it is refused, or an image goes out. -/
theorem passOn_of_queue (p : Passthrough) (d : Destination) (raw : RawFrame) {id : RoutingId} {f : EncodedFrame}
    {rest : List EncodedFrame} (hq : s.queue id = f :: rest) :
    (∃ x, (s.output? d.output).bind (fun out => (out.offer (p.image f raw)).1) = some x ∧
        s.passOn p d id raw = (.error (.sink x), p, s.refusing d id f (p.image f raw) x)) ∨
      ∃ t, s.passOn p d id raw = (.ok .emitted, { p with emitted := p.emitted + 1 }, t) := by
  have hrest : (s.modifySource id fun src => { src with queue := rest })
      = s.modifySource id fun src => { src with queue := src.queue.drop 1 } := by
    refine modifySource_congr s id fun src hs => ?_
    have hsrc : src.queue = f :: rest := by simpa [queue, hs] using hq
    rw [hsrc]
    rfl
  unfold passOn
  rw [take_of_queue_cons hq, hrest]
  set t := (s.modifySource id fun src => { src with queue := src.queue.drop 1 }).note (.taken id f)
  dsimp only
  -- taking the frame does not change what the output says to its image
  have hanswer : (t.present d (p.image f raw)).1
      = (s.output? d.output).bind fun out => (out.offer (p.image f raw)).1 := present_fst t d (p.image f raw)
  cases hx : (s.output? d.output).bind (fun out => (out.offer (p.image f raw)).1) with
  | some x =>
    refine .inl ⟨x, rfl, ?_⟩
    rw [present_of_refused (hanswer.trans hx)]
    rfl
  | none =>
    rw [hx] at hanswer
    refine .inr ?_
    split
    · next e u hu => rw [hu] at hanswer; cases hanswer
    · exact ⟨_, rfl⟩

theorem ends_pull (s : Session) (p : Passthrough) (raw : RawFrame) (types : List FrameType) :
    Ends s p raw types (s.pull p raw types) := by
  obtain hc | ⟨c, hc⟩ := Option.eq_none_or_eq_some p.settings
  · rw [pull_of_unset hc]
    exact .unready _
  obtain hd | ⟨d, hd⟩ := Option.eq_none_or_eq_some p.destination
  · rw [pull_of_unconnected hc hd]
    exact .unready _
  obtain hr | ⟨id, hr⟩ := Option.eq_none_or_eq_some (s.resolve p.binding raw)
  · rw [pull_of_unresolved hc hd hr]
    exact .lost hr
  rw [pull_of_resolved hc hd hr]
  change Ends s p raw types (if p.sending then (s.asking id types).passOn p d id raw
    else (.ok .noOutput, p, s.asking id types))
  have hqueue : (s.asking id types).queue id = s.queue id := by
    rw [(spares_asking s id types).queue id, if_pos rfl, List.drop_zero]
  have houtput : (s.asking id types).output? d.output = s.output? d.output := by
    rw [output?, outputs_asking]
    rfl
  split
  · cases hq : s.queue id with
    | nil =>
      unfold passOn
      rw [take_of_queue_nil (hqueue.trans hq)]
      exact .idle hr
    | cons f rest =>
      rcases passOn_of_queue p d raw (hqueue.trans hq) with ⟨x, hx, heq⟩ | ⟨t, heq⟩
      · rw [heq]
        exact .refused hd hr hq (houtput ▸ hx)
      · rw [heq]
        exact .emitted t
  · exact .idle hr

/-! ### What failed calls leave alone -/

/-- The oldest frame of a source, which may have been asked for a keyframe first, is lost with its image. -/
theorem spares_refused {id : RoutingId} {f : EncodedFrame} {rest : List EncodedFrame} (hq : s.queue id = f :: rest)
    (types : List FrameType) (d : Destination) (i : EmittedImage) (x : SinkError) :
    Spares s ((s.asking id types).refusing d id f i x) (some id) (types.contains .key) 1 ∧
      s.queue id = f :: ((s.asking id types).refusing d id f i x).queue id ∧
      ((s.asking id types).refusing d id f i x).outputs
        = (s.modifyOutput d.output fun out => (out.offer i).2).outputs := by
  have hspares := (s.spares_asking id types).trans ((s.asking id types).spares_refusing d id f i x)
  rw [Bool.or_false, Nat.zero_add] at hspares
  have hrest : ((s.asking id types).refusing d id f i x).queue id = rest := by
    rw [hspares.queue id, if_pos rfl, hq]
    rfl
  have houtputs : ((s.asking id types).modifyOutput d.output fun out => (out.offer i).2).outputs
      = (s.modifyOutput d.output fun out => (out.offer i).2).outputs := by
    simp only [modifyOutput, outputs_asking]
  exact ⟨hspares, by rw [hrest, hq], houtputs⟩

/-- Setting up fails just for a dimension that is zero or the codec of another encoder. -/
theorem callPassthrough_init (s : Session) (p : Passthrough) (c : Settings) :
    ((c.width = 0 ∨ c.height = 0 ∨ c.codec ≠ p.codec) ∧ ∃ e, s.callPassthrough p (.init c) = (.error e, p, s)) ∨
      ¬(c.width = 0 ∨ c.height = 0 ∨ c.codec ≠ p.codec) ∧
        ∃ q, s.callPassthrough p (.init c) = (.ok .noOutput, q, s) := by
  rw [← or_assoc]
  unfold callPassthrough Passthrough.init
  dsimp only
  by_cases hzero : c.width = 0 ∨ c.height = 0
  · rw [if_pos hzero]
    exact .inl ⟨.inl hzero, _, rfl⟩
  · rw [if_neg hzero]
    by_cases hcodec : c.codec ≠ p.codec
    · rw [if_pos hcodec]
      exact .inl ⟨.inr hcodec, _, rfl⟩
    · rw [if_neg hcodec]
      exact .inr ⟨fun h => h.elim hzero hcodec, _, rfl⟩

/-- **Calls that come to nothing** leave the encoder as it was.  Settings are refused just for a dimension that is zero
or the codec of another encoder, and then nothing changes; nothing changes either if the encoder is not ready for a
pull.  A pull without an image leaves all queues and outputs alone.  One whose image is refused has cost its source
the oldest frame and shown its image to the output of the encoder.  In both cases the source was asked for a keyframe
if one was wanted, and no other source, nobody but its observer and nothing else has changed.  There is no other way
for a pull to fail. -/
theorem failed_calls_spare (s : Session) (p : Passthrough) :
    (∀ c, (c.width = 0 ∨ c.height = 0 ∨ c.codec ≠ p.codec) ↔
      ∃ e q t, s.callPassthrough p (.init c) = (.error e, q, t)) ∧
    (∀ c e q t, s.callPassthrough p (.init c) = (.error e, q, t) → q = p ∧ t = s) ∧
    (∀ raw types detail q t, s.callPassthrough p (.pull raw types) = (.error (.uninitialized detail), q, t) →
      q = p ∧ t = s) ∧
    (∀ raw types q t, s.callPassthrough p (.pull raw types) = (.ok .noOutput, q, t) →
      q = p ∧ Spares s t (s.resolve p.binding raw) (types.contains .key) 0 ∧ t.outputs = s.outputs) ∧
    (∀ raw types x q t, s.callPassthrough p (.pull raw types) = (.error (.sink x), q, t) →
      q = p ∧ ∃ id d f, s.resolve p.binding raw = some id ∧ p.destination = some d ∧
        s.queue id = f :: t.queue id ∧ Spares s t (some id) (types.contains .key) 1 ∧
        (s.output? d.output).bind (fun out => (out.offer (p.image f raw)).1) = some x ∧
        t.outputs = (s.modifyOutput d.output fun out => (out.offer (p.image f raw)).2).outputs) ∧
    ∀ raw types e q t, s.callPassthrough p (.pull raw types) = (.error e, q, t) →
      (∃ detail, e = .uninitialized detail) ∨ ∃ x, e = .sink x := by
  have hpull : ∀ {raw types r}, s.callPassthrough p (.pull raw types) = r → Ends s p raw types r :=
    fun h => h ▸ s.ends_pull p _ _
  refine ⟨fun c => ?_, fun c e q t h => ?_, fun raw types detail q t h => ?_, fun raw types q t h => ?_,
    fun raw types x q t h => ?_, fun raw types e q t h => ?_⟩
  · rcases s.callPassthrough_init p c with ⟨hc, e, he⟩ | ⟨hc, q, hq⟩
    · exact iff_of_true hc ⟨e, p, s, he⟩
    · exact iff_of_false hc fun ⟨e, q', t, he⟩ => by rw [hq] at he; cases he
  · rcases s.callPassthrough_init p c with ⟨-, e', he⟩ | ⟨-, q', hq⟩
    · rw [he] at h
      cases h
      exact ⟨rfl, rfl⟩
    · rw [hq] at h
      cases h
  · cases hpull h
    exact ⟨rfl, rfl⟩
  · cases hpull h with
    | lost hr => exact ⟨rfl, hr ▸ s.spares_warn _ _, rfl⟩
    | @idle id hr => exact ⟨rfl, hr ▸ s.spares_asking id types, s.outputs_asking id types⟩
  · cases hpull h with
    | @refused d id f rest _ hd hr hq hx =>
      obtain ⟨hspares, hqueue, houtputs⟩ := spares_refused hq types d (p.image f raw) x
      exact ⟨rfl, id, d, f, hr, hd, hqueue, hspares, hx, houtputs⟩
  · cases hpull h with
    | unready detail => exact .inl ⟨detail, rfl⟩
    | refused => exact .inr ⟨_, rfl⟩

/-- A source with a watcher and two frames, and an output that refuses everything. -/
def shunned : Session :=
  ({} : Session).run
    [.addRegistry, .addOutput (.failingAfter 0 .closed), .addSource ⟨1⟩ {}, .addObserver,
      .watch ⟨1⟩ (some ⟨⟨1⟩, none⟩),
      .capture ⟨1⟩ { width := 640, height := 480, isKey := true } [0x65] 1,
      .capture ⟨1⟩ { width := 640, height := 480 } [0x41] 2]

/-- An encoder for this source and this output. -/
def rebuffed : Passthrough :=
  { Passthrough.make (.bound ⟨1⟩) .h264 {} none with
    settings := some ⟨.h264, 640, 480, 30, []⟩, destination := some ⟨⟨1⟩, none⟩ }

/-- A raw frame that is there for its time only. -/
def tick : RawFrame := { picture := Picture.black 2 2, timestamp := ⟨1, false⟩ }

/-- Settings without a width, a pull before the encoder is connected, one while it is paused, and one whose image is
refused. -/
theorem failed_calls_spare_shunned :
    (∃ e q t, shunned.callPassthrough rebuffed (.init ⟨.h264, 0, 480, 30, []⟩) = (.error e, q, t) ∧
      q = rebuffed ∧ t = shunned) ∧
    (∃ detail q t, shunned.callPassthrough { rebuffed with destination := none } (.pull tick [.key])
        = (.error (.uninitialized detail), q, t) ∧ t = shunned) ∧
    (∃ q t, shunned.callPassthrough { rebuffed with sending := false } (.pull tick [.key]) = (.ok .noOutput, q, t) ∧
      Spares shunned t (some ⟨1⟩) true 0 ∧ t.outputs = shunned.outputs) ∧
    ∃ q t, shunned.callPassthrough rebuffed (.pull tick [.key]) = (.error (.sink .closed), q, t) ∧ q = rebuffed ∧
      (shunned.queueLength ⟨1⟩ = 2 ∧ t.queueLength ⟨1⟩ = 1) ∧
      ∃ id f, shunned.resolve rebuffed.binding tick = some id ∧ shunned.queue id = f :: t.queue id ∧
        Spares shunned t (some id) true 1 := by
  obtain ⟨-, hinit, -, -, hrefused, -⟩ := failed_calls_spare shunned rebuffed
  obtain ⟨-, -, hunready, -⟩ := failed_calls_spare shunned { rebuffed with destination := none }
  obtain ⟨-, -, -, hidle, -⟩ := failed_calls_spare shunned { rebuffed with sending := false }
  refine ⟨⟨_, _, _, rfl, hinit ⟨.h264, 0, 480, 30, []⟩ _ _ _ rfl⟩,
    ⟨_, _, _, rfl, (hunready tick [.key] _ _ _ rfl).2⟩, ⟨_, _, rfl, (hidle tick [.key] _ _ rfl).2⟩, _, _, rfl, ?_⟩
  obtain ⟨hq, id, d, f, hr, -, hqueue, hspares, -⟩ := hrefused tick [.key] _ _ _ rfl
  exact ⟨hq, ⟨rfl, rfl⟩, id, f, hr, hqueue, hspares⟩

end Session

end EncodedFeed
