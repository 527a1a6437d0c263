import EncodedFeed.Proofs.Lane.Basic
import EncodedFeed.Proofs.Session.Conservation

/-!
# What is done to a lane

Frames are pushed into a lane, keyframes are asked for and acknowledged, and the pipeline passes on rate
hints.  Each of these is an action of the session; on a lane in working order it moves the lane, and nothing
else, from one state to the next.  How the lane is wired stays as it is, so a whole run of the session is, lane
by lane, a run of lane states.
-/

namespace EncodedFeed

namespace Lane

/-- One thing that is done to a lane. -/
inductive Op
  | capture (tags : FrameTags) (payload : Octets) (now : Int64)
  | push (frame : EncodedFrame) (now : Int64)
  | requestKeyframe
  | consumeKeyframeRequest
  | wantKeyframe
  | hintRate (hint : RateHint)

/-- The action by which it is done. -/
def Op.action (a : Lane) : Op → Action
  | capture tags payload now => .capture a.source tags payload now
  | push f now => .push a.source f now
  | requestKeyframe => .requestKeyframe a.source
  | consumeKeyframeRequest => .consumeKeyframeRequest a.source
  | wantKeyframe => .wantKeyframe a.pipeline
  | hintRate hint => .hintRate a.pipeline hint

/-- The frame that is pushed. -/
def Op.frame? : Op → Option (EncodedFrame × Int64)
  | capture tags payload now => (EncodedFrame.make tags payload).toOption.map fun f => (f, now)
  | push f now => some (f, now)
  | _ => none

namespace State

/-- The lane after an operation, and what happens meanwhile. -/
def next (x : State) (a : Lane) : Op → State × List Event
  | .capture tags payload now =>
    match EncodedFrame.make tags payload with
    | .error _ => (x, [.warned (.emptyFrame a.source)])
    | .ok f => x.pushed a f now
  | .push f now => x.pushed a f now
  | .requestKeyframe => (x.asked true, [.asked a.source])
  | .consumeKeyframeRequest => ({ x with source := x.source.consumeKeyframeRequest }, [])
  | .wantKeyframe => ({ x with pipeline := { x.pipeline with keyframePending := true } }, [])
  | .hintRate hint => ({ x with encoder := x.encoder.setRate hint }, [])

/-- What comes back from an operation. -/
def reply (x : State) : Op → Reply
  | .capture tags payload _ => .accepted (EncodedFrame.make tags payload).toOption.isSome
  | .push _ _ => .accepted true
  | .consumeKeyframeRequest => .was x.source.keyframeRequested
  | _ => .done

/-- An operation asks the source for a keyframe. -/
def asks (x : State) : Op → Bool
  | .requestKeyframe => true
  | op => op.frame?.isSome && x.pipeline.keyframePending

/-- The lane after some operations, and what happens meanwhile. -/
def run (x : State) (a : Lane) : List Op → State × List Event
  | [] => (x, [])
  | op :: rest =>
    let y := x.next a op
    let z := y.1.run a rest
    (z.1, y.2 ++ z.2)

/-! ### How a lane is wired -/

/-- A lane without all that changes while it is used. -/
def wiring (x : State) : State where
  source := { x.source with
    queue := [], keyframeRequested := false, pump := { x.source.pump with aligner := {} } }
  pipeline := { x.pipeline with keyframePending := false, stats := {} }
  encoder := { x.encoder with sending := true, emitted := 0 }
  output := .collector #[]

variable {a : Lane} {x y : State}

theorem wired_of_wiring_eq (h : y.wiring = x.wiring) (hx : x.Wired a) : y.Wired a where
  live := (congrArg (·.source.closed) h).trans hx.live
  running := (congrArg (·.source.pump.ended) h).trans hx.running
  taps := (congrArg (fun z : State => z.source.pump.taps.map Prod.snd) h).trans hx.taps
  encoder := (congrArg (·.pipeline.encoder) h).trans hx.encoder
  binding := (congrArg (·.encoder.binding) h).trans hx.binding
  configured := (congrArg (·.encoder.settings.isSome) h).trans hx.configured
  destination := (congrArg (·.encoder.destination) h).trans hx.destination

theorem watcher_of_wiring_eq (h : y.wiring = x.wiring) : y.source.watcher = x.source.watcher :=
  congrArg (·.source.watcher) h

theorem layer_of_wiring_eq (h : y.wiring = x.wiring) : y.encoder.layer = x.encoder.layer :=
  congrArg (·.encoder.layer) h

theorem wiring_asked (x : State) (key : Bool) : (x.asked key).wiring = x.wiring := by
  cases key <;> rfl

theorem wiring_passOn (x : State) (a : Lane) (raw : RawFrame) : (x.passOn a raw).2.1.wiring = x.wiring := by
  unfold passOn
  split
  · rfl
  · dsimp only
    split <;> rfl

theorem wiring_pull (x : State) (a : Lane) (raw : RawFrame) (key : Bool) :
    (x.pull a raw key).2.1.wiring = x.wiring := by
  unfold pull
  dsimp only
  split
  · exact (wiring_passOn _ a raw).trans (x.wiring_asked key)
  · exact x.wiring_asked key

theorem wiring_tally (x : State) (r : Except Error Outcome) : (x.tally r).1.wiring = x.wiring := by
  unfold tally
  split <;> rfl

theorem wiring_fed (x : State) (a : Lane) (raw : RawFrame) : (x.fed a raw).1.wiring = x.wiring :=
  (wiring_tally _ _).trans (wiring_pull x.counted a _ _)

theorem wiring_pushed (x : State) (a : Lane) (f : EncodedFrame) (now : Int64) :
    (x.pushed a f now).1.wiring = x.wiring :=
  wiring_fed ((x.enqueued f).stamped f.captureUs now) a _

theorem wiring_next (x : State) (a : Lane) (op : Op) : (x.next a op).1.wiring = x.wiring := by
  cases op with
  | capture tags payload now =>
    unfold next
    dsimp only
    split
    · rfl
    · exact x.wiring_pushed a _ now
  | push f now => exact x.wiring_pushed a f now
  | requestKeyframe => exact x.wiring_asked true
  | consumeKeyframeRequest | wantKeyframe | hintRate => rfl

end State

end Lane

/-! ### What happens in a lane -/

/-- The event is one of the lane, and an image it presents is of this layer. -/
def Event.Of (a : Lane) (layer : Option UInt32) : Event → Prop
  | pushed id _ | taken id _ | asked id => id = a.source
  | presented o i _ => o = a.output ∧ i.image.layer = layer
  | warned _ => True

/-- All events are of the lane, and its source is asked for a keyframe once if at all. -/
structure Lane.Makes (a : Lane) (layer : Option UInt32) (key : Bool) (es : List Event) : Prop where
  of : ∀ e ∈ es, e.Of a layer
  asked : askedIn es = if key then [a.source] else []

namespace Lane.Makes

variable {a : Lane} {layer : Option UInt32} {key : Bool} {es es' : List Event}

theorem nil : a.Makes layer false [] := ⟨by simp, rfl⟩

theorem warned (w : Warning) : a.Makes layer false [.warned w] := ⟨by simp [Event.Of], rfl⟩

theorem append (h : a.Makes layer key es) (h' : a.Makes layer false es') : a.Makes layer key (es ++ es') where
  of e he := by
    rcases List.mem_append.mp he with he | he
    · exact h.of e he
    · exact h'.of e he
  asked := by rw [askedIn_append, h.asked, h'.asked]; exact List.append_nil _

theorem prepend (h : a.Makes layer false es) (h' : a.Makes layer key es') : a.Makes layer key (es ++ es') where
  of e he := by
    rcases List.mem_append.mp he with he | he
    · exact h.of e he
    · exact h'.of e he
  asked := by rw [askedIn_append, h.asked, h'.asked]; rfl

end Lane.Makes

namespace Lane.State

variable (x : State) (a : Lane)

theorem makes_passOn (raw : RawFrame) : a.Makes x.encoder.layer false (x.passOn a raw).2.2 := by
  unfold passOn
  split
  · exact .nil
  · dsimp only
    split <;> exact ⟨by simp [Event.Of, Passthrough.image], rfl⟩

theorem makes_pull (raw : RawFrame) (key : Bool) :
    a.Makes x.encoder.layer key (x.pull a raw key).2.2 := by
  have hreq : a.Makes x.encoder.layer key (if key then [.asked a.source] else []) := by
    cases key
    · exact .nil
    · exact ⟨by simp [Event.Of], rfl⟩
  have hpass : a.Makes x.encoder.layer false
      (if x.encoder.sending then (x.asked key).passOn a raw else (.ok .noOutput, x.asked key, [])).2.2 := by
    split
    · exact (x.asked key).makes_passOn a raw
    · exact .nil
  exact hreq.append hpass

theorem makes_tally (r : Except Error Outcome) (layer : Option UInt32) :
    a.Makes layer false (x.tally r).2 := by
  unfold tally
  split
  · exact .nil
  · exact .nil
  · exact .warned _

theorem makes_fed (raw : RawFrame) :
    a.Makes x.encoder.layer x.pipeline.keyframePending (x.fed a raw).2 :=
  (x.counted.makes_pull a (clocked raw) x.pipeline.keyframePending).append (makes_tally _ a _ _)

theorem makes_pushed (f : EncodedFrame) (now : Int64) :
    a.Makes x.encoder.layer x.pipeline.keyframePending (x.pushed a f now).2 := by
  have hfed := ((x.enqueued f).stamped f.captureUs now).makes_fed a
    ((x.enqueued f).placeholder a ((x.enqueued f).stamp f.captureUs now))
  have hin : a.Makes x.encoder.layer false [.pushed a.source f] := ⟨by simp [Event.Of], rfl⟩
  have hdepth : a.Makes x.encoder.layer false ((x.enqueued f).depthWarning a) := by
    unfold depthWarning
    split
    · exact .warned _
    · exact .nil
  exact hin.prepend (hdepth.prepend hfed)

/-- All that an operation makes happen is in its lane; it asks for a keyframe at most once. -/
theorem makes_next (op : Op) : a.Makes x.encoder.layer (x.asks op) (x.next a op).2 := by
  cases op with
  | capture tags payload now =>
    cases hf : EncodedFrame.make tags payload with
    | error e =>
      simp only [next, asks, Op.frame?, hf]
      exact .warned _
    | ok f =>
      simp only [next, asks, Op.frame?, hf]
      exact x.makes_pushed a f now
  | push f now => exact x.makes_pushed a f now
  | requestKeyframe => exact ⟨by simp [next, Event.Of], rfl⟩
  | consumeKeyframeRequest | wantKeyframe | hintRate => exact .nil

end Lane.State

/-! ### Operations as actions -/

namespace Session

variable {s : Session} {a b : Lane} {x y : Lane.State}

/-- An operation that pushes nothing moves the lane, whether or not the pipeline listens to the source. -/
theorem perform_eq_move_of_not_push (h : s.Has a x) (he : x.pipeline.encoder = a.encoder) {op : Lane.Op}
    (hop : op.frame? = none) :
    s.perform (op.action a)
      = (x.reply op, (s.tell (x.hearer (x.asks op))).move a (x.next a op).1 (x.next a op).2) := by
  cases op with
  | push f now => cases hop
  | capture tags payload now =>
    simp only [Lane.Op.action, perform, capture, Lane.State.reply, Lane.State.next, Lane.State.asks,
      Lane.Op.frame?] at hop ⊢
    cases hf : EncodedFrame.make tags payload with
    | error e => simp only [warn_eq_move h]; rfl
    | ok f => rw [hf] at hop; cases hop
  | requestKeyframe => exact congrArg (Prod.mk Reply.done) (requestKeyframe_eq_move h)
  | consumeKeyframeRequest =>
    have hmove := modifySource_eq_move h Source.consumeKeyframeRequest
    simp only [Lane.Op.action, perform, consumeKeyframeRequest, h.source, Option.any_some, hmove]
    rfl
  | wantKeyframe =>
    exact congrArg (Prod.mk Reply.done)
      (modifyPipeline_eq_move h fun p => { p with keyframePending := true })
  | hintRate hint =>
    have hcall : s.call x.pipeline.encoder (.rate hint)
        = (.ok .noOutput, s.setEncoder a.encoder (.passthrough (x.encoder.setRate hint))) := by
      rw [he, call, h.encoder]
      rfl
    simp only [Lane.Op.action, perform, hintRate, h.pipeline, hcall, setEncoder_eq_move h]
    rfl

/-- **An operation on a lane** moves the lane, and tells its watcher of a keyframe request. -/
theorem perform_eq_move (h : s.Has a x) (hw : x.Wired a) (op : Lane.Op) :
    s.perform (op.action a)
      = (x.reply op, (s.tell (x.hearer (x.asks op))).move a (x.next a op).1 (x.next a op).2) := by
  cases op with
  | push f now =>
    have hpush := push_eq_move h hw f now
    simp only [Lane.Op.action, perform, hpush]
    rfl
  | capture tags payload now =>
    cases hf : EncodedFrame.make tags payload with
    | error e =>
      refine perform_eq_move_of_not_push h hw.encoder ?_
      simp only [Lane.Op.frame?, hf]
      rfl
    | ok f =>
      simp only [Lane.Op.action, perform, capture, Lane.State.reply, Lane.State.next, Lane.State.asks,
        Lane.Op.frame?, hf, push_eq_move h hw f now]
      rfl
  | requestKeyframe | consumeKeyframeRequest | wantKeyframe | hintRate =>
    exact perform_eq_move_of_not_push h hw.encoder rfl

end Session

/-! ### Lanes side by side -/

/-- Two lanes have nothing in common. -/
structure Lane.Apart (a b : Lane) : Prop where
  source : a.source ≠ b.source
  pipeline : a.pipeline ≠ b.pipeline
  encoder : a.encoder ≠ b.encoder
  output : a.output ≠ b.output

theorem Lane.Apart.symm {a b : Lane} (h : a.Apart b) : b.Apart a :=
  ⟨h.source.symm, h.pipeline.symm, h.encoder.symm, h.output.symm⟩

namespace Session

variable {s : Session} {a b : Lane} {x y : Lane.State} {es : List Event}

theorem has_move_of_apart (hab : a.Apart b) (h : s.Has b y) : (s.move a x es).Has b y where
  source := by
    have hne : a.source.number ≠ b.source.number := fun heq => hab.source (congrArg RoutingId.mk heq)
    rw [source?, move, Table.get?_modify, if_neg hne]
    exact h.source
  pipeline := by
    have hne : a.pipeline.number ≠ b.pipeline.number := fun heq => hab.pipeline (congrArg Ref.mk heq)
    rw [pipeline?, move, Table.get?_modify, if_neg hne]
    exact h.pipeline
  encoder := by
    have hne : a.encoder.number ≠ b.encoder.number := fun heq => hab.encoder (congrArg Ref.mk heq)
    rw [encoder?, move, Table.get?_modify, if_neg hne]
    exact h.encoder
  output := by
    have hne : a.output.number ≠ b.output.number := fun heq => hab.output (congrArg Ref.mk heq)
    simp only [output?, move, Table.get?_modify, if_neg hne]
    exact h.output

end Session

end EncodedFeed
