import EncodedFeed.Proofs.Lane.Flow
import EncodedFeed.Proofs.Lane.Wiring

/-!
# Frames and times that meet in an image

An image of a lane gets its payload from the head of the source's queue and its time from the placeholder
that pulled it.  Each push makes one placeholder, so as long as every pull takes a frame the two belong
together; a pull that finds the encoder paused leaves a frame behind, and from then on frames trail
placeholders by one more push.  `Paired` says by how much; what one push does is `Lane.State.pushed_of_sending`
and `Lane.State.pushed_of_paused`, and the rest is an induction on the operations.
-/

namespace EncodedFeed

/-- The image is the frame, timed by a stamp; an RTP time of the frame's own takes precedence. -/
structure EmittedImage.Joins (i : EmittedImage) (f : EncodedFrame) (t : Stamped Int64) : Prop where
  carries : i.Carries f
  captureMs : i.image.captureMs = t.map millisOfMicros
  rtp : i.image.rtp = if f.rtp ≠ 0 then ⟨f.rtp, false⟩ else t.map rtpOfMicros

/-- A source that has just been made. -/
structure Source.Fresh (src : Source) : Prop where
  live : src.closed = false
  running : src.pump.ended = false
  taps : src.pump.taps = []
  queue : src.queue = []
  aligner : src.pump.aligner = {}

theorem Source.fresh_ofConfig (c : SourceConfig) (home : Ref .registry) : (Source.ofConfig c home).Fresh :=
  ⟨rfl, rfl, rfl, rfl, rfl⟩

/-- The encoder is there and paused. -/
def Session.isPaused (s : Session) (e : Ref .encoder) : Bool :=
  match s.encoder? e with
  | some (.passthrough p) => !p.sending
  | _ => false

namespace Lane

/-- A frame that was pushed into the source of a lane, as seen from outside. -/
structure Push where
  frame : EncodedFrame
  now : Int64
  /-- The encoder was paused when it was pulled. -/
  paused : Bool
  /-- What the output was presented with meanwhile. -/
  images : List EmittedImage

/-- The capture time the source is asked to align, with the reading of the clock. -/
def Push.time (p : Push) : Int64 × Int64 := (p.frame.captureUs, p.now)

/-- The capture times of frames that were pushed, each with the reading of the clock. -/
def times (frames : List (EncodedFrame × Int64)) : List (Int64 × Int64) :=
  frames.map fun p => (p.1.captureUs, p.2)

/-- Pushes whose pull found the encoder paused. -/
def pausedIn (pushes : List Push) : Nat := pushes.countP Push.paused

end Lane

/-- The pushes among some operations on a lane, carried out one after the other. -/
def Session.pushes (s : Session) (a : Lane) : List Lane.Op → List Lane.Push
  | [] => []
  | op :: rest =>
    let x : Step := ⟨s, op.action a⟩
    (op.frame?.map fun p => ⟨p.1, p.2, s.isPaused a.encoder, presentedTo a.output x.events⟩).toList
      ++ x.after.pushes a rest

namespace Lane.State

variable (x : State) (a : Lane)

/-! ### What a push does -/

theorem source_tally (r : Except Error Outcome) :
    (x.tally r).1.source = x.source ∧ (x.tally r).1.encoder = x.encoder := by
  unfold tally
  split <;> exact ⟨rfl, rfl⟩

theorem presentedTo_tally (r : Except Error Outcome) (o : Ref .output) :
    presentedTo o (x.tally r).2 = [] := by
  unfold tally
  split <;> rfl

/-- Whatever comes of a pull, the pump goes on as it was and the encoder sends as before. -/
theorem pump_passOn (raw : RawFrame) :
    (x.passOn a raw).2.1.source.pump = x.source.pump ∧
    (x.passOn a raw).2.1.encoder.sending = x.encoder.sending := by
  unfold passOn
  split
  · exact ⟨rfl, rfl⟩
  · dsimp only
    split <;> exact ⟨rfl, rfl⟩

/-- An encoder that sends takes the head of the queue and presents it. -/
theorem passOn_of_queue_cons {g : EncodedFrame} {rest : List EncodedFrame} (hq : x.source.queue = g :: rest)
    (raw : RawFrame) :
    (x.passOn a raw).2.1.source.queue = rest ∧
    presentedTo a.output (x.passOn a raw).2.2 = [x.encoder.image g raw] := by
  unfold passOn
  rw [hq]
  dsimp only
  cases (x.output.offer (x.encoder.image g raw)).1 <;>
    exact ⟨rfl, by simp [presentedTo, Event.presented?, List.filterMap_cons]⟩

theorem source_asked (key : Bool) :
    (x.asked key).source.pump = x.source.pump ∧ (x.asked key).source.queue = x.source.queue := by
  cases key <;> exact ⟨rfl, rfl⟩

theorem presentedTo_asking (key : Bool) (id : RoutingId) (o : Ref .output) :
    presentedTo o (if key then [Event.asked id] else []) = [] := by
  cases key <;> rfl

theorem pump_fed (raw : RawFrame) :
    (x.fed a raw).1.source.pump = x.source.pump ∧ (x.fed a raw).1.encoder.sending = x.encoder.sending := by
  have hasked := (x.counted.source_asked x.pipeline.keyframePending).1
  unfold fed
  dsimp only
  rw [(source_tally _ _).1, (source_tally _ _).2]
  unfold pull
  dsimp only
  split
  · obtain ⟨hpump, hsending⟩ := (x.counted.asked x.pipeline.keyframePending).pump_passOn a (clocked raw)
    exact ⟨hpump.trans hasked, hsending⟩
  · exact ⟨hasked, rfl⟩

theorem fed_of_paused (h : x.encoder.sending = false) (raw : RawFrame) :
    (x.fed a raw).1.source.queue = x.source.queue ∧ presentedTo a.output (x.fed a raw).2 = [] := by
  have hoff : x.counted.encoder.sending = false := h
  unfold fed
  dsimp only
  rw [(source_tally _ _).1, presentedTo_append, presentedTo_tally]
  simp only [pull, hoff, Bool.false_eq_true, if_false, List.append_nil, presentedTo_asking]
  exact ⟨(source_asked _ _).2, trivial⟩

theorem fed_of_sending (h : x.encoder.sending = true) {g : EncodedFrame} {rest : List EncodedFrame}
    (hq : x.source.queue = g :: rest) (raw : RawFrame) :
    (x.fed a raw).1.source.queue = rest ∧
    presentedTo a.output (x.fed a raw).2 = [x.encoder.image g (clocked raw)] := by
  have hon : x.counted.encoder.sending = true := h
  have hqueue : (x.counted.asked x.pipeline.keyframePending).source.queue = g :: rest :=
    (source_asked _ _).2.trans hq
  obtain ⟨htaken, hshown⟩ := passOn_of_queue_cons _ a hqueue (clocked raw)
  unfold fed
  dsimp only
  rw [(source_tally _ _).1, presentedTo_append, presentedTo_tally]
  simp only [pull, hon, if_true, presentedTo_append, presentedTo_asking, List.nil_append, List.append_nil]
  exact ⟨htaken, hshown⟩

/-- What happens before a frame reaches the pipeline presents nothing. -/
theorem presentedTo_pushing (f : EncodedFrame) (es : List Event) (o : Ref .output) :
    presentedTo o (.pushed a.source f :: (x.depthWarning a ++ es)) = presentedTo o es := by
  unfold depthWarning
  split <;> rfl

theorem pump_pushed (f : EncodedFrame) (now : Int64) :
    (x.pushed a f now).1.source.pump = (x.source.pump.stamp f.captureUs now).2 ∧
    (x.pushed a f now).1.encoder.sending = x.encoder.sending :=
  ((x.enqueued f).stamped f.captureUs now).pump_fed a _

/-- **A push to a paused lane**: the frame waits behind the others. -/
theorem pushed_of_paused (h : x.encoder.sending = false) (f : EncodedFrame) (now : Int64) :
    (x.pushed a f now).1.source.queue = x.source.queue ++ [f] ∧
    presentedTo a.output (x.pushed a f now).2 = [] := by
  obtain ⟨hqueue, hshown⟩ := ((x.enqueued f).stamped f.captureUs now).fed_of_paused a h
    ((x.enqueued f).placeholder a ((x.enqueued f).stamp f.captureUs now))
  exact ⟨hqueue, (presentedTo_pushing _ a f _ _).trans hshown⟩

/-- **A push to a lane that sends**: the oldest frame, be it this one or another, leaves with the stamp of
this push. -/
theorem pushed_of_sending (h : x.encoder.sending = true) (f : EncodedFrame) (now : Int64) :
    ∃ g image, x.source.queue ++ [f] = g :: (x.pushed a f now).1.source.queue ∧
      presentedTo a.output (x.pushed a f now).2 = [image] ∧ image.Joins g (x.stamp f.captureUs now) := by
  obtain ⟨g, rest, hq⟩ : ∃ g rest, x.source.queue ++ [f] = g :: rest :=
    List.exists_cons_of_ne_nil (by simp)
  obtain ⟨hqueue, hshown⟩ := ((x.enqueued f).stamped f.captureUs now).fed_of_sending a h hq
    ((x.enqueued f).placeholder a ((x.enqueued f).stamp f.captureUs now))
  refine ⟨g, _, ?_, (presentedTo_pushing _ a f _ _).trans hshown, x.encoder.image_carries g _, rfl, rfl⟩
  rw [hq]
  exact congrArg (g :: ·) hqueue.symm

end Lane.State

/-! ### What some pushes do -/

namespace Lane

/-- How images go with pushes, from an aligner and the frames that wait at first to those that wait in the
end.  Image `i` is the `i`-th frame to be had, and has the stamp of the push that presented it; that push is as
many places further on as pushes before it found the encoder paused. -/
structure Paired (al : Aligner) (waiting : List EncodedFrame) (pushes : List Push)
    (images : List EmittedImage) (left : List EncodedFrame) : Prop where
  left : left.length = waiting.length + pausedIn pushes
  shown : images = pushes.flatMap Push.images
  each : ∀ p ∈ pushes, p.images.length = if p.paused then 0 else 1
  joins {i : Nat} {image : EmittedImage} : images[i]? = some image →
    ∃ j p f t, pushes[j]? = some p ∧ p.images = [image] ∧ j = i + pausedIn (pushes.take j) ∧
      (waiting ++ pushes.map Push.frame)[i]? = some f ∧ (al.alignAll (pushes.map Push.time))[j]? = some t ∧
      image.Joins f t

namespace Paired

variable {al : Aligner} {waiting left : List EncodedFrame} {pushes : List Push} {images : List EmittedImage}
  {f g : EncodedFrame} {now : Int64} {image : EmittedImage}

theorem nil : Paired al waiting [] [] waiting where
  left := rfl
  shown := rfl
  each := by simp
  joins h := by cases h

/-- A push that finds the encoder paused sets all later pushes back by one. -/
theorem paused (h : Paired (al.align f.captureUs now).2 (waiting ++ [f]) pushes images left) :
    Paired al waiting (⟨f, now, true, []⟩ :: pushes) images left where
  left := by
    rw [h.left, pausedIn, pausedIn, List.countP_cons, List.length_append]
    simp only [List.length_singleton, if_true]
    omega
  shown := h.shown
  each p hp := by
    rcases List.mem_cons.mp hp with rfl | hp
    · rfl
    · exact h.each p hp
  joins {i image} himage := by
    obtain ⟨j, p, f', t, hp, hpi, hj, hf, ht, hjoins⟩ := h.joins himage
    refine ⟨j + 1, p, f', t, hp, hpi, ?_, ?_, ht, hjoins⟩
    · simp only [pausedIn, List.take_succ_cons, List.countP_cons, if_true]
      simp only [pausedIn] at hj
      omega
    · rw [List.append_assoc] at hf
      exact hf

/-- A push that finds it sending presents the next frame. -/
theorem sent {rest : List EncodedFrame} (hq : waiting ++ [f] = g :: rest)
    (hg : image.Joins g (al.align f.captureUs now).1)
    (h : Paired (al.align f.captureUs now).2 rest pushes images left) :
    Paired al waiting (⟨f, now, false, [image]⟩ :: pushes) (image :: images) left where
  left := by
    have hlen := congrArg List.length hq
    simp only [List.length_append, List.length_cons, List.length_nil] at hlen
    rw [h.left, pausedIn, pausedIn, List.countP_cons]
    simp only [Bool.false_eq_true, if_false]
    omega
  shown := by rw [h.shown]; rfl
  each p hp := by
    rcases List.mem_cons.mp hp with rfl | hp
    · rfl
    · exact h.each p hp
  joins {i image'} himage := by
    have hframes : waiting ++ f :: pushes.map Push.frame = g :: (rest ++ pushes.map Push.frame) := by
      rw [← List.singleton_append, ← List.append_assoc, hq, List.cons_append]
    cases i with
    | zero =>
      obtain rfl : image = image' := Option.some.inj himage
      refine ⟨0, _, g, _, rfl, rfl, rfl, ?_, rfl, hg⟩
      rw [List.map_cons, hframes]
      rfl
    | succ i =>
      obtain ⟨j, p, f', t, hp, hpi, hj, hf, ht, hjoins⟩ := h.joins himage
      refine ⟨j + 1, p, f', t, hp, hpi, ?_, ?_, ht, hjoins⟩
      · simp only [pausedIn, List.take_succ_cons, List.countP_cons, Bool.false_eq_true, if_false]
        simp only [pausedIn] at hj
        omega
      · rw [List.map_cons, hframes]
        exact hf

end Paired

end Lane

namespace Lane.State

variable (x : State) (a : Lane) {op : Op} {f : EncodedFrame} {now : Int64}

theorem next_of_push (hop : op.frame? = some (f, now)) : x.next a op = x.pushed a f now := by
  cases op with
  | push f' now' => cases hop; rfl
  | capture tags payload now' =>
    obtain ⟨f', hf, heq⟩ := Option.map_eq_some_iff.mp hop
    cases heq
    cases hmake : EncodedFrame.make tags payload with
    | error e => rw [hmake] at hf; cases hf
    | ok f' =>
      rw [hmake] at hf
      cases hf
      simp only [next, hmake]
  | requestKeyframe | consumeKeyframeRequest | wantKeyframe | hintRate => cases hop

/-- What pushes nothing leaves queue and pump alone and presents nothing. -/
theorem next_of_not_push (hop : op.frame? = none) :
    (x.next a op).1.source.queue = x.source.queue ∧ (x.next a op).1.source.pump = x.source.pump ∧
    ∀ o, presentedTo o (x.next a op).2 = [] := by
  cases op with
  | push f' now' => cases hop
  | capture tags payload now' =>
    cases hmake : EncodedFrame.make tags payload with
    | error e =>
      simp only [next, hmake]
      exact ⟨trivial, trivial, fun _ => rfl⟩
    | ok f' => simp only [Op.frame?, hmake] at hop; cases hop
  | requestKeyframe | consumeKeyframeRequest | wantKeyframe | hintRate => exact ⟨rfl, rfl, fun _ => rfl⟩

end Lane.State

namespace Session

variable {s : Session} {a : Lane} {x : Lane.State}

theorem isPaused_of_has (h : s.Has a x) : s.isPaused a.encoder = !x.encoder.sending := by
  unfold isPaused
  rw [h.encoder]

theorem journal_tell (s : Session) (w : Option Watcher) : (s.tell w).journal = s.journal := by
  cases w <;> rfl

/-- What an operation on a lane leaves behind, and what happened meanwhile. -/
theorem has_perform (h : s.Has a x) (hw : x.Wired a) (op : Lane.Op) :
    (s.perform (op.action a)).2.Has a (x.next a op).1 ∧
    (s.perform (op.action a)).2.journal = (x.next a op).2.reverse ++ s.journal := by
  rw [perform_eq_move h hw op]
  refine ⟨has_move (has_tell h _), ?_⟩
  show _ ++ (s.tell _).journal = _
  rw [journal_tell]

theorem pushes_cons_of_push {op : Lane.Op} {f : EncodedFrame} {now : Int64}
    (hop : op.frame? = some (f, now)) (rest : List Lane.Op) :
    s.pushes a (op :: rest)
      = ⟨f, now, s.isPaused a.encoder,
          presentedTo a.output (s.eventsSince (s.perform (op.action a)).2)⟩
        :: (s.perform (op.action a)).2.pushes a rest := by
  rw [pushes, hop]
  rfl

theorem pushes_cons_of_not_push {op : Lane.Op} (hop : op.frame? = none) (rest : List Lane.Op) :
    s.pushes a (op :: rest) = (s.perform (op.action a)).2.pushes a rest := by
  rw [pushes, hop]
  rfl

/-- The frames that are pushed, with the readings of the clock, are those of the operations. -/
theorem frames_pushes (a : Lane) (ops : List Lane.Op) (s : Session) :
    (s.pushes a ops).map (fun p => (p.frame, p.now)) = ops.filterMap Lane.Op.frame? := by
  induction ops generalizing s with
  | nil => rfl
  | cons op rest ih =>
    cases hop : op.frame? with
    | none => rw [pushes_cons_of_not_push hop, ih, List.filterMap_cons_none hop]
    | some p =>
      obtain ⟨f, now⟩ := p
      rw [pushes_cons_of_push hop, List.map_cons, ih, List.filterMap_cons_some hop]

/-- **Frames and times of a lane in working order.** -/
theorem paired_run (ops : List Lane.Op) (h : s.Has a x) (hw : x.Wired a) :
    ∃ es, (s.run (ops.map (Lane.Op.action a))).journal = es.reverse ++ s.journal ∧
      Lane.Paired x.source.pump.aligner x.source.queue (s.pushes a ops) (presentedTo a.output es)
        ((s.run (ops.map (Lane.Op.action a))).queue a.source) := by
  induction ops generalizing s x with
  | nil =>
    refine ⟨[], rfl, ?_⟩
    rw [List.map_nil, run_nil, queue_eq_of_has h]
    exact .nil
  | cons op rest ih =>
    obtain ⟨hnext, hjournal⟩ := has_perform h hw op
    have hwnext : (x.next a op).1.Wired a := Lane.State.wired_of_wiring_eq (x.wiring_next a op) hw
    obtain ⟨es, hes, hpaired⟩ := ih hnext hwnext
    refine ⟨(x.next a op).2 ++ es, ?_, ?_⟩
    · rw [List.map_cons, run_cons, hes, hjournal, List.reverse_append, List.append_assoc]
    rw [List.map_cons, run_cons, presentedTo_append]
    cases hop : op.frame? with
    | none =>
      obtain ⟨hqueue, hpump, hshown⟩ := x.next_of_not_push a hop
      rw [pushes_cons_of_not_push hop, hshown, List.nil_append]
      rw [hqueue, hpump] at hpaired
      exact hpaired
    | some p =>
      obtain ⟨f, now⟩ := p
      rw [pushes_cons_of_push hop, eventsSince_eq hjournal, isPaused_of_has h]
      rw [x.next_of_push a hop] at hpaired ⊢
      rw [(x.pump_pushed a f now).1] at hpaired
      cases hsending : x.encoder.sending with
      | false =>
        obtain ⟨hqueue, hshown⟩ := x.pushed_of_paused a hsending f now
        rw [hqueue] at hpaired
        rw [hshown]
        exact hpaired.paused
      | true =>
        obtain ⟨g, image, hqueue, hshown, hjoins⟩ := x.pushed_of_sending a hsending f now
        rw [hshown]
        exact hpaired.sent hqueue hjoins

/-! ### Before the pipeline is attached -/

theorem perform_of_push {op : Lane.Op} {f : EncodedFrame} {now : Int64} (hop : op.frame? = some (f, now)) :
    (s.perform (op.action a)).2 = (s.push a.source f now).2 := by
  cases op with
  | push f' now' => cases hop; rfl
  | capture tags payload now' =>
    obtain ⟨f', hf, heq⟩ := Option.map_eq_some_iff.mp hop
    cases heq
    cases hmake : EncodedFrame.make tags payload with
    | error e => rw [hmake] at hf; cases hf
    | ok f' =>
      rw [hmake] at hf
      cases hf
      simp only [Lane.Op.action, perform, capture, hmake]
  | requestKeyframe | consumeKeyframeRequest | wantKeyframe | hintRate => cases hop

/-- What operations make of a lane to which nothing listens yet: their frames wait, and the aligner has seen
their times. -/
structure Stores (s t : Session) (a : Lane) (x y : Lane.State) (frames : List (EncodedFrame × Int64)) : Prop where
  has : t.Has a y
  loose : y.Loose a
  journal : ∃ es, t.journal = es.reverse ++ s.journal ∧ presentedTo a.output es = []
  queue : y.source.queue = x.source.queue ++ frames.map Prod.fst
  aligner (more : List (Int64 × Int64)) : x.source.pump.aligner.alignAll (Lane.times frames ++ more)
    = x.source.pump.aligner.alignAll (Lane.times frames) ++ y.source.pump.aligner.alignAll more

theorem Stores.trans {s t u : Session} {x y z : Lane.State} {frames frames' : List (EncodedFrame × Int64)}
    (h : Stores s t a x y frames) (h' : Stores t u a y z frames') : Stores s u a x z (frames ++ frames') where
  has := h'.has
  loose := h'.loose
  journal := by
    obtain ⟨es, hes, hnone⟩ := h.journal
    obtain ⟨es', hes', hnone'⟩ := h'.journal
    refine ⟨es ++ es', ?_, ?_⟩
    · rw [hes', hes, List.reverse_append, List.append_assoc]
    · rw [presentedTo_append, hnone, hnone']
      rfl
  queue := by rw [h'.queue, h.queue, List.map_append, List.append_assoc]
  aligner more := by
    have htimes : Lane.times (frames ++ frames') = Lane.times frames ++ Lane.times frames' := List.map_append
    rw [htimes, List.append_assoc, h.aligner, h'.aligner, h.aligner, List.append_assoc]

theorem stores_perform (h : s.Has a x) (hl : x.Loose a) (op : Lane.Op) :
    ∃ y, Stores s (s.perform (op.action a)).2 a x y op.frame?.toList := by
  cases hop : op.frame? with
  | none =>
    obtain ⟨hqueue, hpump, hshown⟩ := x.next_of_not_push a hop
    rw [perform_eq_move_of_not_push h hl.encoder hop]
    refine ⟨(x.next a op).1, has_move (has_tell h _), Lane.State.loose_of_wiring_eq (x.wiring_next a op) hl,
      ⟨(x.next a op).2, ?_, hshown _⟩, ?_, fun more => ?_⟩
    · show _ ++ (s.tell _).journal = _
      rw [journal_tell]
    · rw [hqueue]
      exact (List.append_nil _).symm
    · rw [hpump]
      rfl
  | some p =>
    obtain ⟨f, now⟩ := p
    rw [perform_of_push hop, push_eq_move_of_loose h hl f now]
    refine ⟨(x.enqueued f).stamped f.captureUs now, has_move h,
      ⟨hl.live, hl.running, hl.taps, hl.encoder, hl.binding, hl.configured, hl.destination⟩,
      ⟨_, rfl, ?_⟩, rfl, fun more => rfl⟩
    have hnone := (x.enqueued f).presentedTo_pushing a f [] a.output
    rw [List.append_nil] at hnone
    exact hnone

theorem stores_run (ops : List Lane.Op) (h : s.Has a x) (hl : x.Loose a) :
    ∃ y, Stores s (s.run (ops.map (Lane.Op.action a))) a x y (ops.filterMap Lane.Op.frame?) := by
  induction ops generalizing s x with
  | nil =>
    exact ⟨x, h, hl, ⟨[], rfl, rfl⟩, (List.append_nil _).symm, fun more => rfl⟩
  | cons op rest ih =>
    obtain ⟨y, hfirst⟩ := stores_perform h hl op
    obtain ⟨z, hrest⟩ := ih hfirst.has hfirst.loose
    refine ⟨z, ?_⟩
    have hframes : (op :: rest).filterMap Lane.Op.frame? = op.frame?.toList ++ rest.filterMap Lane.Op.frame? := by
      rw [List.filterMap_cons]
      cases op.frame? <;> rfl
    rw [hframes]
    exact hfirst.trans hrest

/-! ### Around the attachment -/

section Attached

variable {t : Session} {src : Source} {p : Passthrough} {out : Output} {settings : Settings}

/-- A session after some operations on a lane that is still to be wired, and the wiring. -/
def wiredAfter (t : Session) (a : Lane) (pre : List Lane.Op) : Session :=
  t.run (pre.map (Lane.Op.action a) ++ [.attach a.pipeline a.source])

/-- Frames that were pushed before the pipeline was attached lie in front of the others. -/
theorem paired_wired (hs : s.source? a.source = some src) (hfresh : src.Fresh)
    (he : s.encoder? a.encoder = some (.passthrough p)) (hb : p.binding = .bound a.source)
    (ho : s.output? a.output = some out)
    (h : s.addPipeline a.encoder settings a.output = (.ok a.pipeline, t)) (pre ops : List Lane.Op) :
    ∃ al, (∀ more, ({} : Aligner).alignAll (Lane.times (pre.filterMap Lane.Op.frame?) ++ more)
        = ({} : Aligner).alignAll (Lane.times (pre.filterMap Lane.Op.frame?)) ++ al.alignAll more) ∧
      Lane.Paired al ((pre.filterMap Lane.Op.frame?).map Prod.fst) ((t.wiredAfter a pre).pushes a ops)
        (presentedTo a.output
          (t.eventsSince ((t.wiredAfter a pre).run (ops.map (Lane.Op.action a)))))
        (((t.wiredAfter a pre).run (ops.map (Lane.Op.action a))).queue a.source) := by
  obtain ⟨q, hq, hmade⟩ := has_addPipeline hs he ho h
  have hloose : (Lane.State.made a src q out).Loose a :=
    Lane.State.loose_made out hfresh.live hfresh.running hfresh.taps hb hq
  obtain ⟨y, hy⟩ := stores_run pre hmade hloose
  have hwired : (t.wiredAfter a pre) = (t.run (pre.map (Lane.Op.action a))).move a (y.attached a) [] := by
    rw [wiredAfter, run_append]
    exact attach_eq_move hy.has
  obtain ⟨es, hes, hpaired⟩ := paired_run ops (has_move hy.has) (Lane.State.wired_attached hy.loose)
  rw [← hwired] at hes hpaired
  obtain ⟨es₀, hes₀, hnone⟩ := hy.journal
  have hjournal : ((t.wiredAfter a pre).run (ops.map (Lane.Op.action a))).journal
      = (es₀ ++ es).reverse ++ t.journal := by
    rw [hes, hwired, List.reverse_append, List.append_assoc, ← hes₀]
    rfl
  refine ⟨y.source.pump.aligner, fun more => ?_, ?_⟩
  · have haligner := hy.aligner more
    have hnew : (Lane.State.made a src q out).source.pump.aligner = {} := hfresh.aligner
    rwa [hnew] at haligner
  · have hqueue : y.source.queue = (pre.filterMap Lane.Op.frame?).map Prod.fst := by
      rw [hy.queue]
      show src.queue ++ _ = _
      rw [hfresh.queue, List.nil_append]
    rw [eventsSince_eq hjournal, presentedTo_append, hnone, List.nil_append, ← hqueue]
    exact hpaired

end Attached

theorem queueLength_eq (s : Session) (id : RoutingId) : s.queueLength id = (s.queue id).length := by
  unfold queueLength queue
  cases s.source? id <;> rfl

end Session

section Results

variable {s t : Session} {a : Lane} {src : Source} {p : Passthrough} {out : Output} {settings : Settings}

/-- **Which frame and which time meet in an image.**  A fresh source is attached to a pipeline around an encoder
bound to it, after some operations without a push.  After any further operations as many frames wait as pulls
found the encoder paused.  Each other push presents one image; image `i` is the frame of push `i`, and is timed
by the push that presented it, which is as many places further on as pushes before it found the encoder
paused. -/
theorem images_join_pushes (hs : s.source? a.source = some src) (hfresh : src.Fresh)
    (he : s.encoder? a.encoder = some (.passthrough p)) (hb : p.binding = .bound a.source)
    (ho : s.output? a.output = some out)
    (h : s.addPipeline a.encoder settings a.output = (.ok a.pipeline, t)) (pre ops : List Lane.Op)
    (hpre : ∀ op ∈ pre, op.frame? = none) :
    let u := t.wiredAfter a pre
    let final := u.run (ops.map (Lane.Op.action a))
    let pushes := u.pushes a ops
    let images := presentedTo a.output (t.eventsSince final)
    pushes.map (fun p => (p.frame, p.now)) = ops.filterMap Lane.Op.frame? ∧
    final.queueLength a.source = Lane.pausedIn pushes ∧
    (images = pushes.flatMap Lane.Push.images ∧
      ∀ p ∈ pushes, p.images.length = if p.paused then 0 else 1) ∧
    ∀ i image, images[i]? = some image →
      ∃ j p f stamp, pushes[j]? = some p ∧ p.images = [image] ∧ j = i + Lane.pausedIn (pushes.take j) ∧
        (pushes.map Lane.Push.frame)[i]? = some f ∧
        (({} : Aligner).alignAll (pushes.map Lane.Push.time))[j]? = some stamp ∧
        image.Carries f ∧ image.image.captureMs = stamp.map millisOfMicros ∧
        image.image.rtp = if f.rtp ≠ 0 then ⟨f.rtp, false⟩ else stamp.map rtpOfMicros := by
  obtain ⟨al, hal, hpaired⟩ := Session.paired_wired hs hfresh he hb ho h pre ops
  have hnone : pre.filterMap Lane.Op.frame? = [] := List.filterMap_eq_nil_iff.mpr hpre
  rw [hnone] at hal hpaired
  intro u final pushes images
  refine ⟨Session.frames_pushes a ops u, ?_, ⟨hpaired.shown, hpaired.each⟩, fun i image himage => ?_⟩
  · rw [Session.queueLength_eq]
    exact hpaired.left.trans (Nat.zero_add _)
  · obtain ⟨j, p, f, stamp, hp, hpi, hj, hf, hstamp, hjoins⟩ := hpaired.joins himage
    refine ⟨j, p, f, stamp, hp, hpi, hj, hf, ?_, hjoins.carries, hjoins.captureMs, hjoins.rtp⟩
    have hsame := hal (pushes.map Lane.Push.time)
    rw [show Lane.times [] = [] from rfl] at hsame
    rw [List.nil_append] at hsame
    rw [hsame]
    exact hstamp

/-- A source, an encoder bound to it and a collector. -/
def boundEncoder : Session :=
  ({} : Session).run [.addRegistry, .addOutput (.collector #[]), .addSource ⟨1⟩ {},
    .addEncoder (.passthrough (Passthrough.make (.bound ⟨1⟩) .h264 {} none))]

/-- The lane they make with a pipeline. -/
def firstLane : Lane := ⟨⟨1⟩, ⟨1⟩, ⟨1⟩, ⟨1⟩⟩

/-- The session in which the pipeline has been made. -/
def pipelineMade : Session := (boundEncoder.addPipeline ⟨1⟩ ⟨.h264, 640, 480, 30, []⟩ ⟨1⟩).2

/-- Capture a frame without an RTP time of its own. -/
def captureAt (us : Int64) (payload : Octets) : Lane.Op :=
  .capture { captureUs := us, width := 640, height := 480 } payload 0

/-- One frame goes through, two are held up by a pause, one of them leaves after it. -/
def heldUp : List Lane.Op :=
  [captureAt 1000 [0x65], .hintRate ⟨0⟩, captureAt 2000 [0x41], captureAt 3000 [0x42], .wantKeyframe,
    .hintRate ⟨500000⟩, captureAt 4000 [0x43]]

theorem images_join_pushes_heldUp :
    boundEncoder.addPipeline ⟨1⟩ ⟨.h264, 640, 480, 30, []⟩ ⟨1⟩ = (.ok ⟨1⟩, pipelineMade) ∧
    (let u := pipelineMade.wiredAfter firstLane [.hintRate ⟨500000⟩]
      let final := u.run (heldUp.map (Lane.Op.action firstLane))
      final.queueLength ⟨1⟩ = 2 ∧ Lane.pausedIn (u.pushes firstLane heldUp) = 2 ∧
        final.queueLength ⟨1⟩ = Lane.pausedIn (u.pushes firstLane heldUp) ∧
        (presentedTo ⟨1⟩ (pipelineMade.eventsSince final)).map (fun i => i.image.captureMs.value) = [1, 4]) := by
  have h : boundEncoder.addPipeline ⟨1⟩ ⟨.h264, 640, 480, 30, []⟩ ⟨1⟩ = (.ok ⟨1⟩, pipelineMade) := rfl
  have hjoin := images_join_pushes (a := firstLane) rfl (Source.fresh_ofConfig {} ⟨1⟩) rfl rfl rfl h
    [.hintRate ⟨500000⟩] heldUp (by simp [Lane.Op.frame?])
  exact ⟨h, by decide +kernel, by decide +kernel, hjoin.2.1, by decide +kernel⟩

/-- **Images trail their pushes.**  Frames may be pushed before the pipeline is attached, too.  An image whose
frame has no RTP time of its own is timed by a push `lag` places after that of the frame, where `lag` counts the
pushes so far that took nothing out of the queue: those before the attachment and those that found the encoder
paused.  It is the frame's own time if there was none. -/
theorem images_trail_pushes (hs : s.source? a.source = some src) (hfresh : src.Fresh)
    (he : s.encoder? a.encoder = some (.passthrough p)) (hb : p.binding = .bound a.source)
    (ho : s.output? a.output = some out)
    (h : s.addPipeline a.encoder settings a.output = (.ok a.pipeline, t)) (pre ops : List Lane.Op) :
    let u := t.wiredAfter a pre
    let early := pre.filterMap Lane.Op.frame?
    let frames := early ++ ops.filterMap Lane.Op.frame?
    let pushes := u.pushes a ops
    let images := presentedTo a.output (t.eventsSince (u.run (ops.map (Lane.Op.action a))))
    ∀ i image, images[i]? = some image →
      ∃ f, (frames.map Prod.fst)[i]? = some f ∧ image.Carries f ∧ (f.rtp = 0 →
        ∃ j p lag stamp, pushes[j]? = some p ∧ p.images = [image] ∧
          lag = early.length + Lane.pausedIn (pushes.take j) ∧ early.length + j = i + lag ∧
          (({} : Aligner).alignAll (Lane.times frames))[i + lag]? = some stamp ∧
          image.image.captureMs = stamp.map millisOfMicros ∧
          image.image.rtp = stamp.map rtpOfMicros) := by
  intro u early frames pushes images i image himage
  obtain ⟨al, hal, hpaired⟩ := Session.paired_wired hs hfresh he hb ho h pre ops
  obtain ⟨j, p, f, stamp, hp, hpi, hj, hf, hstamp, hjoins⟩ := hpaired.joins himage
  change j = i + Lane.pausedIn (pushes.take j) at hj
  have hframes := Session.frames_pushes a ops u
  refine ⟨f, ?_, hjoins.carries, fun hrtp => ?_⟩
  · have hfst : pushes.map Lane.Push.frame = (ops.filterMap Lane.Op.frame?).map Prod.fst := by
      rw [← hframes, List.map_map]
      rfl
    rw [List.map_append, ← hfst]
    exact hf
  · refine ⟨j, p, early.length + Lane.pausedIn (pushes.take j), stamp, hp, hpi, rfl, by omega, ?_,
      hjoins.captureMs, ?_⟩
    · have htimes : Lane.times frames = Lane.times early ++ pushes.map Lane.Push.time := by
        rw [Lane.times, List.map_append, ← hframes, List.map_map]
        rfl
      have hlen : (({} : Aligner).alignAll (Lane.times early)).length = early.length := by
        rw [Aligner.length_alignAll, Lane.times, List.length_map]
      have hi : i + (early.length + Lane.pausedIn (pushes.take j)) = early.length + j := by omega
      have hle : (({} : Aligner).alignAll (Lane.times early)).length ≤ early.length + j := by omega
      rw [htimes, hal, hi, List.getElem?_append_right hle, hlen, Nat.add_sub_cancel_left]
      exact hstamp
    · rw [hjoins.rtp, if_neg (by simpa using hrtp)]

theorem images_trail_pushes_heldUp :
    boundEncoder.addPipeline ⟨1⟩ ⟨.h264, 640, 480, 30, []⟩ ⟨1⟩ = (.ok ⟨1⟩, pipelineMade) ∧
    (let u := pipelineMade.wiredAfter firstLane [captureAt 500 [0x66]]
      let images := presentedTo ⟨1⟩ (pipelineMade.eventsSince (u.run (heldUp.map (Lane.Op.action firstLane))))
      images.map (fun i => (i.image.data, i.image.captureMs.value)) = [([0x66], 1), ([0x65], 4)] ∧
        ∀ image, images[1]? = some image → ∃ f, image.Carries f ∧ f.captureUs = 1000) := by
  have h : boundEncoder.addPipeline ⟨1⟩ ⟨.h264, 640, 480, 30, []⟩ ⟨1⟩ = (.ok ⟨1⟩, pipelineMade) := rfl
  have htrail := images_trail_pushes (a := firstLane) rfl (Source.fresh_ofConfig {} ⟨1⟩) rfl rfl rfl h
    [captureAt 500 [0x66]] heldUp
  refine ⟨h, by decide +kernel, fun image himage => ?_⟩
  obtain ⟨f, hf, hcarries, _⟩ := htrail 1 image himage
  cases hf
  exact ⟨_, hcarries, rfl⟩

/-- Pause, push, resume, push. -/
def resumed : List Lane.Op :=
  [.hintRate ⟨0⟩, captureAt 1000 [0x65], .hintRate ⟨500000⟩, captureAt 2000 [0x41]]

/-- The first frame leaves with the time of the second. -/
theorem resumed_image_not_its_own_time :
    let u := pipelineMade.wiredAfter firstLane []
    let pushes := u.pushes firstLane resumed
    let images := presentedTo ⟨1⟩ (pipelineMade.eventsSince (u.run (resumed.map (Lane.Op.action firstLane))))
    ∃ image f own, images = [image] ∧ (pushes.map Lane.Push.frame)[0]? = some f ∧ f.rtp = 0 ∧
      image.Carries f ∧ (({} : Aligner).alignAll (pushes.map Lane.Push.time))[0]? = some own ∧
      own = ⟨1000, false⟩ ∧ image.image.captureMs = ⟨2, false⟩ ∧
      image.image.captureMs ≠ own.map millisOfMicros ∧ image.image.rtp ≠ own.map rtpOfMicros := by
  exact ⟨_, _, _, rfl, rfl, rfl, ⟨rfl, rfl, rfl, rfl, rfl⟩, rfl, rfl, by decide +kernel, by decide +kernel,
    by decide +kernel⟩

end Results

end EncodedFeed
