import EncodedFeed.Proofs.Lane.Run
import EncodedFeed.Proofs.Session.Conservation

/-!
# Frames flowing through a lane

As long as nothing holds up a lane, each frame that is pushed comes out at once: the queue is empty before and
after, and the image is timed by the placeholder that was made for this very frame.  A keyframe that is wanted is
asked for on the way.
-/

namespace EncodedFeed

/-- Each capture time gets one stamp. -/
theorem Aligner.length_alignAll (captures : List (Int64 × Int64)) (a : Aligner) :
    (a.alignAll captures).length = captures.length := by
  induction captures generalizing a with
  | nil => rfl
  | cons c rest ih => exact congrArg (· + 1) (ih _)

/-- The output takes whatever it is offered. -/
def Output.Welcomes : Output → Prop
  | guarded verdict seen => ∀ n, seen ≤ n → verdict n = none
  | _ => True

theorem Output.offer_of_welcomes {o : Output} (h : o.Welcomes) (i : EmittedImage) :
    (o.offer i).1 = none ∧ (o.offer i).2.Welcomes := by
  cases o with
  | collector images => exact ⟨rfl, trivial⟩
  | channel c => exact ⟨rfl, trivial⟩
  | guarded verdict seen => exact ⟨h seen (Nat.le_refl _), fun n hn => h n (Nat.le_of_succ_le hn)⟩

/-- The frame a source has accepted. -/
def Event.entered? (id : RoutingId) : Event → Option EncodedFrame
  | pushed i f => if i = id then some f else none
  | _ => none

/-- Frames a source has accepted, in order. -/
def enteredInto (id : RoutingId) (es : List Event) : List EncodedFrame := es.filterMap (Event.entered? id)

theorem enteredInto_append (id : RoutingId) (es es' : List Event) :
    enteredInto id (es ++ es') = enteredInto id es ++ enteredInto id es' := List.filterMap_append

namespace Lane.State

/-- Nothing waits in the lane, it is not paused, and its output takes everything. -/
structure Clear (x : State) : Prop where
  empty : x.source.queue = []
  sending : x.encoder.sending = true
  welcome : x.output.Welcomes

/-- The lane is clear, and no keyframe is pending. -/
structure Flowing (x : State) : Prop extends Clear x where
  quiet : x.pipeline.keyframePending = false

/-- The image a frame becomes that is pushed now. -/
def emerging (x : State) (a : Lane) (f : EncodedFrame) (now : Int64) : EmittedImage :=
  x.encoder.image f (clocked (x.placeholder a (x.stamp f.captureUs now)))

/-- The lane after a frame has gone through. -/
def passed (x : State) (a : Lane) (f : EncodedFrame) (now : Int64) : State where
  source := { x.source with pump := (x.source.pump.stamp f.captureUs now).2 }
  pipeline := { x.pipeline with
    keyframePending := false
    stats := { x.pipeline.stats with pulls := x.pipeline.stats.pulls + 1 }.accept (x.emerging a f now).image }
  encoder := { x.encoder with emitted := x.encoder.emitted + 1 }
  output := (x.output.offer (x.emerging a f now)).2

/-- What happens when a frame goes through: it is pushed, a keyframe is asked for if one is pending, and the frame
is taken and presented. -/
def passing (x : State) (a : Lane) (f : EncodedFrame) (now : Int64) : List Event :=
  .pushed a.source f :: ((if x.pipeline.keyframePending then [.asked a.source] else [])
    ++ [.taken a.source f, .presented a.output (x.emerging a f now) none])

theorem clear_passed {x : State} (hx : x.Clear) (a : Lane) (f : EncodedFrame) (now : Int64) :
    (x.passed a f now).Clear :=
  ⟨hx.empty, hx.sending, (Output.offer_of_welcomes hx.welcome _).2⟩

theorem clear_asked {x : State} (hx : x.Clear) (key : Bool) : (x.asked key).Clear := by
  cases key <;> exact ⟨hx.empty, hx.sending, hx.welcome⟩

theorem flowing_passed {x : State} (hx : x.Flowing) (a : Lane) (f : EncodedFrame) (now : Int64) :
    (x.passed a f now).Flowing := ⟨clear_passed hx.toClear a f now, rfl⟩

/-- A single frame is not too many. -/
theorem depthWarning_enqueued {x : State} (hx : x.Clear) (a : Lane) (f : EncodedFrame) :
    (x.enqueued f).depthWarning a = [] := by
  have hlength : (x.enqueued f).source.queue.length = 1 := by
    show (x.source.queue ++ [f]).length = 1
    rw [hx.empty]
    rfl
  have hdepth : (x.enqueued f).source.isPastDepth = false := by
    unfold Source.isPastDepth
    rw [hlength]
    by_cases hzero : (x.enqueued f).source.warnDepth = 0
    · simp [hzero]
    · have hpos : (x.enqueued f).source.warnDepth.toNat ≠ 0 := by
        intro heq
        exact hzero (UInt64.toNat_inj.mp heq)
      simp only [Bool.and_eq_false_iff, beq_eq_false_iff_ne]
      right
      omega
  rw [depthWarning, hdepth]
  rfl

/-- **A frame goes through**, and the request that may be pending with it. -/
theorem pushed_of_clear {x : State} (hx : x.Clear) (a : Lane) (f : EncodedFrame) (now : Int64) :
    x.pushed a f now
      = ((x.passed a f now).asked x.pipeline.keyframePending, x.passing a f now) := by
  set y := (x.enqueued f).stamped f.captureUs now with hy
  set raw := (x.enqueued f).placeholder a ((x.enqueued f).stamp f.captureUs now) with hraw
  set key := x.pipeline.keyframePending with hkey
  have hpending : y.pipeline.keyframePending = key := rfl
  have hsending : y.counted.encoder.sending = true := hx.sending
  have hqueue : (y.counted.asked key).source.queue = [f] := by
    have henqueued : y.counted.source.queue = [f] := by
      show x.source.queue ++ [f] = [f]
      rw [hx.empty, List.nil_append]
    unfold asked
    dsimp only
    split <;> exact henqueued
  have himage : (y.counted.asked key).encoder.image f (clocked raw) = x.emerging a f now := rfl
  have haccept : ((y.counted.asked key).output.offer (x.emerging a f now)).1 = none :=
    (Output.offer_of_welcomes hx.welcome _).1
  have hpass : (y.counted.asked key).passOn a (clocked raw)
      = (.ok .emitted, (x.passed a f now).asked key,
          [.taken a.source f, .presented a.output (x.emerging a f now) none]) := by
    unfold passOn
    rw [hqueue]
    dsimp only
    rw [himage, haccept]
    -- the queue is empty again, as it was
    have hempty : { x.source with queue := [] } = x.source := by rw [← hx.empty]
    have hsource : { (y.counted.asked key).source with queue := [] } = ((x.passed a f now).asked key).source := by
      unfold asked
      dsimp only
      split
      · exact congrArg (fun src : Source => Source.requestKeyframe
          { src with pump := (x.source.pump.stamp f.captureUs now).2 }) hempty
      · exact congrArg (fun src : Source => { src with pump := (x.source.pump.stamp f.captureUs now).2 }) hempty
    exact congrArg (fun src => (Except.ok Outcome.emitted, { (x.passed a f now).asked key with source := src },
      [Event.taken a.source f, .presented a.output (x.emerging a f now) none])) hsource
  have hfed : y.fed a raw = ((x.passed a f now).asked key,
      (if key then [.asked a.source] else [])
        ++ [.taken a.source f, .presented a.output (x.emerging a f now) none]) := by
    simp only [fed, hpending, pull, hsending, if_true, hpass, tally, List.append_nil]
  show (_, _) = _
  rw [← hy, ← hraw, hfed, depthWarning_enqueued hx]
  rfl

theorem wiring_passed {x : State} (hx : x.Clear) (a : Lane) (f : EncodedFrame) (now : Int64) :
    (x.passed a f now).wiring = x.wiring := by
  have hpushed := x.wiring_pushed a f now
  rw [pushed_of_clear hx] at hpushed
  rw [← hpushed]
  unfold asked
  dsimp only
  split <;> rfl

/-! ### What happens when a frame goes through -/

variable (x : State) (a : Lane) (f : EncodedFrame) (now : Int64)

theorem presentedTo_passing : presentedTo a.output (x.passing a f now) = [x.emerging a f now] := by
  unfold passing
  split <;> simp [presentedTo, Event.presented?, List.filterMap_cons]

theorem enteredInto_passing : enteredInto a.source (x.passing a f now) = [f] := by
  unfold passing
  split <;> simp [enteredInto, Event.entered?, List.filterMap_cons]

end Lane.State

namespace Session

variable {s : Session} {a : Lane} {x : Lane.State}

theorem push_of_clear (h : s.Has a x) (hw : x.Wired a) (hx : x.Clear) (f : EncodedFrame) (now : Int64) :
    s.push a.source f now
      = (true, (s.tell (x.hearer x.pipeline.keyframePending)).move a
          ((x.passed a f now).asked x.pipeline.keyframePending) (x.passing a f now)) := by
  rw [push_eq_move h hw f now, Lane.State.pushed_of_clear hx]

theorem push_of_flowing (h : s.Has a x) (hw : x.Wired a) (hx : x.Flowing) (f : EncodedFrame) (now : Int64) :
    s.push a.source f now = (true, s.move a (x.passed a f now) (x.passing a f now)) := by
  rw [push_of_clear h hw hx.toClear, hx.quiet]
  rfl

end Session

end EncodedFeed
