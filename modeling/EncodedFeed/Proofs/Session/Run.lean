import EncodedFeed.Session.Pipelines

/-!
# Runs of a session

A run is a list of actions, carried out one after the other: the application makes objects, pushes and
takes frames and drops its handles, the host calls encoders and drives pipelines.  The clock readings a
push needs are part of the action.  Each step of a run knows the session it began in, so that what it
answered and what happened in it can be read off.

Where sums and products are checked an action may be cut short, and then there is nothing after it (`run?`).
-/

namespace EncodedFeed

/-- One thing that is done to a session. -/
inductive Action
  | addRegistry
  | addOutput (o : Output)
  | addFallback (f : Fallback)
  | addRecorder
  | addObserver
  | addSource (registry : Ref .registry) (config : SourceConfig)
  | addEncoder (e : Encoder)
  | addPipeline (e : Ref .encoder) (settings : Settings) (o : Ref .output)
  | register (registry : Ref .registry) (id source : RoutingId)
  | unregister (registry : Ref .registry) (id : RoutingId)
  | addHandle (source : RoutingId)
  | dropHandle (source : RoutingId)
  /-- Push a payload with its tags. -/
  | capture (source : RoutingId) (tags : FrameTags) (payload : Octets) (now : Int64)
  /-- Push a frame. -/
  | push (source : RoutingId) (frame : EncodedFrame) (now : Int64)
  | take (source : RoutingId)
  | requestKeyframe (source : RoutingId)
  | consumeKeyframeRequest (source : RoutingId)
  | watch (source : RoutingId) (watcher : Option Watcher)
  | emit (source : RoutingId) (capture now : Int64)
  | pushRaw (source : RoutingId) (picture : Picture) (timestamp : Stamped Int64)
  | addTap (source : RoutingId) (tap : Tap)
  | removeTap (source : RoutingId) (tap : TapId)
  | call (e : Ref .encoder) (c : Call)
  | dropEncoder (e : Ref .encoder)
  | attach (p : Ref .pipeline) (source : RoutingId)
  | detach (p : Ref .pipeline)
  | wantKeyframe (p : Ref .pipeline)
  | hintRate (p : Ref .pipeline) (hint : RateHint)
  | dropPipeline (p : Ref .pipeline)
  /-- Take all images out of a collector. -/
  | collect (o : Ref .output)
  | subscribe (o : Ref .output)
  | unsubscribe (o : Ref .output) (receiver : Nat)
  | receive (o : Ref .output) (receiver : Nat)
  | dropOutput (o : Ref .output)

/-- What comes back from an action. -/
inductive Reply
  | done
  /-- The number of the object that was made, or of the tap or receiver that was added. -/
  | made (number : Nat)
  /-- Whether a frame was accepted. -/
  | accepted (yes : Bool)
  /-- The frame that was taken. -/
  | frame (f : Option EncodedFrame)
  /-- Whether it was so, or has been done. -/
  | was (yes : Bool)
  | source (id : Option RoutingId)
  | stamp (t : Stamped Int64)
  | outcome (r : Except Error Outcome)
  | pipeline (r : Except Error (Ref .pipeline))
  | images (is : List EmittedImage)
  | reception (r : Reception)

namespace Action

/-- The application reads, empties or lets go of an output. -/
def readsOutput : Action → Bool
  | collect _ | subscribe _ | unsubscribe _ _ | receive _ _ | dropOutput _ => true
  | _ => false

end Action

namespace Session

/-- Carry out an action. -/
def perform (s : Session) : Action → Reply × Session
  | .addRegistry => (.made s.addRegistry.1.number, s.addRegistry.2)
  | .addOutput o => (.made (s.addOutput o).1.number, (s.addOutput o).2)
  | .addFallback f => (.made (s.addFallback f).1.number, (s.addFallback f).2)
  | .addRecorder => (.made s.addRecorder.1.number, s.addRecorder.2)
  | .addObserver => (.made s.addObserver.1.number, s.addObserver.2)
  | .addSource r c => (.made (s.addSource r c).1.number, (s.addSource r c).2)
  | .addEncoder e => (.made (s.addEncoder e).1.number, (s.addEncoder e).2)
  | .addPipeline e c o => (.pipeline (s.addPipeline e c o).1, (s.addPipeline e c o).2)
  | .register r id src => (.was (s.register r id src).1, (s.register r id src).2)
  | .unregister r id => (.source (s.unregister r id).1, (s.unregister r id).2)
  | .addHandle id => (.done, s.addHandle id)
  | .dropHandle id => (.done, s.dropHandle id)
  | .capture id tags payload now =>
    (.accepted (s.capture id tags payload now).1, (s.capture id tags payload now).2)
  | .push id f now => (.accepted (s.push id f now).1, (s.push id f now).2)
  | .take id => (.frame (s.take id).1, (s.take id).2)
  | .requestKeyframe id => (.done, s.requestKeyframe id)
  | .consumeKeyframeRequest id =>
    (.was (s.consumeKeyframeRequest id).1, (s.consumeKeyframeRequest id).2)
  | .watch id w => (.done, s.watch id w)
  | .emit id capture now => (.stamp (s.emit id capture now).1, (s.emit id capture now).2)
  | .pushRaw id picture t => (.done, s.pushRaw id picture t)
  | .addTap id tap => (.made (s.addTap id tap).1, (s.addTap id tap).2)
  | .removeTap id tap => (.was (s.removeTap id tap).1, (s.removeTap id tap).2)
  | .call e c => (.outcome (s.call e c).1, (s.call e c).2)
  | .dropEncoder e => (.done, s.dropEncoder e)
  | .attach p id => (.made (s.attach p id).1, (s.attach p id).2)
  | .detach p => (.done, s.detach p)
  | .wantKeyframe p => (.done, s.wantKeyframe p)
  | .hintRate p hint => (.done, s.hintRate p hint)
  | .dropPipeline p => (.done, s.dropPipeline p)
  | .collect o =>
    (.images (((s.output? o).map Output.images).getD []), s.modifyOutput o Output.cleared)
  | .subscribe o => (.made (s.subscribe o).1, (s.subscribe o).2)
  | .unsubscribe o receiver => (.done, s.unsubscribe o receiver)
  | .receive o receiver => (.reception (s.receive o receiver).1, (s.receive o receiver).2)
  | .dropOutput o => (.done, s.dropOutput o)

/-- Carry out an action if every sum and product fits that is made on the way. -/
def perform? (s : Session) : Action → Option (Reply × Session)
  | .addSource r c => (s.addSource? r c).map fun x => (.made x.1.number, x.2)
  | .capture id tags payload now => (s.capture? id tags payload now).map fun x => (.accepted x.1, x.2)
  | .push id f now => (s.push? id f now).map fun x => (.accepted x.1, x.2)
  | .emit id capture now => (s.emit? id capture now).map fun x => (.stamp x.1, x.2)
  | a => some (s.perform a)

/-- The session after some actions. -/
def run (s : Session) (actions : List Action) : Session :=
  actions.foldl (fun s a => (s.perform a).2) s

/-- The session after some actions, if none of them was cut short. -/
def run? (s : Session) : List Action → Option Session
  | [] => some s
  | a :: rest => (s.perform? a).bind fun x => x.2.run? rest

@[simp] theorem run_nil (s : Session) : s.run [] = s := rfl

@[simp] theorem run_cons (s : Session) (a : Action) (rest : List Action) :
    s.run (a :: rest) = (s.perform a).2.run rest := rfl

theorem run_append (s : Session) (as bs : List Action) : s.run (as ++ bs) = (s.run as).run bs :=
  List.foldl_append

/-- What has been noted in a session since an earlier one, oldest first. -/
def eventsSince (before after : Session) : List Event :=
  (after.journal.take (after.journal.length - before.journal.length)).reverse

theorem eventsSince_eq {s t : Session} {events : List Event} (h : t.journal = events.reverse ++ s.journal) :
    s.eventsSince t = events := by
  have hl : t.journal.length - s.journal.length = events.reverse.length := by
    rw [h, List.length_append]; omega
  rw [eventsSince, hl, h, List.take_left, List.reverse_reverse]

end Session

/-! ### Steps -/

/-- A step of a run: an action and the session it was done to. -/
structure Step where
  before : Session
  action : Action

namespace Step

/-- What came back. -/
def reply (x : Step) : Reply := (x.before.perform x.action).1

/-- The session afterwards. -/
def after (x : Step) : Session := (x.before.perform x.action).2

/-- What happened meanwhile, oldest first. -/
def events (x : Step) : List Event := x.before.eventsSince x.after

end Step

namespace Session

/-- The steps of a run. -/
def steps (s : Session) : List Action → List Step
  | [] => []
  | a :: rest => ⟨s, a⟩ :: (s.perform a).2.steps rest

end Session

end EncodedFeed
