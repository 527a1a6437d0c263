import EncodedFeed.Proofs.Encoder.Release
import EncodedFeed.Proofs.Encoder.Twins
import EncodedFeed.Proofs.Session.Conservation

/-!
# Lazy encoders are transparent

A pipeline around a lazy encoder and one around a routed passthrough encoder cannot be told apart, if the first
raw frame that reaches the encoder comes from a source registered at that moment.

The first raw frame makes the lazy encoder decide.  So what has to be followed through a push is whether the
frame has reached the encoder yet: it has, as soon as one of the taps was a pipeline around it.  Neither
registrations nor which pipeline is around which encoder change on the way (`Steady`).
-/

namespace EncodedFeed

/-! ### What raw frames leave alone -/

/-- Registrations, and the encoders of pipelines, are the same. -/
structure Steady (s t : Session) : Prop where
  registries : t.registries = s.registries
  driver (p : Ref .pipeline) : (t.pipeline? p).map Pipeline.encoder = (s.pipeline? p).map Pipeline.encoder

namespace Steady

theorem trans {s t u : Session} (h : Steady s t) (h' : Steady t u) : Steady s u :=
  ⟨h'.registries.trans h.registries, fun p => (h'.driver p).trans (h.driver p)⟩

theorem of_pipelines_eq {s t : Session} (hr : t.registries = s.registries)
    (hp : t.pipelines = s.pipelines) : Steady s t :=
  ⟨hr, fun p => by rw [Session.pipeline?, hp]; rfl⟩

theorem modifyPipeline (s : Session) (p : Ref .pipeline) {f : Pipeline → Pipeline}
    (hf : ∀ x, (f x).encoder = x.encoder) : Steady s (s.modifyPipeline p f) where
  registries := rfl
  driver q := by
    rw [Session.pipeline?, Session.modifyPipeline, Table.get?_modify, Session.pipeline?]
    split
    · rw [Option.map_map]
      exact congrArg (Option.map · _) (funext hf)
    · rfl

theorem present (s : Session) (d : Destination) (i : EmittedImage) : Steady s (s.present d i).2 := by
  unfold Session.present Session.count
  dsimp only
  split
  · have hnoted : Steady s ((s.modifyOutput d.output fun o => (o.offer i).2).note
        (.presented d.output i ((s.output? d.output).bind fun o => (o.offer i).1))) := of_pipelines_eq rfl rfl
    exact hnoted.trans (modifyPipeline _ _ fun _ => rfl)
  · exact of_pipelines_eq rfl rfl

theorem take (s : Session) (id : RoutingId) : Steady s (s.take id).2 := by
  unfold Session.take
  split <;> exact of_pipelines_eq rfl rfl

theorem kept : Kept Steady where
  refl _ := of_pipelines_eq rfl rfl
  trans := trans
  warn _ _ := of_pipelines_eq rfl rfl
  ask s id := by
    unfold Session.requestKeyframe
    dsimp only
    split <;> exact of_pipelines_eq rfl rfl
  passOn := Session.passOn_of_parts trans (fun _ _ => of_pipelines_eq rfl rfl) take present
  fallback _ _ _ := of_pipelines_eq rfl rfl
  encoder _ _ _ := of_pipelines_eq rfl rfl

theorem carried : Carried Steady where
  refl _ := of_pipelines_eq rfl rfl
  trans := trans
  warn _ _ := of_pipelines_eq rfl rfl
  call s e c := kept.call s e c
  drop _ _ := of_pipelines_eq rfl rfl
  pipeline s p _ hf := modifyPipeline s p hf
  recorder _ _ _ := of_pipelines_eq rfl rfl
  pump _ _ _ _ := of_pipelines_eq rfl rfl

end Steady

/-! ### Whom raw frames reach -/

namespace Session

/-- The tap is a pipeline around the encoder. -/
def drives (s : Session) (e : Ref .encoder) : Tap → Bool
  | .pipeline p => ((s.pipeline? p).map Pipeline.encoder).any fun e' => e' = e
  | .recorder _ => false

/-- The raw frames of the source reach the encoder. -/
def hears (s : Session) (e : Ref .encoder) (id : RoutingId) : Bool :=
  (s.source? id).any fun src => !src.pump.ended && (src.pump.taps.map Prod.snd).any (s.drives e)

theorem drives_of_steady {s t : Session} (h : Steady s t) (e : Ref .encoder) : t.drives e = s.drives e := by
  funext tap
  cases tap with
  | recorder r => rfl
  | pipeline p => simp only [drives, h.driver p]

theorem hears_of_steady {s t : Session} (h : Steady s t) (e : Ref .encoder) {id : RoutingId}
    {src src' : Source} (hs : s.source? id = some src) (ht : t.source? id = some src')
    (hended : src'.pump.ended = src.pump.ended) (htaps : src'.pump.taps = src.pump.taps) :
    t.hears e id = s.hears e id := by
  simp only [hears, hs, ht, Option.any_some, hended, htaps, drives_of_steady h]

end Session

/-- The source that hands out a raw frame in this action. -/
def Action.sender? (s : Session) : Action → Option RoutingId
  | capture id _ payload _ => if payload = [] ∨ s.isClosed id = true then none else some id
  | push id _ _ => if s.isClosed id = true then none else some id
  | emit id _ _ | pushRaw id _ _ => some id
  | _ => none

/-- A raw frame reaches the encoder in this step. -/
def Step.feeds (x : Step) (e : Ref .encoder) : Bool :=
  (x.action.sender? x.before).any (x.before.hears e)

/-- The source that hands out a raw frame in this step is registered. -/
def Step.fromRegistered (x : Step) (r : Ref .registry) : Bool :=
  (x.action.sender? x.before).any (x.before.registry r).contains

/-- If a raw frame reaches the encoder in a run, the first one comes from a source that is registered at that
moment. -/
def Session.firstIsRegistered (s : Session) (e : Ref .encoder) (r : Ref .registry) (actions : List Action) :
    Bool :=
  ((s.steps actions).find? fun x => x.feeds e).all fun x => x.fromRegistered r

/-- The action leaves the encoder to its pipeline. -/
def Action.Spares (e : Ref .encoder) : Action → Prop
  | call e' _ | dropEncoder e' | addPipeline e' _ _ => e' ≠ e
  | _ => True

/-! ### Raw frames on twins -/

namespace Twins

variable {e : Ref .encoder} {r : Ref .registry} {undecided : Bool} {s t : Session}

theorem source? (h : Twins e r undecided s t) (id : RoutingId) : t.source? id = s.source? id := by
  obtain ⟨_, rfl, -⟩ := h.twin
  rfl

/-- What has not reached the encoder leaves open what it decides. -/
theorem unreached {reached : Bool} (hreached : reached = false) (h : Twins e r undecided s t) :
    Twins e r (undecided && !reached) s t := by
  rw [hreached, Bool.not_false, Bool.and_true]
  exact h

theorem feed (p : Ref .pipeline) {raw : RawFrame} (h : Twins e r undecided s t)
    (hraw : undecided = true → s.drives e (.pipeline p) = true → s.isRegistered r raw = true) :
    Twins e r (undecided && !s.drives e (.pipeline p)) (s.feed p raw) (t.feed p raw) := by
  unfold Session.feed
  rw [h.pipeline?]
  cases hp : s.pipeline? p with
  | none =>
    have hnot : s.drives e (.pipeline p) = false := by simp only [Session.drives, hp]; rfl
    exact h.unreached hnot
  | some x =>
    set f : Pipeline → Pipeline := fun x =>
      { x with keyframePending := false, stats := { x.stats with pulls := x.stats.pulls + 1 } }
    have hcounted : Twins e r undecided (s.modifyPipeline p f) (t.modifyPipeline p f) :=
      h.of_blind_change (f := fun s => s.modifyPipeline p f) fun _ _ => rfl
    have hdrives : s.drives e (.pipeline p) = decide (x.encoder = e) := by simp only [Session.drives, hp]; rfl
    dsimp only
    by_cases hx : x.encoder = e
    · rw [hdrives, decide_eq_true hx, Bool.not_true, Bool.and_false, hx]
      have hreg : undecided = true → s.isRegistered r raw = true := fun hu =>
        hraw hu (hdrives.trans (decide_eq_true hx))
      set timed : RawFrame := { raw with rtp := raw.timestamp.map rtpOfMicros }
      have htimed : undecided = true → (s.modifyPipeline p f).isRegistered r timed = true := hreg
      obtain ⟨hresult, hpulled⟩ := hcounted.pull [x.nextType] htimed
      rw [← hresult]
      exact hpulled.of_blind_change (blind_tally p _)
    · have hnot : s.drives e (.pipeline p) = false := hdrives.trans (decide_eq_false hx)
      obtain ⟨hresult, hpulled⟩ := hcounted.call_other hx
        (.pull { raw with rtp := raw.timestamp.map rtpOfMicros } [x.nextType])
      rw [← hresult]
      exact (hpulled.of_blind_change (blind_tally p _)).unreached hnot

theorem deliver (tap : Tap) {raw : RawFrame} (h : Twins e r undecided s t)
    (hraw : undecided = true → s.drives e tap = true → s.isRegistered r raw = true) :
    Twins e r (undecided && !s.drives e tap) (s.deliver raw tap) (t.deliver raw tap) := by
  cases tap with
  | pipeline p => exact h.feed p hraw
  | recorder q =>
    have hgiven : Twins e r undecided (s.deliver raw (.recorder q)) (t.deliver raw (.recorder q)) :=
      h.of_blind_change (f := fun s => s.deliver raw (.recorder q)) fun _ _ => rfl
    exact hgiven.unreached rfl

/-- **A raw frame that is handed to taps**: when it has reached the encoder, the lazy encoder has decided. -/
theorem deliverAll (taps : List Tap) {raw : RawFrame} (h : Twins e r undecided s t)
    (hraw : undecided = true → taps.any (s.drives e) = true → s.isRegistered r raw = true) :
    Twins e r (undecided && !taps.any (s.drives e)) (s.deliverAll raw taps) (t.deliverAll raw taps) := by
  induction taps generalizing s t undecided with
  | nil =>
    rw [List.any_nil, Bool.not_false, Bool.and_true]
    exact h
  | cons tap rest ih =>
    have hfirst : Twins e r (undecided && !s.drives e tap) (s.deliver raw tap) (t.deliver raw tap) := by
      refine h.deliver tap fun hu hd => hraw hu ?_
      rw [List.any_cons, hd, Bool.true_or]
    have hsteady := Steady.carried.deliver s raw tap
    have hdrives := Session.drives_of_steady hsteady e
    have hreg : (s.deliver raw tap).isRegistered r raw = s.isRegistered r raw := by
      simp only [Session.isRegistered, Session.registry, hsteady.registries]
    have hrest := ih hfirst fun hu hd => by
      rw [Bool.and_eq_true] at hu
      rw [hdrives] at hd
      rw [hreg]
      refine hraw hu.1 ?_
      rw [List.any_cons, hd, Bool.or_true]
    rw [hdrives, Bool.and_assoc, ← Bool.not_or, ← List.any_cons] at hrest
    exact hrest

theorem pushRaw (id : RoutingId) (picture : Picture) (stamp : Stamped Int64) (h : Twins e r undecided s t)
    (hraw : undecided = true → s.hears e id = true → (s.registry r).contains id = true) :
    Twins e r (undecided && !s.hears e id) (s.pushRaw id picture stamp) (t.pushRaw id picture stamp) := by
  unfold Session.pushRaw
  rw [h.source?]
  cases hs : s.source? id with
  | none =>
    have hnot : s.hears e id = false := by simp only [Session.hears, hs]; rfl
    exact h.unreached hnot
  | some src =>
    dsimp only
    cases hended : src.pump.ended with
    | true =>
      have hnot : s.hears e id = false := by
        simp only [Session.hears, hs, Option.any_some, hended, Bool.not_true, Bool.false_and]
      exact h.unreached hnot
    | false =>
      have hhears : s.hears e id = (src.pump.taps.map Prod.snd).any (s.drives e) := by
        simp only [Session.hears, hs, Option.any_some, hended, Bool.not_false, Bool.true_and]
      rw [hhears] at hraw ⊢
      exact h.deliverAll _ hraw

theorem emit (id : RoutingId) (capture now : Int64) (h : Twins e r undecided s t)
    (hraw : undecided = true → s.hears e id = true → (s.registry r).contains id = true) :
    (s.emit id capture now).1 = (t.emit id capture now).1 ∧
      Twins e r (undecided && !s.hears e id) (s.emit id capture now).2 (t.emit id capture now).2 := by
  unfold Session.emit
  rw [h.source?]
  cases hs : s.source? id with
  | none =>
    have hnot : s.hears e id = false := by simp only [Session.hears, hs]; rfl
    exact ⟨rfl, h.unreached hnot⟩
  | some src =>
    set pump := (src.pump.stamp capture now).2
    have hstamped : Twins e r undecided (s.modifyPump id fun _ => pump) (t.modifyPump id fun _ => pump) :=
      h.of_blind_change (f := fun s => s.modifyPump id fun _ => pump) fun _ _ => rfl
    have hsource : (s.modifyPump id fun _ => pump).source? id = some { src with pump := pump } := by
      rw [Session.modifyPump, Session.source?_modifySource, if_pos rfl, hs, Option.map_some]
    have hsteady : Steady s (s.modifyPump id fun _ => pump) := .of_pipelines_eq rfl rfl
    have hhears := Session.hears_of_steady hsteady e hs hsource rfl rfl
    rw [← hhears] at hraw ⊢
    exact ⟨rfl, hstamped.pushRaw id _ _ hraw⟩

theorem push (id : RoutingId) (f : EncodedFrame) (now : Int64) (h : Twins e r undecided s t)
    (hraw : undecided = true → (!s.isClosed id && s.hears e id) = true → (s.registry r).contains id = true) :
    (s.push id f now).1 = (t.push id f now).1 ∧
      Twins e r (undecided && !(!s.isClosed id && s.hears e id)) (s.push id f now).2 (t.push id f now).2 := by
  unfold Session.push
  rw [h.source?]
  cases hs : s.source? id with
  | none =>
    have hnot : s.hears e id = false := by simp only [Session.hears, hs]; rfl
    refine ⟨rfl, h.unreached ?_⟩
    rw [hnot, Bool.and_false]
  | some src =>
    have hclosed : s.isClosed id = src.closed := by simp only [Session.isClosed, hs, Option.any_some]
    rw [hclosed] at hraw ⊢
    dsimp only
    cases hc : src.closed with
    | true => exact ⟨rfl, h.unreached rfl⟩
    | false =>
      rw [hc] at hraw
      rw [Bool.not_false, Bool.true_and] at hraw ⊢
      set g : Session → Session := fun s => (s.modifySource id fun src => src.enqueue f).note (.pushed id f)
      have hqueued : Twins e r undecided (g s) (g t) := h.of_blind_change fun _ _ => rfl
      have hchecked := hqueued.of_blind_change (blind_checkDepth id)
      -- the raw frame that now goes out reaches whom it would have reached before
      have hin : (g s).source? id = some (src.enqueue f) := by
        show (s.modifySource id fun src => src.enqueue f).source? id = _
        rw [Session.source?_modifySource, if_pos rfl, hs, Option.map_some]
      have hsource : ((g s).checkDepth id).source? id = some (src.enqueue f) := by
        unfold Session.checkDepth
        rw [hin]
        dsimp only
        split <;> exact hin
      have hqueue : Steady s (g s) := .of_pipelines_eq rfl rfl
      have hhears := Session.hears_of_steady (hqueue.trans (Steady.carried.checkDepth (g s) id)) e hs hsource
        rfl rfl
      have hregistry : ((g s).checkDepth id).registry r = s.registry r := by
        simp only [Session.registry, (Steady.carried.checkDepth (g s) id).registries]
        rfl
      rw [← hhears, ← hregistry] at hraw
      rw [← hhears]
      exact ⟨rfl, (hchecked.emit id f.captureUs now hraw).2⟩

/-- An action that hands out no raw frame. -/
theorem perform_of_silent {a : Action} (ha : a.sender? s = none)
    (h : (s.perform a).1 = (t.perform a).1 ∧ Twins e r undecided (s.perform a).2 (t.perform a).2) :
    (s.perform a).1 = (t.perform a).1 ∧
      Twins e r (undecided && !Step.feeds ⟨s, a⟩ e) (s.perform a).2 (t.perform a).2 := by
  have hnot : Step.feeds ⟨s, a⟩ e = false := by simp only [Step.feeds, ha]; rfl
  exact ⟨h.1, h.2.unreached hnot⟩

theorem perform_push (id : RoutingId) (f : EncodedFrame) (now : Int64) (h : Twins e r undecided s t)
    (hraw : undecided = true → Step.feeds ⟨s, .push id f now⟩ e = true →
      Step.fromRegistered ⟨s, .push id f now⟩ r = true) :
    (s.push id f now).1 = (t.push id f now).1 ∧
      Twins e r (undecided && !Step.feeds ⟨s, .push id f now⟩ e) (s.push id f now).2 (t.push id f now).2 := by
  have hfeeds : Step.feeds ⟨s, .push id f now⟩ e = (!s.isClosed id && s.hears e id) := by
    show Option.any (s.hears e) (if s.isClosed id = true then none else some id) = _
    cases s.isClosed id <;> rfl
  rw [hfeeds] at hraw ⊢
  refine h.push id f now fun hu hh => ?_
  have hopen : s.isClosed id = false := by
    rw [Bool.and_eq_true, Bool.not_eq_true'] at hh
    exact hh.1
  have hregistered : Option.any (s.registry r).contains (if s.isClosed id = true then none else some id) = true :=
    hraw hu hh
  rw [hopen] at hregistered
  exact hregistered

/-- **One action on twins.** -/
theorem perform (a : Action) (ha : a.Spares e) (h : Twins e r undecided s t)
    (hraw : undecided = true → Step.feeds ⟨s, a⟩ e = true → Step.fromRegistered ⟨s, a⟩ r = true) :
    (s.perform a).1 = (t.perform a).1 ∧
      Twins e r (undecided && !Step.feeds ⟨s, a⟩ e) (s.perform a).2 (t.perform a).2 := by
  have hblind {a : Action} (hb : Blind fun s => s.perform a) := h.of_blind hb
  cases a with
  | addRegistry | addOutput | addFallback | addRecorder | addObserver | unregister | addHandle
  | consumeKeyframeRequest | watch | addTap | removeTap | attach | wantKeyframe | collect | subscribe
  | unsubscribe | receive | dropOutput => exact perform_of_silent rfl (hblind fun _ _ => rfl)
  | addSource r' c =>
    exact perform_of_silent rfl (hblind fun s x =>
      congrArg (fun y => (Reply.made y.1.number, y.2)) (blind_addSource r' c s x))
  | register r' id source =>
    exact perform_of_silent rfl (hblind fun s x =>
      congrArg (fun y => (Reply.was y.1, y.2)) (blind_register r' id source s x))
  | dropHandle id =>
    exact perform_of_silent rfl (hblind fun s x => congrArg (Prod.mk Reply.done) (blind_dropHandle id s x))
  | take id =>
    exact perform_of_silent rfl (hblind fun s x =>
      congrArg (fun y => (Reply.frame y.1, y.2)) (s.take_withEncoders x id))
  | requestKeyframe id =>
    exact perform_of_silent rfl (hblind fun s x =>
      congrArg (Prod.mk Reply.done) (s.requestKeyframe_withEncoders x id))
  | detach p =>
    exact perform_of_silent rfl (hblind fun s x => congrArg (Prod.mk Reply.done) (blind_detach p s x))
  | addEncoder x =>
    obtain ⟨hmade, hnext⟩ := h.addEncoder x
    exact perform_of_silent rfl ⟨congrArg (fun y : Ref .encoder => Reply.made y.number) hmade, hnext⟩
  | addPipeline e' settings o =>
    obtain ⟨hmade, hnext⟩ := h.addPipeline ha settings o
    exact perform_of_silent rfl ⟨congrArg Reply.pipeline hmade, hnext⟩
  | call e' c =>
    obtain ⟨hresult, hnext⟩ := h.call_other ha c
    exact perform_of_silent rfl ⟨congrArg Reply.outcome hresult, hnext⟩
  | dropEncoder e' => exact perform_of_silent rfl ⟨rfl, h.dropEncoder ha⟩
  | hintRate p hint => exact perform_of_silent rfl ⟨rfl, h.hintRate p hint⟩
  | dropPipeline p => exact perform_of_silent rfl ⟨rfl, h.dropPipeline p⟩
  | emit id capture now =>
    obtain ⟨hstamp, hnext⟩ := h.emit id capture now hraw
    exact ⟨congrArg Reply.stamp hstamp, hnext⟩
  | pushRaw id picture stamp => exact ⟨rfl, h.pushRaw id picture stamp hraw⟩
  | push id f now =>
    obtain ⟨haccepted, hnext⟩ := h.perform_push id f now hraw
    exact ⟨congrArg Reply.accepted haccepted, hnext⟩
  | capture id tags payload now =>
    by_cases hp : payload = []
    · have hempty (s : Session) : s.perform (.capture id tags payload now)
          = (.accepted false, s.warn (.emptyFrame id)) := by
        rw [Session.perform, Session.capture, EncodedFrame.make, dif_pos hp]
      have hsilent : (Action.capture id tags payload now).sender? s = none := by
        rw [Action.sender?, if_pos (.inl hp)]
      refine perform_of_silent hsilent ?_
      rw [hempty, hempty]
      exact ⟨rfl, h.of_blind_change (f := fun s => s.warn (.emptyFrame id)) fun _ _ => rfl⟩
    · set frame : EncodedFrame := { tags with payload := payload, payload_ne := hp }
      have hpush (s : Session) : s.perform (.capture id tags payload now)
          = (.accepted (s.push id frame now).1, (s.push id frame now).2) := by
        rw [Session.perform, Session.capture, EncodedFrame.make, dif_neg hp]
      have hsender : (Action.capture id tags payload now).sender? s
          = (Action.push id frame now).sender? s := by
        simp only [Action.sender?, hp, false_or]
      unfold Step.feeds Step.fromRegistered at hraw
      unfold Step.feeds
      rw [hsender] at hraw ⊢
      obtain ⟨haccepted, hnext⟩ := h.perform_push id frame now hraw
      rw [hpush, hpush]
      exact ⟨congrArg Reply.accepted haccepted, hnext⟩

theorem journal (h : Twins e r undecided s t) : t.journal = s.journal := by
  obtain ⟨_, rfl, -⟩ := h.twin
  rfl

/-- **A run of twins.** -/
theorem run (actions : List Action) (hspares : ∀ a ∈ actions, a.Spares e) (h : Twins e r undecided s t)
    (hfirst : undecided = true → s.firstIsRegistered e r actions = true) :
    (s.steps actions).map (fun x => (x.reply, x.events)) = (t.steps actions).map (fun x => (x.reply, x.events)) ∧
      ∃ after, Twins e r after (s.run actions) (t.run actions) := by
  induction actions generalizing s t undecided with
  | nil => exact ⟨rfl, undecided, h⟩
  | cons a rest ih =>
    obtain ⟨ha, hrest⟩ := List.forall_mem_cons.mp hspares
    have hraw : undecided = true → Step.feeds ⟨s, a⟩ e = true → Step.fromRegistered ⟨s, a⟩ r = true := by
      intro hu hfeeds
      have hfound := hfirst hu
      simp only [Session.firstIsRegistered, Session.steps, List.find?_cons, hfeeds, Option.all_some] at hfound
      exact hfound
    obtain ⟨hreply, hnext⟩ := h.perform a ha hraw
    obtain ⟨hsteps, hrun⟩ := ih hrest hnext fun hu => by
      rw [Bool.and_eq_true, Bool.not_eq_true'] at hu
      have hfound := hfirst hu.1
      simp only [Session.firstIsRegistered, Session.steps, List.find?_cons, hu.2] at hfound
      exact hfound
    refine ⟨?_, hrun⟩
    have hevents : Step.events ⟨s, a⟩ = Step.events ⟨t, a⟩ := by
      simp only [Step.events, Session.eventsSince, Step.after, hnext.journal, h.journal]
    have hreply : Step.reply ⟨s, a⟩ = Step.reply ⟨t, a⟩ := hreply
    rw [Session.steps, Session.steps, List.map_cons, List.map_cons, hsteps, hreply, hevents]

end Twins

/-! ### Pipelines around new encoders -/

theorem Passthrough.init_of_valid {p : Passthrough} {settings : Settings} (hw : settings.width ≠ 0)
    (hh : settings.height ≠ 0) (hc : settings.codec = p.codec) : ∃ q, p.init settings = .ok q := by
  unfold init
  rw [if_neg (by simp [hw, hh]), if_neg (by simp [hc])]
  exact ⟨_, rfl⟩

namespace Session

/-- Make a pipeline around a new encoder. -/
def pipelineAround (s : Session) (x : Encoder) (settings : Settings) (o : Ref .output) :
    Except Error (Ref .pipeline) × Session :=
  (s.addEncoder x).2.addPipeline (s.addEncoder x).1 settings o

/-- A pipeline around a new encoder that becomes `y` when it is initialised and then `z` when it is connected. -/
theorem pipelineAround_of_calls {s : Session} {x y z : Encoder} {settings : Settings} {o : Ref .output}
    (hinit : ∀ (t : Session) (e : Ref .encoder), t.encoder? e = some x →
      t.call e (.init settings) = (.ok .noOutput, t.setEncoder e y))
    (hconnect : ∀ (t : Session) (e : Ref .encoder), t.encoder? e = some y →
      t.call e (.connect ⟨o, some ⟨s.pipelines.next⟩⟩) = (.ok .noOutput, t.setEncoder e z)) :
    s.pipelineAround x settings o = (.ok ⟨s.pipelines.next⟩,
      { (s.addEncoder x).2.setEncoder ⟨s.encoders.next⟩ z with
        pipelines := s.pipelines.add { encoder := ⟨s.encoders.next⟩ } }) := by
  have hx := s.encoder?_addEncoder_self x
  have hy : ((s.addEncoder x).2.setEncoder (s.addEncoder x).1 y).encoder? (s.addEncoder x).1 = some y := by
    rw [encoder?_setEncoder, if_pos rfl, hx, Option.map_some]
  have hnext : (s.addEncoder x).2.pipelines.next = s.pipelines.next := rfl
  rw [pipelineAround, addPipeline, hinit _ _ hx]
  dsimp only
  rw [hnext, hconnect _ _ hy]
  simp only [setEncoder, Table.modify_modify]
  rfl

end Session

/-- **Pipelines around a new lazy encoder and around a new passthrough encoder** make twins. -/
theorem twins_pipelineAround {l : Lazy} {settings : Settings} {q : Passthrough} (hchosen : l.chosen = none)
    (hrate : l.rate = none) (hq : l.passthrough.init settings = .ok q) (s : Session) (o : Ref .output) :
    (s.pipelineAround (.lazy l) settings o).1 = .ok ⟨s.pipelines.next⟩ ∧
      (s.pipelineAround (.passthrough l.passthrough) settings o).1 = .ok ⟨s.pipelines.next⟩ ∧
      Twins ⟨s.encoders.next⟩ l.registry true (s.pipelineAround (.lazy l) settings o).2
        (s.pipelineAround (.passthrough l.passthrough) settings o).2 := by
  set d : Destination := ⟨o, some ⟨s.pipelines.next⟩⟩ with hd
  set kept : Lazy := { l with settings := some settings, destination := some d } with hkept
  have hlazy : s.pipelineAround (.lazy l) settings o = _ :=
    Session.pipelineAround_of_calls (y := .lazy { l with settings := some settings }) (z := .lazy kept)
      (fun t e ht => by simp only [Session.call, ht, Session.callLazy, Session.forward, hchosen])
      (fun t e ht => by simp only [Session.call, ht, Session.callLazy, Session.forward, hchosen, hkept, hd])
  have hrouted : s.pipelineAround (.passthrough l.passthrough) settings o = _ :=
    Session.pipelineAround_of_calls (y := .passthrough q) (z := .passthrough (q.connect d))
      (fun t e ht => by simp only [Session.call, ht, Session.callPassthrough, hq])
      (fun t e ht => by simp only [Session.call, ht, Session.callPassthrough, hd])
  rw [hlazy, hrouted]
  refine ⟨rfl, rfl, ?_, q.connect d, ?_, fun x hx => ?_⟩
  · simp only [Session.setEncoder, Session.addEncoder, Table.next_modify, Table.next_add]
    exact Nat.lt_succ_self _
  · simp only [Session.setEncoder, Session.addEncoder, Table.modify_add_next]
  · have hget : x = .lazy kept := by
      simp only [Session.encoder?, Session.setEncoder, Session.addEncoder, Table.get?_modify, Table.get?_add,
        if_true, Option.map_some, Option.some.injEq] at hx
      exact hx.symm
    refine ⟨kept, hget, rfl, rfl, .inr ⟨rfl, hchosen, rfl, settings, d, q, rfl, rfl, hq, ?_⟩⟩
    rw [hkept, hrate]
    rfl

/-- **A lazy encoder in a pipeline is transparent.**  Make a pipeline around a new lazy encoder, and in the same
session one around a passthrough encoder routed through the registry, with valid settings.  If the first raw
frame that reaches the encoder comes from a source registered at that moment, every step of a run gives the
same reply and the same events, and in the end only the encoder itself is not the same: sources with their
queues, outputs with what they hold and pipelines with what they counted are. -/
theorem lazy_transparent {format : SdpFormat} {registry : Ref .registry} {fallback : Ref .fallback}
    {config : EncoderConfig} {l : Lazy} (hmake : Lazy.make format registry fallback config = .ok l)
    {settings : Settings} (hwidth : settings.width ≠ 0) (hheight : settings.height ≠ 0)
    (hcodec : settings.codec = l.codec) (s : Session) (o : Ref .output) (actions : List Action)
    (hspares : ∀ a ∈ actions, a.Spares ⟨s.encoders.next⟩)
    (hfirst : (s.pipelineAround (.lazy l) settings o).2.firstIsRegistered ⟨s.encoders.next⟩ registry actions
      = true) :
    ∃ x y : Session,
      s.pipelineAround (.lazy l) settings o = (.ok ⟨s.pipelines.next⟩, x) ∧
      s.pipelineAround (.passthrough (.make (.routed registry) l.codec config none)) settings o
        = (.ok ⟨s.pipelines.next⟩, y) ∧
      (x.steps actions).map (fun z => (z.reply, z.events)) = (y.steps actions).map (fun z => (z.reply, z.events)) ∧
      (x.run actions).dropEncoder ⟨s.encoders.next⟩ = (y.run actions).dropEncoder ⟨s.encoders.next⟩ := by
  obtain ⟨codec, -, hl⟩ := Lazy.make_ok hmake
  have hchosen : l.chosen = none := by rw [hl]
  have hrate : l.rate = none := by rw [hl]
  have hregistry : l.registry = registry := by rw [hl]
  have hpass : l.passthrough = .make (.routed registry) l.codec config none := by rw [hl]; rfl
  obtain ⟨q, hq⟩ : ∃ q, l.passthrough.init settings = .ok q :=
    Passthrough.init_of_valid hwidth hheight hcodec
  obtain ⟨hlazy, hrouted, htwins⟩ := twins_pipelineAround hchosen hrate hq s o
  rw [hregistry] at htwins
  obtain ⟨hsteps, _, hafter⟩ := htwins.run actions hspares fun _ => hfirst
  rw [← hpass]
  exact ⟨_, _, Prod.ext hlazy rfl, Prod.ext hrouted rfl, hsteps, hafter.dropEncoder_self⟩

/-- Two sources, an output that refuses the second image it is offered, and a fallback that lets everything
succeed. -/
def twoSources : Session :=
  ({} : Session).run [.addRegistry, .addOutput (.guarded (fun n => if n = 1 then some .closed else none) 0),
    .addSource ⟨1⟩ {}, .addSource ⟨1⟩ {},
    .addFallback ⟨Lazy.undecidedCapabilities, false, fun _ _ => .ok .emitted, #[], #[]⟩]

/-- The pipeline is paused at first, so that the first frame has to wait; later a source goes away. -/
def pausedAtFirst : List Action :=
  [.attach ⟨1⟩ ⟨1⟩, .attach ⟨1⟩ ⟨2⟩, .hintRate ⟨1⟩ ⟨0⟩,
    .capture ⟨1⟩ { width := 640, height := 480, isKey := true } [0x65] 1, .hintRate ⟨1⟩ ⟨500⟩, .wantKeyframe ⟨1⟩,
    .capture ⟨2⟩ { width := 640, height := 480, isKey := true } [0x65] 2,
    .capture ⟨1⟩ { width := 640, height := 480 } [0x41] 3, .dropHandle ⟨1⟩,
    .capture ⟨2⟩ { width := 640, height := 480 } [0x41] 4, .detach ⟨1⟩]

theorem lazy_transparent_pausedAtFirst :
    Lazy.make (.forCodec .h264 .nonInterleaved) ⟨1⟩ ⟨1⟩ {} = .ok newLazy ∧
    (∀ a ∈ pausedAtFirst, a.Spares ⟨1⟩) ∧
    ∃ x y : Session,
      twoSources.pipelineAround (.lazy newLazy) ⟨.h264, 640, 480, 30, []⟩ ⟨1⟩ = (.ok ⟨1⟩, x) ∧
      x.firstIsRegistered ⟨1⟩ ⟨1⟩ pausedAtFirst = true ∧
      (x.steps pausedAtFirst).map (fun z => (z.feeds ⟨1⟩, (presentedTo ⟨1⟩ z.events).length))
        = [(false, 0), (false, 0), (false, 0), (true, 0), (false, 0), (false, 0), (true, 1), (true, 1), (false, 0),
          (true, 1), (false, 0)] ∧
      (x.steps pausedAtFirst).map (fun z => (z.reply, z.events))
        = (y.steps pausedAtFirst).map (fun z => (z.reply, z.events)) ∧
      (x.run pausedAtFirst).dropEncoder ⟨1⟩ = (y.run pausedAtFirst).dropEncoder ⟨1⟩ := by
  have hspares : ∀ a ∈ pausedAtFirst, a.Spares ⟨1⟩ := by
    simp [pausedAtFirst, Action.Spares]
  have hfirst : (twoSources.pipelineAround (.lazy newLazy) ⟨.h264, 640, 480, 30, []⟩ ⟨1⟩).2.firstIsRegistered
      ⟨1⟩ ⟨1⟩ pausedAtFirst = true := by decide +kernel
  have hwidth : (⟨.h264, 640, 480, 30, []⟩ : Settings).width ≠ 0 := by decide
  have hheight : (⟨.h264, 640, 480, 30, []⟩ : Settings).height ≠ 0 := by decide
  obtain ⟨x, y, hx, -, hsteps, hafter⟩ :=
    lazy_transparent make_newLazy hwidth hheight rfl twoSources ⟨1⟩ pausedAtFirst hspares hfirst
  have hmade : x = (twoSources.pipelineAround (.lazy newLazy) ⟨.h264, 640, 480, 30, []⟩ ⟨1⟩).2 := by rw [hx]
  refine ⟨make_newLazy, hspares, x, y, hx, ?_, ?_, hsteps, hafter⟩
  · rw [hmade]
    exact hfirst
  · rw [hmade]
    decide +kernel

end EncodedFeed
