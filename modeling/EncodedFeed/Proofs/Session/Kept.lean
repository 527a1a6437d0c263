import EncodedFeed.Proofs.Session.Lookup

/-!
# Relations that calls keep

Calls to encoders, raw frames and pipelines change a session in a few elementary ways only.  A relation
between a session and a later one that is a preorder and holds across each of the changes behind a call
is `Kept`, and holds across every call; `KeptAt` asks this of images for some destinations only, and holds
across calls to encoders that are connected to these.  A relation that holds across whole calls and the
changes around them is `Carried`: it holds across every raw frame that reaches its taps and across what
pipelines do, however deep one sets off another.  Much of that holds of a relation that minds stamps, too
(`CarriedUnstamped`).
-/

namespace EncodedFeed

/-! ### Where encoders put images -/

/-- The encoder is connected, if at all, to a destination in `D`. -/
def Passthrough.Within (p : Passthrough) (D : Destination → Prop) : Prop := ∀ d, p.destination = some d → D d

/-- The call does not connect an encoder to anything outside of `D`. -/
def Call.Within (c : Call) (D : Destination → Prop) : Prop := ∀ d, c = .connect d → D d

/-- A lazy encoder and the encoder it has chosen are connected, if at all, to destinations in `D`. -/
structure Lazy.Within (l : Lazy) (D : Destination → Prop) : Prop where
  own : ∀ d, l.destination = some d → D d
  chosen : ∀ p, l.chosen = some (.passthrough p) → p.Within D

/-- The encoder is connected to destinations in `D` only. -/
def Encoder.Within : Encoder → (Destination → Prop) → Prop
  | passthrough p, D => p.Within D
  | lazy l, D => l.Within D

/-- The encoder a lazy one has chosen is connected, if at all, to a destination in `D`. -/
def Chosen.Within (chosen : Chosen) (D : Destination → Prop) : Prop :=
  ∀ p, chosen = .passthrough p → p.Within D

/-- A preorder of sessions that the elementary changes behind calls keep, as long as images go to
destinations in `D` only. -/
structure KeptAt (D : Destination → Prop) (R : Session → Session → Prop) : Prop where
  refl (s : Session) : R s s
  trans {s t u : Session} : R s t → R t u → R s u
  warn (s : Session) (w : Warning) : R s (s.warn w)
  ask (s : Session) (id : RoutingId) : R s (s.requestKeyframe id)
  passOn (s : Session) (p : Passthrough) {d : Destination} (hd : D d) (id : RoutingId) (raw : RawFrame) :
    R s (s.passOn p d id raw).2.2
  fallback (s : Session) (f : Ref .fallback) (g : Fallback → Fallback) :
    R s { s with fallbacks := s.fallbacks.modify f.number g }
  encoder (s : Session) (e : Ref .encoder) (x : Encoder) : R s (s.setEncoder e x)

namespace KeptAt

variable {D : Destination → Prop} {R : Session → Session → Prop} (h : KeptAt D R)
include h

/-! ### Calls to encoders -/

omit h in
theorem destination_passOn (s : Session) (p : Passthrough) (d : Destination) (id : RoutingId) (raw : RawFrame) :
    (s.passOn p d id raw).2.1.destination = p.destination := by
  unfold Session.passOn
  split
  · rfl
  · split <;> rfl

theorem pull (s : Session) {p : Passthrough} (hp : p.Within D) (raw : RawFrame) (types : List FrameType) :
    R s (s.pull p raw types).2.2 ∧ (s.pull p raw types).2.1.Within D := by
  unfold Session.pull
  split
  · exact ⟨h.refl s, hp⟩
  · exact ⟨h.refl s, hp⟩
  · next d _ hd =>
    split
    · exact ⟨h.warn s _, hp⟩
    · next id _ =>
      have hask : R s (if types.contains .key then s.requestKeyframe id else s) := by
        split
        · exact h.ask s id
        · exact h.refl s
      dsimp only
      split
      · refine ⟨h.trans hask (h.passOn _ p (hp d hd) id raw), fun d' hd' => hp d' ?_⟩
        rw [← hd', destination_passOn]
      · exact ⟨hask, hp⟩

theorem callPassthrough (s : Session) {p : Passthrough} (hp : p.Within D) {c : Call} (hc : c.Within D) :
    R s (s.callPassthrough p c).2.2 ∧ (s.callPassthrough p c).2.1.Within D := by
  cases c with
  | init settings =>
    unfold Session.callPassthrough
    dsimp only
    split
    · next q hq =>
      refine ⟨h.refl s, fun d hd => hp d ?_⟩
      unfold Passthrough.init at hq
      split at hq
      · cases hq
      · split at hq
        · cases hq
        · cases hq
          exact hd
    · exact ⟨h.refl s, hp⟩
  | connect d =>
    refine ⟨h.refl s, fun d' hd' => ?_⟩
    cases hd'
    exact hc d rfl
  | release =>
    refine ⟨h.refl s, fun d hd => ?_⟩
    simp only [Session.callPassthrough, Passthrough.release] at hd
    split at hd
    · exact hp d hd
    · cases hd
  | rate hint => exact ⟨h.refl s, hp⟩
  | pull raw types => exact h.pull s hp raw types

theorem callFallback (s : Session) (f : Ref .fallback) (c : Call) : R s (s.callFallback f c).2 :=
  h.fallback s f _

theorem callChosen (s : Session) (l : Lazy) {chosen : Chosen} (hp : chosen.Within D) {c : Call}
    (hc : c.Within D) :
    R s (s.callChosen l chosen c).2.2 ∧ (s.callChosen l chosen c).2.1.Within D := by
  cases chosen with
  | passthrough p =>
    obtain ⟨hr, hq⟩ := h.callPassthrough s (hp p rfl) hc
    refine ⟨hr, fun p' hp' => ?_⟩
    cases hp'
    exact hq
  | fallback => exact ⟨h.callFallback s l.fallback c, hp⟩

theorem callAll (l : Lazy) {calls : List Call} (hcalls : ∀ c ∈ calls, c.Within D) (s : Session)
    {chosen : Chosen} (hp : chosen.Within D) :
    R s (s.callAll l chosen calls).2.2 ∧ (s.callAll l chosen calls).2.1.Within D := by
  induction calls generalizing s chosen with
  | nil => exact ⟨h.refl s, hp⟩
  | cons c rest ih =>
    have hc := h.callChosen s l hp (hcalls c List.mem_cons_self)
    rw [Session.callAll]
    split
    · next heq =>
      rw [heq] at hc
      obtain ⟨hr, hw⟩ := ih (fun c' hc' => hcalls c' (List.mem_cons_of_mem _ hc')) (s := _) hc.2
      exact ⟨h.trans hc.1 hr, hw⟩
    · next heq =>
      rw [heq] at hc
      exact hc

omit h in
/-- What a lazy encoder has kept connects to its own destination only. -/
theorem within_kept {l : Lazy} (hl : l.Within D) : ∀ c ∈ l.kept, c.Within D := by
  rintro c hc d rfl
  simp only [Lazy.kept, List.mem_append, List.mem_map, Option.mem_toList] at hc
  rcases hc with (⟨_, _, hc⟩ | ⟨d', hd', hc⟩) | ⟨_, _, hc⟩
  · cases hc
  · cases hc
    exact hl.own d hd'
  · cases hc

theorem settle (s : Session) {l : Lazy} (hl : l.Within D) {chosen : Chosen} (hp : chosen.Within D) :
    R s (s.settle l chosen).2.2 ∧ (s.settle l chosen).2.1.Within D := by
  have hc := h.callAll l (within_kept hl) s hp
  unfold Session.settle
  split
  · next heq =>
    rw [heq] at hc
    refine ⟨hc.1, hl.own, fun p hp' => ?_⟩
    exact hc.2 p (Option.some.inj hp')
  · next heq =>
    rw [heq] at hc
    exact ⟨hc.1, hl⟩

theorem choose (s : Session) {l : Lazy} (hl : l.Within D) (raw : RawFrame) :
    R s (s.choose l raw).2.2 ∧ (s.choose l raw).2.1.Within D := by
  have hnew : (Chosen.passthrough l.passthrough).Within D := by
    rintro p hp d hd
    cases hp
    cases hd
  have hnone : Chosen.fallback.Within D := fun _ hp => by cases hp
  unfold Session.choose
  split
  · exact h.settle s (l := { l with mode := .passthrough }) ⟨hl.own, hl.chosen⟩ hnew
  · dsimp only
    split
    · obtain ⟨hr, hw⟩ := h.settle
        { s with fallbacks := s.fallbacks.modify l.fallback.number fun x => x.ask l.format }
        (l := { l with mode := .fallback }) ⟨hl.own, hl.chosen⟩ hnone
      exact ⟨h.trans (h.fallback s _ _) hr, hw⟩
    · exact ⟨h.fallback s _ _, hl.own, hl.chosen⟩

theorem forward (s : Session) {l : Lazy} (hl : l.Within D) {c : Call} (hc : c.Within D) :
    R s (s.forward l c).2.2 ∧ (s.forward l c).2.1.Within D := by
  unfold Session.forward
  split
  · exact ⟨h.refl s, hl⟩
  · next chosen hchosen =>
    have hin : chosen.Within D := by
      intro p hp
      apply hl.chosen p
      rw [hchosen, hp]
    obtain ⟨hr, hw⟩ := h.callChosen s l hin hc
    exact ⟨hr, hl.own, fun p hp => hw p (Option.some.inj hp)⟩

theorem pullLazy (s : Session) {l : Lazy} (hl : l.Within D) (raw : RawFrame) (types : List FrameType) :
    R s (s.pullLazy l raw types).2.2 ∧ (s.pullLazy l raw types).2.1.Within D := by
  have hpull : (Call.pull raw types).Within D := fun _ hd => by cases hd
  have hc := h.choose s hl raw
  unfold Session.pullLazy
  split
  · exact ⟨h.refl s, hl⟩
  · split
    · exact h.forward s hl hpull
    · split
      · next heq =>
        rw [heq] at hc
        obtain ⟨hr, hw⟩ := h.forward _ hc.2 hpull
        exact ⟨h.trans hc.1 hr, hw⟩
      · next heq =>
        rw [heq] at hc
        exact hc

theorem callLazy (s : Session) {l : Lazy} (hl : l.Within D) {c : Call} (hc : c.Within D) :
    R s (s.callLazy l c).2.2 ∧ (s.callLazy l c).2.1.Within D := by
  cases c with
  | init settings => exact h.forward s (l := { l with settings := some settings }) ⟨hl.own, hl.chosen⟩ hc
  | connect d =>
    refine h.forward s (l := { l with destination := some d }) ⟨fun d' hd' => ?_, hl.chosen⟩ hc
    cases hd'
    exact hc d rfl
  | rate hint => exact h.forward s (l := { l with rate := some hint }) ⟨hl.own, hl.chosen⟩ hc
  | release =>
    obtain ⟨hr, -⟩ := h.forward s hl hc
    have hreset : (s.forward l .release).2.1.reset.Within D :=
      ⟨fun _ hd => (nomatch hd), fun _ hp => (nomatch hp)⟩
    exact ⟨hr, hreset⟩
  | pull raw types => exact h.pullLazy s hl raw types

/-- A call to an encoder that is connected within `D`, and stays so. -/
theorem call (s : Session) {e : Ref .encoder} (he : ∀ x, s.encoder? e = some x → x.Within D) {c : Call}
    (hc : c.Within D) :
    R s (s.call e c).2 ∧ ∀ x, (s.call e c).2.encoder? e = some x → x.Within D := by
  have hset : ∀ {t : Session} {y : Encoder}, y.Within D → ∀ x, (t.setEncoder e y).encoder? e = some x →
      x.Within D := by
    intro t y hy x hx
    rw [Session.encoder?_setEncoder, if_pos rfl] at hx
    obtain ⟨_, _, rfl⟩ := Option.map_eq_some_iff.mp hx
    exact hy
  unfold Session.call
  split
  · exact ⟨h.refl s, he⟩
  · next p hp =>
    obtain ⟨hr, hw⟩ := h.callPassthrough s (p := p) (he _ hp) hc
    exact ⟨h.trans hr (h.encoder _ e _), hset hw⟩
  · next l hl =>
    obtain ⟨hr, hw⟩ := h.callLazy s (l := l) (he _ hl) hc
    exact ⟨h.trans hr (h.encoder _ e _), hset hw⟩

end KeptAt

/-- To pass a frame on is to take it, to present its image and maybe to give a warning. -/
theorem Session.passOn_of_parts {R : Session → Session → Prop}
    (trans : ∀ {s t u : Session}, R s t → R t u → R s u) (warn : ∀ (s : Session) (w : Warning), R s (s.warn w))
    (take : ∀ (s : Session) (id : RoutingId), R s (s.take id).2)
    (present : ∀ (s : Session) (d : Destination) (i : EmittedImage), R s (s.present d i).2)
    (s : Session) (p : Passthrough) (d : Destination) (id : RoutingId) (raw : RawFrame) :
    R s (s.passOn p d id raw).2.2 := by
  have htaken := take s id
  unfold Session.passOn
  split
  · next heq =>
    rw [heq] at htaken
    exact htaken
  · next f t heq =>
    rw [heq] at htaken
    have hpresented := trans htaken (present t d (p.image f raw))
    split
    · next heq' =>
      rw [heq'] at hpresented
      exact trans hpresented (warn _ _)
    · next heq' =>
      rw [heq'] at hpresented
      exact hpresented

/-- A preorder of sessions that the elementary changes behind calls keep, wherever images go. -/
structure Kept (R : Session → Session → Prop) : Prop where
  refl (s : Session) : R s s
  trans {s t u : Session} : R s t → R t u → R s u
  warn (s : Session) (w : Warning) : R s (s.warn w)
  ask (s : Session) (id : RoutingId) : R s (s.requestKeyframe id)
  passOn (s : Session) (p : Passthrough) (d : Destination) (id : RoutingId) (raw : RawFrame) :
    R s (s.passOn p d id raw).2.2
  fallback (s : Session) (f : Ref .fallback) (g : Fallback → Fallback) :
    R s { s with fallbacks := s.fallbacks.modify f.number g }
  encoder (s : Session) (e : Ref .encoder) (x : Encoder) : R s (s.setEncoder e x)

namespace Kept

variable {R : Session → Session → Prop} (h : Kept R)
include h

theorem keptAt (D : Destination → Prop) : KeptAt D R where
  refl := h.refl
  trans := h.trans
  warn := h.warn
  ask := h.ask
  passOn s p {d} _ id raw := h.passOn s p d id raw
  fallback := h.fallback
  encoder := h.encoder

theorem call (s : Session) (e : Ref .encoder) (c : Call) : R s (s.call e c).2 := by
  have hall : ∀ x : Encoder, x.Within fun _ => True := by
    intro x
    cases x with
    | passthrough p => exact fun _ _ => trivial
    | lazy l => exact ⟨fun _ _ => trivial, fun _ _ _ _ => trivial⟩
  exact ((h.keptAt _).call s (fun x _ => hall x) fun _ _ => trivial).1

end Kept

/-- A preorder of sessions that whole calls and the elementary changes around them keep, stamps excepted.  No
pipeline is ever given another encoder, and a pump gets other taps at most. -/
structure CarriedUnstamped (R : Session → Session → Prop) : Prop where
  refl (s : Session) : R s s
  trans {s t u : Session} : R s t → R t u → R s u
  warn (s : Session) (w : Warning) : R s (s.warn w)
  call (s : Session) (e : Ref .encoder) (c : Call) : R s (s.call e c).2
  drop (s : Session) (e : Ref .encoder) : R s (s.dropEncoder e)
  pipeline (s : Session) (p : Ref .pipeline) {f : Pipeline → Pipeline}
    (hf : ∀ x, (f x).encoder = x.encoder) : R s (s.modifyPipeline p f)
  recorder (s : Session) (r : Ref .recorder) (f : Array RawFrame → Array RawFrame) :
    R s { s with recorders := s.recorders.modify r.number f }
  taps (s : Session) (id : RoutingId) (f : Pump → Pump)
    (hf : ∀ p, (f p).ended = p.ended ∧ (f p).aligner = p.aligner) : R s (s.modifyPump id f)

/-- A preorder of sessions that whole calls and the elementary changes around them keep, stamps among them.  No
pump ends or comes back to life. -/
structure Carried (R : Session → Session → Prop) : Prop extends CarriedUnstamped R where
  pump (s : Session) (id : RoutingId) (f : Pump → Pump) (hf : ∀ p, (f p).ended = p.ended) :
    R s (s.modifyPump id f)
  taps s id f hf := pump s id f fun p => (hf p).1

namespace CarriedUnstamped

variable {R : Session → Session → Prop} (h : CarriedUnstamped R)
include h

/-! ### Raw frames -/

theorem tally (s : Session) (p : Ref .pipeline) (r : Except Error Outcome) : R s (s.tally p r) := by
  unfold Session.tally
  split
  · exact h.refl s
  · exact h.pipeline s p fun _ => rfl
  · refine h.trans (h.pipeline s p ?_) (h.warn _ _)
    exact fun _ => rfl

theorem feed (s : Session) (p : Ref .pipeline) (raw : RawFrame) : R s (s.feed p raw) := by
  unfold Session.feed
  split
  · exact h.refl s
  · next x _ =>
    dsimp only
    refine h.trans (h.trans ?_ (h.call _ x.encoder _)) (h.tally _ p _)
    exact h.pipeline s p fun _ => rfl

theorem deliver (s : Session) (raw : RawFrame) (tap : Tap) : R s (s.deliver raw tap) := by
  cases tap with
  | recorder r => exact h.recorder s r _
  | pipeline p => exact h.feed s p raw

theorem deliverAll (raw : RawFrame) (taps : List Tap) (s : Session) : R s (s.deliverAll raw taps) := by
  induction taps generalizing s with
  | nil => exact h.refl s
  | cons tap rest ih => exact h.trans (h.deliver s raw tap) (ih _)

theorem pushRaw (s : Session) (id : RoutingId) (picture : Picture) (t : Stamped Int64) :
    R s (s.pushRaw id picture t) := by
  unfold Session.pushRaw
  split
  · exact h.refl s
  · split
    · exact h.refl s
    · exact h.deliverAll _ _ s

theorem checkDepth (s : Session) (id : RoutingId) : R s (s.checkDepth id) := by
  unfold Session.checkDepth
  split
  · split
    · exact h.warn s _
    · exact h.refl s
  · exact h.refl s

/-! ### Pipelines -/

theorem removeTaps (taps : List (RoutingId × TapId)) (s : Session) :
    R s (taps.foldl (fun s a => (s.removeTap a.1 a.2).2) s) := by
  induction taps generalizing s with
  | nil => exact h.refl s
  | cons a rest ih => exact h.trans (h.taps s a.1 (fun p => p.removeTap a.2) fun _ => ⟨rfl, rfl⟩) (ih _)

theorem attach (s : Session) (p : Ref .pipeline) (id : RoutingId) : R s (s.attach p id).2 :=
  h.trans (h.taps s id (fun x => (x.addTap (.pipeline p)).2) fun _ => ⟨rfl, rfl⟩) (h.pipeline _ p fun _ => rfl)

theorem detach (s : Session) (p : Ref .pipeline) : R s (s.detach p) := by
  unfold Session.detach
  split
  · exact h.refl s
  · refine h.trans (h.pipeline s p ?_) (h.removeTaps _ _)
    exact fun _ => rfl

theorem hintRate (s : Session) (p : Ref .pipeline) (hint : RateHint) : R s (s.hintRate p hint) := by
  unfold Session.hintRate
  split
  · exact h.refl s
  · exact h.call s _ _

theorem checkRelease (s : Session) (r : Except Error Outcome) : R s (s.checkRelease r) := by
  unfold Session.checkRelease
  split
  · exact h.refl s
  · exact h.warn s _

/-- Making a pipeline, if one more is nothing to the relation. -/
theorem addPipeline (hadd : ∀ (s : Session) (x : Pipeline), R s { s with pipelines := s.pipelines.add x })
    (s : Session) (e : Ref .encoder) (settings : Settings) (o : Ref .output) :
    R s (s.addPipeline e settings o).2 := by
  have hinit := h.call s e (.init settings)
  unfold Session.addPipeline
  dsimp only
  split
  · next t heq =>
    rw [heq] at hinit
    exact h.trans hinit (h.drop t e)
  · next t heq =>
    rw [heq] at hinit
    have hconnect := h.call t e (.connect ⟨o, some ⟨s.pipelines.next⟩⟩)
    split
    · next u heq' =>
      rw [heq'] at hconnect
      exact h.trans hinit (h.trans hconnect (h.drop u e))
    · next u heq' =>
      rw [heq'] at hconnect
      exact h.trans hinit (h.trans hconnect (hadd u _))

/-- Letting go of a pipeline, if one less is nothing to the relation. -/
theorem dropPipeline
    (herase : ∀ (s : Session) (p : Ref .pipeline), R s { s with pipelines := s.pipelines.erase p.number })
    (s : Session) (p : Ref .pipeline) : R s (s.dropPipeline p) := by
  unfold Session.dropPipeline
  split
  · exact h.refl s
  · next x _ =>
    have hreleased := h.trans (h.detach s p) (h.call (s.detach p) x.encoder .release)
    have hdropped := h.trans (h.checkRelease _ ((s.detach p).call x.encoder .release).1)
      (h.drop (((s.detach p).call x.encoder .release).2.checkRelease _) x.encoder)
    exact h.trans (h.trans hreleased hdropped) (herase _ p)

end CarriedUnstamped

/-- A stamp is given, and the raw frame that carries it is handed out. -/
theorem Carried.emit {R : Session → Session → Prop} (h : Carried R) (s : Session)
    (id : RoutingId) (capture now : Int64) : R s (s.emit id capture now).2 := by
  unfold Session.emit
  split
  · exact h.refl s
  · next src hs =>
    dsimp only
    rw [Session.modifyPump_stamp hs]
    exact h.trans (h.pump s id (fun p => (p.stamp capture now).2) fun _ => rfl) (h.pushRaw _ id _ _)

end EncodedFeed
