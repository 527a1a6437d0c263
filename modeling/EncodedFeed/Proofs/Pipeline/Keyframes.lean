import EncodedFeed.Proofs.Pipeline.Pulls
import EncodedFeed.Proofs.Session.Asking
import EncodedFeed.Proofs.Session.Hushed

/-!
# Keyframe requests on their way

A pipeline that is asked for a keyframe passes the request on with the next raw frame that reaches it, and its
source keeps it until the application takes it.  Both are flags that one party raises and another lowers, so
what they say is read off the moments since they were last lowered (`raisedSince`).
-/

namespace EncodedFeed

/-- Since the last moment that lowers a flag there was one that raises it. -/
def raisedSince (raises lowers : Moment → Bool) (ms : List Moment) : Bool :=
  (ms.reverse.takeWhile fun m => !lowers m).any raises

theorem raisedSince_snoc (raises lowers : Moment → Bool) (ms : List Moment) (m : Moment) :
    raisedSince raises lowers (ms ++ [m]) = (!lowers m && (raises m || raisedSince raises lowers ms)) := by
  unfold raisedSince
  rw [List.reverse_append, List.reverse_singleton, List.singleton_append, List.takeWhile_cons]
  cases lowers m <;> simp

namespace Moment

/-- The source is asked for a keyframe. -/
def asks (m : Moment) (id : RoutingId) : Bool := (askedIn m.events).contains id

/-- The request noted by the source is taken. -/
def consumes (m : Moment) (id : RoutingId) : Bool := m.beat.consumes id

/-- A raw frame reaches only what is there. -/
theorem isSome_of_reaches {m : Moment} {p : Ref .pipeline} (h : m.reaches p = true) :
    (m.before.pipeline? p).isSome = true := by
  unfold reaches at h
  split at h
  · exact (Bool.and_eq_true_iff.mp h).2
  · cases h

/-- Whoever takes a request asks nobody. -/
theorem asks_of_consumes {m : Moment} {id : RoutingId} (h : m.consumes id = true) (i : RoutingId) :
    m.asks i = false := by
  have hjournal : m.after.journal = [].reverse ++ m.before.journal := by
    unfold consumes Beat.consumes at h
    split at h
    · next heq =>
      unfold after
      rw [heq]
      rfl
    · cases h
  have hevents : m.events = [] := Session.eventsSince_eq hjournal
  unfold asks
  rw [hevents]
  rfl

end Moment

/-- A raw frame that reaches the pipeline next will ask for a keyframe. -/
def wanted (p : Ref .pipeline) (past : List Moment) : Bool :=
  raisedSince (fun m => m.wants p) (fun m => m.reaches p) past

theorem wanted_snoc (p : Ref .pipeline) (past : List Moment) (m : Moment) :
    wanted p (past ++ [m]) = (!m.reaches p && (m.wants p || wanted p past)) := raisedSince_snoc ..

/-- A source has been asked for a keyframe since the request was last taken; `noted` is what it knew at first. -/
def requested (id : RoutingId) (noted : Bool) (past : List Moment) : Bool :=
  raisedSince (fun m => m.asks id) (fun m => m.consumes id) past
    || (noted && past.all fun m => !m.consumes id)

theorem requested_snoc (id : RoutingId) (noted : Bool) (past : List Moment) (m : Moment) :
    requested id noted (past ++ [m]) = ((requested id noted past && !m.consumes id) || m.asks id) := by
  unfold requested
  rw [raisedSince_snoc, List.all_append, List.all_cons, List.all_nil, Bool.and_true]
  cases hc : m.consumes id with
  | true => simp [Moment.asks_of_consumes hc]
  | false =>
    rw [Bool.not_false, Bool.and_true, Bool.and_true, Bool.true_and, Bool.or_assoc, Bool.or_comm]

namespace Session

variable {s t : Session} {p : Ref .pipeline} {e : Ref .encoder} {S : RoutingId} {o : Ref .output}

/-! ### The flag of the pipeline -/

/-- A pipeline at work knows whether a keyframe is wanted. -/
theorem pending_turn {b : Binding} {past : List Moment} {m : Moment} {x y : Pipeline} {q r : Passthrough}
    (h : x.keyframePending = wanted p past) (hturn : Turn m p b o x q y r) :
    y.keyframePending = wanted p (past ++ [m]) := by
  cases hturn with
  | pulled raw offer hreach _ =>
    rw [wanted_snoc, hreach]
    rfl
  | passed hreach _ hpending _ =>
    rw [hpending, h, wanted_snoc, hreach, Bool.not_false, Bool.true_and, Bool.or_comm]

/-- **A raw frame asks if a keyframe is wanted**, and then once. -/
theorem askedIn_of_reaches {past : List Moment} {m : Moment} {x : Pipeline} {q : Passthrough}
    (hworks : m.before.Works p e (.bound S) o x q) (h : x.keyframePending = wanted p past)
    (hreach : m.reaches p = true) : askedIn m.events = if wanted p past then [S] else [] := by
  obtain ⟨raw, offer, -, hoffers⟩ := hworks.reached hreach
  rw [hoffers.filterMap_events.2, h]
  rfl

/-! ### Who asks -/

/-- From `s` to `t` nobody is asked for a keyframe. -/
def Silent (s t : Session) : Prop := ∃ es, t.journal = es.reverse ++ s.journal ∧ askedIn es = []

namespace Silent

theorem of_eq (h : t.journal = s.journal) : Silent s t := ⟨[], h, rfl⟩

theorem warn (s : Session) (w : Warning) : Silent s (s.warn w) := ⟨[.warned w], rfl, rfl⟩

theorem trans {u : Session} (h : Silent s t) (h' : Silent t u) : Silent s u := by
  obtain ⟨es, hes, hnobody⟩ := h
  obtain ⟨es', hes', hnobody'⟩ := h'
  refine ⟨es ++ es', ?_, ?_⟩
  · rw [hes', hes, List.reverse_append, List.append_assoc]
  · rw [askedIn_append, hnobody, hnobody']
    rfl

end Silent

/-- Only pulls are noted in the journal. -/
theorem journal_call (s : Session) (e : Ref .encoder) {c : Call} (hc : ∀ raw types, c ≠ .pull raw types) :
    (s.call e c).2.journal = s.journal := by
  have hpassthrough : ∀ q : Passthrough, (s.callPassthrough q c).2.2 = s := by
    intro q
    cases c with
    | init settings =>
      unfold callPassthrough
      dsimp only
      cases q.init settings <;> rfl
    | connect | release | rate => rfl
    | pull raw types => exact absurd rfl (hc raw types)
  have hchosen : ∀ (l : Lazy) (chosen : Chosen), (s.callChosen l chosen c).2.2.journal = s.journal := by
    intro l chosen
    cases chosen with
    | passthrough q => exact congrArg Session.journal (hpassthrough q)
    | fallback => rfl
  have hforward : ∀ l : Lazy, (s.forward l c).2.2.journal = s.journal := by
    intro l
    unfold forward
    split
    · rfl
    · exact hchosen l _
  unfold call
  split
  · rfl
  · next q _ =>
    have hjournal := congrArg Session.journal (hpassthrough q)
    exact hjournal
  · next l _ =>
    cases c with
    | init settings => exact hforward { l with settings := some settings }
    | connect d => exact hforward { l with destination := some d }
    | rate hint => exact hforward { l with rate := some hint }
    | release => exact hforward l
    | pull raw types => exact absurd rfl (hc raw types)

/-- Making a pipeline asks nobody. -/
theorem silent_addPipeline (s : Session) (e : Ref .encoder) (settings : Settings) (o : Ref .output) :
    Silent s (s.addPipeline e settings o).2 := by
  have hinit := s.journal_call e (c := .init settings) fun _ _ => by simp
  have hconnect := (s.call e (.init settings)).2.journal_call e
    (c := .connect ⟨o, some ⟨s.pipelines.next⟩⟩) fun _ _ => by simp
  rcases s.addPipeline_cases e settings o with heq | heq | heq <;> rw [heq]
  · exact .of_eq hinit
  · exact .of_eq (hconnect.trans hinit)
  · exact .of_eq (hconnect.trans hinit)

theorem silent_detach (s : Session) (p : Ref .pipeline) : Silent s (s.detach p) := by
  have htaps : ∀ (taps : List (RoutingId × TapId)) (u : Session),
      (taps.foldl (fun s a => (s.removeTap a.1 a.2).2) u).journal = u.journal := by
    intro taps
    induction taps with
    | nil => exact fun _ => rfl
    | cons a rest ih => exact fun u => ih _
  unfold detach
  split
  · exact .of_eq rfl
  · exact .of_eq (htaps _ _)

theorem silent_dropPipeline (s : Session) (p : Ref .pipeline) : Silent s (s.dropPipeline p) := by
  unfold dropPipeline
  split
  · exact .of_eq rfl
  · next x _ =>
    have hrelease := (s.detach p).journal_call x.encoder (c := .release) fun _ _ => by simp
    have hchecked : ∀ (u : Session) (r : Except Error Outcome), Silent u (u.checkRelease r) := by
      intro u r
      cases r with
      | ok _ => exact .of_eq rfl
      | error _ => exact .warn u _
    dsimp only
    exact ((s.silent_detach p).trans (.of_eq hrelease)).trans ((hchecked _ _).trans (.of_eq rfl))

theorem silent_register (s : Session) (r : Ref .registry) (id source : RoutingId) :
    Silent s (s.register r id source).2 := by
  unfold register
  split
  · exact .warn s _
  · exact .of_eq rfl

end Session

/-- The beat may ask a source for a keyframe: a raw frame reaches a pipeline, or the application asks, or it
pulls an encoder. -/
def Beat.mayAsk : Beat → Bool
  | hand _ (.pipeline _) | act (.requestKeyframe _) | act (.call _ (.pull _ _)) => true
  | _ => false

namespace Session

/-- **Nothing else asks for keyframes.** -/
theorem silent_beat (s : Session) {b : Beat} (hb : b.Does fun _ => True) (hask : b.mayAsk = false) :
    Silent s (s.beat b) := by
  cases b with
  | warn w => exact .warn s w
  | enter id f =>
    have hentered : Silent s ((s.modifySource id fun src => src.enqueue f).note (.pushed id f)) :=
      ⟨[.pushed id f], rfl, rfl⟩
    have hchecked : ∀ u : Session, Silent u (u.checkDepth id) := by
      intro u
      unfold checkDepth
      split
      · split
        · exact .warn u _
        · exact .of_eq rfl
      · exact .of_eq rfl
    exact hentered.trans (hchecked _)
  | stamp id capture now => exact .of_eq rfl
  | hand raw tap =>
    cases tap with
    | recorder r => exact .of_eq rfl
    | pipeline p => cases hask
  | act a =>
    cases a with
    | addSource r c =>
      exact silent_register { s with sources := s.sources.add (Source.ofConfig c r) } r _ _
    | register r id source => exact s.silent_register r id source
    | dropHandle id =>
      simp only [beat, perform, dropHandle]
      split
      · exact .of_eq rfl
      · split <;> exact .of_eq rfl
    | take id =>
      simp only [beat, perform, take]
      split
      · exact .of_eq rfl
      · exact ⟨[.taken id _], rfl, rfl⟩
    | call e c =>
      apply Silent.of_eq
      apply s.journal_call e
      rintro raw types rfl
      cases hask
    | addPipeline e settings o => exact s.silent_addPipeline e settings o
    | detach p => exact s.silent_detach p
    | dropPipeline p => exact s.silent_dropPipeline p
    | hintRate p hint =>
      simp only [beat, perform, hintRate]
      split
      · exact .of_eq rfl
      · exact .of_eq (s.journal_call _ fun _ _ => by simp)
    | requestKeyframe id => cases hask
    | capture | push | emit | pushRaw => cases hb.1
    | _ => exact .of_eq rfl

/-! ### The flag of the source -/

theorem requested_step {noted : Bool} {past : List Moment} {m : Moment} {id : RoutingId} {src : Source}
    (h : m.before.source? id = some src) (hflag : src.keyframeRequested = requested id noted past)
    (hb : m.beat.Does fun _ => True) :
    ∃ src', m.after.source? id = some src' ∧ src'.keyframeRequested = requested id noted (past ++ [m]) := by
  obtain ⟨es, hes⟩ := m.before.heeds_beat hb
  obtain ⟨src', hsrc', hflag'⟩ := hes.source id src h
  have hevents : m.events = es := eventsSince_eq hes.journal
  refine ⟨src', hsrc', ?_⟩
  rw [hflag', hflag, requested_snoc, Moment.asks, hevents]
  rfl

end Session

open Session in
/-- **Keyframe requests are relayed, each once.**  A pipeline is made around a passthrough encoder that is bound to
a source and that no pipeline drives yet; from then on the application cannot get at the encoder.  Whatever it
does, a raw frame that reaches the pipeline asks the source for a keyframe if one has been wanted since the raw
frame before it, and else asks nobody; a direct request asks its source; and what is neither a raw frame for a
pipeline nor a request nor a pull of another encoder asks nobody.  Each time a source is asked its watcher of that
moment is told, once.  The source knows of a request exactly if it was asked since a request was last taken.  And
without the requests all would be the same but for their traces, in particular the images. -/
theorem keyframe_requests_relayed {before after : List Action} {e : Ref .encoder} {q₀ : Passthrough}
    {S : RoutingId} {settings : Settings} {o : Ref .output} {p : Ref .pipeline} {t : Session}
    (hbefore : ∀ a ∈ before, a.Uncounted)
    (he : (({} : Session).run before).encoder? e = some (.passthrough q₀)) (hbound : q₀.binding = .bound S)
    (hfree : ∀ p' y, (({} : Session).run before).pipeline? p' = some y → y.encoder ≠ e)
    (hmade : (({} : Session).run before).addPipeline e settings o = (.ok p, t))
    (hafter : ∀ a ∈ after, a.Spares e ∧ a.Uncounted) :
    (∀ past m rest, t.moments after = past ++ m :: rest → m.reaches p = true →
      askedIn m.events = if wanted p past then [S] else []) ∧
    (∀ m ∈ t.moments after, ∀ id, m.beat = .act (.requestKeyframe id) → askedIn m.events = [id]) ∧
    (∀ m ∈ t.moments after, m.beat.mayAsk = false → askedIn m.events = []) ∧
    (∀ m ∈ t.moments after, ∀ w, m.before.Listens w →
      m.after.told w = m.before.told w ++ (askedIn m.events).filterMap (m.before.heard w)) ∧
    (∀ src, t.source? S = some src → ∃ src', (t.run after).source? S = some src' ∧
      src'.keyframeRequested = requested S src.keyframeRequested (t.moments after)) ∧
    (t.run after).hushed = (t.run (after.filter fun a => !a.requests)).hushed ∧
    ∀ o', (t.run after).received o' = (t.run (after.filter fun a => !a.requests)).received o' := by
  have hanything : ∀ a ∈ after, (fun _ => True) a := fun _ _ => trivial
  obtain ⟨hattributed, q, hworks, -⟩ := works_addPipeline (attributed_run hbefore attributed_empty) he hfree hmade
  rw [hbound] at hworks
  refine ⟨?_, ?_, ?_, ?_, ?_, t.hushed_run_filter after, ?_⟩
  · intro past m rest hsplit hreach
    have hlinked := t.linked_moments after
    rw [hsplit] at hlinked
    have hms : ∀ m ∈ past, m.beat.Does fun a => a.Spares e ∧ a.Uncounted := by
      intro m' hm'
      apply does_of_mem_moments hafter (s := t)
      rw [hsplit]
      exact List.mem_append_left _ hm'
    have hpast := hworks.history (J := fun past x _ => x.keyframePending = wanted p past) hlinked.until_moment
      hms hattributed rfl fun past m x q y r h hturn => pending_turn h hturn
    rcases hpast with hgone | ⟨x, r, hthere, hpending⟩
    · have hsome := Moment.isSome_of_reaches hreach
      rw [hgone.pipeline] at hsome
      cases hsome
    · exact askedIn_of_reaches hthere hpending hreach
  · intro m _ id hbeat
    have hafter' : m.after = m.before.requestKeyframe id := by
      rw [Moment.after, hbeat]
      rfl
    have hevents : m.events = [.asked id] := by
      rw [Moment.events, hafter']
      exact eventsSince_eq (Asks.requestKeyframe m.before id).journal
    rw [hevents]
    rfl
  · intro m hm hask
    obtain ⟨es, hes, hnobody⟩ := m.before.silent_beat (does_of_mem_moments hanything hm) hask
    have hevents : m.events = es := eventsSince_eq hes
    rw [hevents]
    exact hnobody
  · intro m hm w hw
    obtain ⟨es, hes⟩ := m.before.heeds_beat (does_of_mem_moments hanything hm)
    have hevents : m.events = es := eventsSince_eq hes.journal
    rw [hevents]
    exact hes.told w hw
  · intro src hsrc
    apply (t.linked_moments after).history (I := fun past u => ∃ src', u.source? S = some src' ∧
      src'.keyframeRequested = requested S src.keyframeRequested past) []
    · refine ⟨src, hsrc, ?_⟩
      simp [requested, raisedSince]
    · rintro past m hm ⟨src', hsrc', hflag⟩
      exact requested_step hsrc' hflag (does_of_mem_moments hanything hm)
  · intro o'
    exact received_of_hushed_eq (t.hushed_run_filter after) o'

/-- An observer, two sources, an encoder bound to the first, and an output that takes one image. -/
def watchfulSetup : List Action :=
  [.addRegistry, .addObserver, .addOutput (.failingAfter 1 .closed), .addSource ⟨1⟩ {}, .addSource ⟨1⟩ {},
    .addEncoder (.passthrough (Passthrough.make (.bound ⟨1⟩) .h264 {} none))]

/-- The session with a pipeline around the encoder. -/
def boundPipeline : Session :=
  ((({} : Session).run watchfulSetup).addPipeline ⟨1⟩ ⟨.h264, 640, 480, 30, []⟩ ⟨1⟩).2

/-- Two requests come to one ask while nothing is queued, a third is passed on while paused and taken, and a fourth
with an image that is refused, after the watcher has been dismissed. -/
def manyRequests : List Action :=
  [.attach ⟨1⟩ ⟨1⟩, .attach ⟨1⟩ ⟨2⟩, .watch ⟨1⟩ (some ⟨⟨1⟩, none⟩), .wantKeyframe ⟨1⟩, .wantKeyframe ⟨1⟩,
    .capture ⟨2⟩ { width := 640, height := 480 } [0x41] 1, .hintRate ⟨1⟩ ⟨0⟩, .wantKeyframe ⟨1⟩,
    .capture ⟨1⟩ { width := 640, height := 480, isKey := true } [0x65] 2, .consumeKeyframeRequest ⟨1⟩,
    .hintRate ⟨1⟩ ⟨500000⟩, .capture ⟨1⟩ { width := 640, height := 480 } [0x42] 3, .watch ⟨1⟩ none,
    .wantKeyframe ⟨1⟩, .capture ⟨2⟩ { width := 640, height := 480 } [0x43] 4]

theorem keyframe_requests_relayed_manyRequests :
    (({} : Session).run watchfulSetup).addPipeline ⟨1⟩ ⟨.h264, 640, 480, 30, []⟩ ⟨1⟩ = (.ok ⟨1⟩, boundPipeline) ∧
    ((boundPipeline.moments manyRequests).map fun m => askedIn m.events).filter (· ≠ []) = [[⟨1⟩], [⟨1⟩], [⟨1⟩]] ∧
    (boundPipeline.run manyRequests).told ⟨1⟩ = [none, none] ∧
    ((boundPipeline.run manyRequests).received ⟨1⟩).map (fun i => (i.1.image.frameType, i.2))
      = [(.key, none), (.delta, some .closed)] ∧
    (boundPipeline.run manyRequests).received ⟨1⟩
      = (boundPipeline.run (manyRequests.filter fun a => !a.requests)).received ⟨1⟩ ∧
    ∃ src, (boundPipeline.run manyRequests).source? ⟨1⟩ = some src ∧
      src.keyframeRequested = requested ⟨1⟩ false (boundPipeline.moments manyRequests) ∧
      src.keyframeRequested = true := by
  have hmade : (({} : Session).run watchfulSetup).addPipeline ⟨1⟩ ⟨.h264, 640, 480, 30, []⟩ ⟨1⟩
      = (.ok ⟨1⟩, boundPipeline) := rfl
  have hbefore : ∀ a ∈ watchfulSetup, a.Uncounted := by
    simp [watchfulSetup, Action.Uncounted, Encoder.Within, Passthrough.Within, Passthrough.make]
  have hfree : ∀ p' y, (({} : Session).run watchfulSetup).pipeline? p' = some y → y.encoder ≠ ⟨1⟩ := by
    intro p' y hy
    have hnone : (({} : Session).run watchfulSetup).pipelines = {} := rfl
    rw [Session.pipeline?, hnone, Table.get?_empty] at hy
    cases hy
  have hafter : ∀ a ∈ manyRequests, a.Spares ⟨1⟩ ∧ a.Uncounted := by
    simp [manyRequests, Action.Spares, Action.Uncounted]
  obtain ⟨-, -, -, -, hflag, -, himages⟩ := keyframe_requests_relayed hbefore rfl rfl hfree hmade hafter
  obtain ⟨src, hsrc, hnoted⟩ := hflag _ rfl
  have hnoted : src.keyframeRequested = requested ⟨1⟩ false (boundPipeline.moments manyRequests) := hnoted
  refine ⟨hmade, by decide +kernel, by decide +kernel, by decide +kernel, himages ⟨1⟩, src, hsrc, hnoted, ?_⟩
  rw [hnoted]
  decide +kernel

end EncodedFeed
