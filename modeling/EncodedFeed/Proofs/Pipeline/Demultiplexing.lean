import EncodedFeed.Proofs.Encoder.Routing
import EncodedFeed.Proofs.Pipeline.Accounts
import EncodedFeed.Proofs.Pipeline.Attachments

/-!
# One encoder for many sources

A pipeline around a routed encoder can be attached to many sources.  Each frame that is pushed into one of them
brings a raw frame to the pipeline, and the raw frame leads the encoder to the frame's own source.  If the frame is
the only one that waits there, and no other pipeline is before this one, it is the frame that is taken.  So the
queues of the sources, of which no two know of each other, come out as one sequence: that of the pushes
(`Session.Tends.run`).

The queues are empty between the steps of a run (`Session.Tends`); within a step one frame goes in and comes out
(`Session.Poised`).
-/

namespace EncodedFeed

/-- What an offer carries. -/
def Offer.payload (x : Offer) : Octets := x.1.image.data

theorem offersOf_append (p : Ref .pipeline) (o : Ref .output) (ms ms' : List Moment) :
    offersOf p o (ms ++ ms') = offersOf p o ms ++ offersOf p o ms' := List.flatMap_append

namespace Session

variable {s t u : Session} {id : RoutingId} {o : Ref .output} {fs fs' : List EncodedFrame}

/-! ### What a pull supplies -/

/-- From `s` to `t` these frames leave the source, and what the output is offered is what they carry. -/
def Supplies (s t : Session) (id : RoutingId) (o : Ref .output) (fs : List EncodedFrame) : Prop :=
  ∃ es, Relays es s t ∧ removedFrom id es = fs ∧
    (es.filterMap (Event.offered? o)).map Offer.payload = fs.map EncodedFrame.payload

namespace Supplies

theorem trans (h : Supplies s t id o fs) (h' : Supplies t u id o fs') : Supplies s u id o (fs ++ fs') := by
  obtain ⟨es, hes, hremoved, hoffered⟩ := h
  obtain ⟨es', hes', hremoved', hoffered'⟩ := h'
  refine ⟨es ++ es', hes.trans hes', ?_, ?_⟩
  · rw [removedFrom_append, hremoved, hremoved']
  · rw [List.filterMap_append, List.map_append, List.map_append, hoffered, hoffered']

theorem aside (hj : t.journal = s.journal) (hs : t.sources = s.sources) (ho : t.outputs = s.outputs) :
    Supplies s t id o [] := ⟨[], Relays.elsewhere hj hs ho, rfl, rfl⟩

theorem aside_setEncoder (s : Session) (e : Ref .encoder) (y : Encoder) : Supplies s (s.setEncoder e y) id o [] :=
  aside rfl rfl rfl

theorem warn (s : Session) (w : Warning) : Supplies s (s.warn w) id o [] := ⟨_, Relays.warn s w, rfl, rfl⟩

theorem ask (s : Session) (i : RoutingId) : Supplies s (s.requestKeyframe i) id o [] :=
  ⟨_, Relays.requestKeyframe s i, rfl, rfl⟩

/-- What is left are the frames behind those. -/
theorem queue (h : Supplies s t id o fs) : s.queue id = fs ++ t.queue id := by
  obtain ⟨es, hes, hremoved, -⟩ := h
  rw [hes.queue id, hremoved]

/-- A frame that is passed on is the oldest of its source. -/
theorem passOn (s : Session) (p : Passthrough) (d : Destination) (id : RoutingId) (raw : RawFrame) :
    Supplies s (s.passOn p d id raw).2.2 id d.output (s.queue id).head?.toList := by
  unfold Session.passOn
  cases hq : s.queue id with
  | nil =>
    rw [take_of_queue_nil hq]
    exact aside rfl rfl rfl
  | cons f rest =>
    obtain ⟨refusal, hr⟩ := relays_present hq d (p.image_carries f raw)
    have hgiven : Supplies s ((s.take id).2.present d (p.image f raw)).2 id d.output [f] := by
      refine ⟨_, hr, ?_, ?_⟩
      · rw [removedFrom_pair, if_pos rfl]
      · simp [List.filterMap_cons, Event.offered?, Offer.payload, Passthrough.image]
    have htaken : (s.take id).1 = some f := by rw [take_of_queue_cons hq]
    cases htake : s.take id with
    | mk f' t =>
      rw [htake] at htaken hgiven
      dsimp only at htaken hgiven
      subst htaken
      dsimp only
      cases hpresent : t.present d (p.image f raw) with
      | mk refusal t =>
        rw [hpresent] at hgiven
        cases refusal with
        | none => exact hgiven
        | some e =>
          have hwarned := hgiven.trans (warn t (.refused e))
          rwa [List.append_nil] at hwarned

theorem pull {p : Passthrough} {c : Settings} {d : Destination} {raw : RawFrame} (hc : p.settings = some c)
    (hd : p.destination = some d) (hr : s.resolve p.binding raw = some id) (hs : p.sending = true)
    (types : List FrameType) : Supplies s (s.pull p raw types).2.2 id d.output (s.queue id).head?.toList := by
  rw [pull_of_resolved hc hd hr, if_pos hs]
  split
  · have hasked : Supplies s (s.requestKeyframe id) id d.output [] := ask s id
    have hqueue : (s.requestKeyframe id).queue id = s.queue id := hasked.queue.symm
    have hserved := hasked.trans (passOn (s.requestKeyframe id) p d id raw)
    rwa [List.nil_append, hqueue] at hserved
  · exact passOn s p d id raw

theorem tally (s : Session) (p : Ref .pipeline) (r : Except Error Outcome) : Supplies s (s.tally p r) id o [] := by
  unfold Session.tally
  split
  · exact aside rfl rfl rfl
  · exact aside rfl rfl rfl
  · have hcounted : Supplies s (s.count p fun c => { c with errors := c.errors + 1 }) id o [] := aside rfl rfl rfl
    exact hcounted.trans (warn _ _)

end Supplies

/-- **A raw frame that leads a pipeline at work to a source** supplies the oldest frame of the source. -/
theorem Works.supplies {p : Ref .pipeline} {e : Ref .encoder} {b : Binding} {x : Pipeline} {q : Passthrough}
    (h : s.Works p e b o x q) (hs : q.sending = true) {raw : RawFrame} (hr : s.resolve b raw = some id) :
    Supplies s (s.feed p raw) id o (s.queue id).head?.toList := by
  set s₁ := s.modifyPipeline p fun x =>
    { x with keyframePending := false, stats := { x.stats with pulls := x.stats.pulls + 1 } } with hs₁
  set timed : RawFrame := { raw with rtp := raw.timestamp.map rtpOfMicros } with htimed
  obtain ⟨c, hc⟩ := Option.isSome_iff_exists.mp h.configured
  have hresolve : s₁.resolve q.binding timed = some id := by
    rw [h.binding, ← hr]
    cases b <;> rfl
  have hcounted : Supplies s s₁ id o [] := .aside rfl rfl rfl
  have hpulled := Supplies.pull hc h.destination hresolve hs [x.nextType]
  have hencoder : s₁.encoder? e = some (.passthrough q) := h.holds.encoder
  have hcall : s₁.call e (.pull timed [x.nextType])
      = ((s₁.pull q timed [x.nextType]).1, (s₁.pull q timed [x.nextType]).2.2.setEncoder e
          (.passthrough (s₁.pull q timed [x.nextType]).2.1)) := by
    unfold call
    rw [hencoder]
    rfl
  have hfeed : s.feed p raw = (s₁.call e (.pull timed [x.nextType])).2.tally p
      (s₁.call e (.pull timed [x.nextType])).1 := by
    unfold feed
    rw [h.holds.pipeline]
    dsimp only
    rw [h.holds.drives]
  rw [hfeed, hcall]
  have hput := (hcounted.trans hpulled).trans (.aside_setEncoder _ e (.passthrough (s₁.pull q timed [x.nextType]).2.1))
  have htallied := hput.trans (.tally _ p (s₁.pull q timed [x.nextType]).1)
  rw [List.nil_append, List.append_nil, List.append_nil] at htallied
  exact htallied

/-! ### While raw frames are handed out -/

theorem steady_beat (s : Session) {b : Beat} (hb : b.isAct = false) : Steady s (s.beat b) := by
  cases b with
  | act a => cases hb
  | warn w => exact .of_pipelines_eq rfl rfl
  | enter id f =>
    have hqueued : Steady s ((s.modifySource id fun src => src.enqueue f).note (.pushed id f)) :=
      .of_pipelines_eq rfl rfl
    exact hqueued.trans (Steady.carried.checkDepth _ id)
  | stamp id capture now => exact .of_pipelines_eq rfl rfl
  | hand raw tap => exact Steady.carried.deliver s raw tap

variable {p : Ref .pipeline} {e : Ref .encoder} {r : Ref .registry} {raw : RawFrame}

theorem play_append (s : Session) (bs bs' : List Beat) :
    s.play (bs ++ bs') = s.play bs ++ (bs.foldl beat s).play bs' := by
  induction bs generalizing s with
  | nil => rfl
  | cons b rest ih => exact congrArg _ (ih (s.beat b))

/-- Nothing is offered where no raw frame reaches the pipeline. -/
theorem offersOf_eq_nil {ms : List Moment} (h : ∀ m ∈ ms, m.reaches p = false) : offersOf p o ms = [] := by
  refine List.flatMap_eq_nil_iff.mpr fun m hm => ?_
  rw [h m hm, if_neg Bool.false_ne_true]

/-- The pipeline is at work around a routed encoder that sends, the source is registered, and these frames wait
in it. -/
structure Poised (s : Session) (p : Ref .pipeline) (e : Ref .encoder) (r : Ref .registry) (o : Ref .output)
    (id : RoutingId) (fs : List EncodedFrame) : Prop where
  attributed : s.Attributed
  works : ∃ x q, s.Works p e (.routed r) o x q ∧ q.sending = true
  registered : (s.registry r).find? id = some id
  queue : s.queue id = fs

namespace Poised

/-- A beat that does not reach the pipeline. -/
theorem passed (h : s.Poised p e r o id fs) {b : Beat} (hb : b.isAct = false)
    (hreach : Moment.reaches ⟨s, b⟩ p = false) (hqueue : (s.beat b).queue id = fs') :
    (s.beat b).Poised p e r o id fs' := by
  obtain ⟨x, q, hworks, hsends⟩ := h.works
  have hsteady := s.steady_beat hb
  have hdoes : b.Does fun a => a.Spares e ∧ a.Uncounted := by
    cases b with
    | act a => cases hb
    | _ => trivial
  refine ⟨attributed_beat h.attributed (hdoes.mono fun a ha => ha.2), ?_, ?_, hqueue⟩
  · rcases Works.passed (m := ⟨s, b⟩) hworks h.attributed hdoes hreach with hgone | ⟨y, hafter, -, -⟩
    · have hthere := hsteady.driver p
      have hnone : (s.beat b).pipeline? p = none := hgone.pipeline
      rw [hnone, hworks.holds.pipeline] at hthere
      cases hthere
    · have htuned : b.tuned p q = q := by
        cases b with
        | act a => cases hb
        | _ => rfl
      refine ⟨y, _, hafter, ?_⟩
      show (b.tuned p q).sending = true
      rw [htuned, hsends]
  · rw [registry, hsteady.registries]
    exact h.registered

/-- The raw frame reaches the pipeline. -/
theorem served (h : s.Poised p e r o id fs) (hraw : raw.source = some id) :
    (s.beat (.hand raw (.pipeline p))).Poised p e r o id fs.tail ∧
    (offersOf p o [⟨s, .hand raw (.pipeline p)⟩]).map Offer.payload
      = fs.head?.toList.map EncodedFrame.payload := by
  obtain ⟨x, q, hworks, hsends⟩ := h.works
  have hreach : Moment.reaches ⟨s, .hand raw (.pipeline p)⟩ p = true := by
    simp [Moment.reaches, hworks.holds.pipeline]
  have hresolve : s.resolve (.routed r) raw = some id := (resolve_routed hraw).trans h.registered
  have hserved := hworks.supplies hsends hresolve
  obtain ⟨raw', offer, hafter, -⟩ := Works.reached (m := ⟨s, .hand raw (.pipeline p)⟩) hworks hreach
  refine ⟨⟨attributed_beat h.attributed (b := .hand raw (.pipeline p)) trivial, ⟨_, _, hafter, ?_⟩, ?_, ?_⟩, ?_⟩
  · rcases offer with _ | ⟨i, _ | err⟩ <;> exact hsends
  · rw [registry, (s.steady_beat (b := .hand raw (.pipeline p)) rfl).registries]
    exact h.registered
  · have hqueue := hserved.queue
    rw [h.queue] at hqueue
    cases fs with
    | nil => exact hqueue.symm
    | cons f rest => exact (List.cons.inj hqueue).2.symm
  · obtain ⟨es, hes, -, hoffered⟩ := hserved
    have hevents : Moment.events ⟨s, .hand raw (.pipeline p)⟩ = es := eventsSince_eq hes.journal
    have hoffers : offersOf p o [⟨s, .hand raw (.pipeline p)⟩] = es.filterMap (Event.offered? o) := by
      rw [← List.nil_append [_], offersOf_snoc, if_pos hreach, hevents]
      rfl
    rw [hoffers, hoffered, h.queue]

/-- With nothing waiting raw frames bring nothing, whomever they reach. -/
theorem handed_none (hraw : raw.source = some id) (taps : List Tap) (h : s.Poised p e r o id []) :
    ((taps.map (Beat.hand raw)).foldl beat s).Poised p e r o id [] ∧
    offersOf p o (s.play (taps.map (Beat.hand raw))) = [] := by
  induction taps generalizing s with
  | nil => exact ⟨h, rfl⟩
  | cons tap rest ih =>
    obtain ⟨hfirst, hnothing⟩ : (s.beat (.hand raw tap)).Poised p e r o id [] ∧
        offersOf p o [⟨s, .hand raw tap⟩] = [] := by
      by_cases htap : tap = .pipeline p
      · subst htap
        obtain ⟨hserved, hoffers⟩ := h.served hraw
        exact ⟨hserved, List.map_eq_nil_iff.mp hoffers⟩
      · have hreach : Moment.reaches ⟨s, .hand raw tap⟩ p = false := by
          cases tap with
          | recorder k => rfl
          | pipeline p' =>
            have hne : p' ≠ p := fun heq => htap (by rw [heq])
            simp [Moment.reaches, hne]
        obtain ⟨es, hes⟩ := carried_relays.deliver s raw tap
        have hqueue := hes.queue id
        rw [h.queue] at hqueue
        refine ⟨h.passed rfl hreach (List.append_eq_nil_iff.mp hqueue.symm).2, offersOf_eq_nil fun m hm => ?_⟩
        cases List.mem_singleton.mp hm
        exact hreach
    obtain ⟨hrest, hoffers⟩ := ih hfirst
    refine ⟨hrest, ?_⟩
    show offersOf p o ([⟨s, .hand raw tap⟩] ++ (s.beat (.hand raw tap)).play (rest.map (Beat.hand raw))) = []
    rw [offersOf_append, hnothing, hoffers]
    rfl

/-- The pipeline that comes first is served. -/
theorem handed_first (hraw : raw.source = some id) {taps : List Tap}
    (hfirst : (taps.filterMap Tap.pipeline?).head? = some p) (h : s.Poised p e r o id fs) (hone : fs.tail = []) :
    ((taps.map (Beat.hand raw)).foldl beat s).Poised p e r o id [] ∧
    (offersOf p o (s.play (taps.map (Beat.hand raw)))).map Offer.payload
      = fs.head?.toList.map EncodedFrame.payload := by
  induction taps generalizing s with
  | nil => cases hfirst
  | cons tap rest ih =>
    cases tap with
    | recorder k =>
      have hkept : (s.beat (.hand raw (.recorder k))).Poised p e r o id fs := h.passed rfl rfl h.queue
      exact ih hfirst hkept
    | pipeline p' =>
      obtain rfl : p' = p := Option.some.inj hfirst
      obtain ⟨hserved, hoffers⟩ := h.served hraw
      rw [hone] at hserved
      obtain ⟨hrest, hnothing⟩ := hserved.handed_none hraw rest
      refine ⟨hrest, ?_⟩
      show (offersOf p' o ([⟨s, .hand raw (.pipeline p')⟩] ++ (s.beat _).play (rest.map (Beat.hand raw)))).map _ = _
      rw [offersOf_append, hnothing, List.append_nil, hoffers]

/-- A frame is queued. -/
theorem entered (h : s.Poised p e r o id []) {src : Source} (hsrc : s.source? id = some src)
    (f? : Option EncodedFrame) :
    ((f?.toList.map (Beat.enter id)).foldl beat s).Poised p e r o id f?.toList := by
  cases f? with
  | none => exact h
  | some f =>
    have hempty : src.queue = [] := by
      have hqueue := h.queue
      rwa [Session.queue, hsrc] at hqueue
    refine h.passed (b := .enter id f) rfl rfl ?_
    rw [Session.queue, source?_enter s hsrc]
    show src.queue ++ [f] = [f]
    rw [hempty, List.nil_append]

theorem stamped {bs : List Beat} (hbs : ∀ b ∈ bs, ∃ capture now, b = .stamp id capture now)
    (h : s.Poised p e r o id fs) : (bs.foldl beat s).Poised p e r o id fs := by
  induction bs generalizing s with
  | nil => exact h
  | cons b rest ih =>
    obtain ⟨capture, now, rfl⟩ := hbs b List.mem_cons_self
    have hstamped : (s.beat (.stamp id capture now)).Poised p e r o id fs := by
      refine h.passed rfl rfl ?_
      rw [← h.queue]
      exact s.queue_modifySource_of_eq id (fun src => { src with pump := (src.pump.stamp capture now).2 })
        (fun _ => rfl) id
    exact ih (fun b hb => hbs b (List.mem_cons_of_mem _ hb)) hstamped

/-- **A push on an empty source** goes straight to the output of the pipeline that comes first. -/
theorem pushed (h : s.Poised p e r o id []) {a : Action} {src : Source} (ha : a.pushedTo? = some id)
    (hsrc : s.source? id = some src) (hopen : src.closed = false) (hended : src.pump.ended = false)
    (hfirst : (src.port.attached.map Prod.snd).head? = some p) :
    (s.perform a).2.Poised p e r o id [] ∧
    (offersOf p o (s.play (s.beats a))).map Offer.payload
      = (Step.accepted? ⟨s, a⟩ id).toList.map EncodedFrame.payload := by
  obtain ⟨stamps, picture, stamp, hbeats, hstamps⟩ := beats_of_pushedTo? ha hsrc hopen
  set entries := (Step.accepted? ⟨s, a⟩ id).toList.map (Beat.enter id) with hentries
  set raw : RawFrame := { picture, timestamp := stamp, source := some id } with hraw
  have hhandings : handings src id picture stamp = (src.pump.taps.map Prod.snd).map (Beat.hand raw) := by
    rw [handings, hended, if_neg Bool.false_ne_true, List.map_map]
    rfl
  have htaps : ((src.pump.taps.map Prod.snd).filterMap Tap.pipeline?).head? = some p := by
    rw [← hfirst, Port.attached, List.filterMap_map, List.map_filterMap]
    refine congrArg _ (List.filterMap_congr fun t _ => ?_)
    rw [Option.map_map]
    exact Option.map_id'.symm
  have hin : ((entries ++ stamps).foldl beat s).Poised p e r o id (Step.accepted? ⟨s, a⟩ id).toList := by
    rw [List.foldl_append]
    exact stamped hstamps (h.entered hsrc _)
  have hone : (Step.accepted? ⟨s, a⟩ id).toList.tail = [] := by
    cases Step.accepted? ⟨s, a⟩ id <;> rfl
  have hhead : (Step.accepted? ⟨s, a⟩ id).toList.head? = Step.accepted? ⟨s, a⟩ id := by
    cases Step.accepted? ⟨s, a⟩ id <;> rfl
  have hsource : raw.source = some id := rfl
  obtain ⟨hafter, hoffers⟩ := handed_first hsource htaps hin hone
  have hbefore : offersOf p o (s.play (entries ++ stamps)) = [] := by
    refine offersOf_eq_nil fun m hm => ?_
    have hb := mem_play hm
    obtain ⟨t, b⟩ := m
    rcases List.mem_append.mp hb with hb | hb
    · obtain ⟨f, -, heq⟩ := List.mem_map.mp hb
      cases heq
      rfl
    · obtain ⟨capture, now, heq⟩ := hstamps b hb
      cases heq
      rfl
  rw [hhead] at hoffers
  rw [perform_eq_beats, hbeats, hhandings, List.foldl_append, play_append, offersOf_append, hbefore, List.nil_append]
  exact ⟨hafter, hoffers⟩

end Poised

end Session

/-! ### Scenes -/

theorem Session.isLive_of_push {s : Session} {id : RoutingId} {f : EncodedFrame} {now : Int64}
    (h : (s.push id f now).1 = true) : s.IsLive id := by
  unfold push at h
  split at h
  · cases h
  · next src hsrc =>
    split at h
    · cases h
    · next hopen => exact ⟨src, hsrc, by simpa using hopen⟩

/-- A source that accepts a frame is live, and the frame is pushed into it. -/
theorem Step.of_accepted? {x : Step} {id : RoutingId} {f : EncodedFrame} (h : x.accepted? id = some f) :
    x.action.pushedTo? = some id ∧ x.before.IsLive id := by
  obtain ⟨s, a⟩ := x
  cases a with
  | push i f' now =>
    cases hpush : (s.push i f' now).1 with
    | false => simp [accepted?, reply, Session.perform, hpush] at h
    | true =>
      have hi : i = id := by
        by_contra hne
        simp [accepted?, reply, Session.perform, hpush, hne] at h
      subst hi
      exact ⟨rfl, Session.isLive_of_push hpush⟩
  | capture i tags payload now =>
    cases hcapture : (s.capture i tags payload now).1 with
    | false => simp [accepted?, reply, Session.perform, hcapture] at h
    | true =>
      have hi : i = id := by
        by_contra hne
        simp [accepted?, reply, Session.perform, hcapture, hne] at h
      subst hi
      unfold Session.capture at hcapture
      split at hcapture
      · cases hcapture
      · next f' hmake =>
        have hpayload : payload ≠ [] := by
          rintro rfl
          cases hmake
        exact ⟨if_neg hpayload, Session.isLive_of_push hcapture⟩
  | _ => cases h

/-- A step of a run, and the attachments that are in force when it begins. -/
structure Scene where
  attached : List Attachment
  step : Step

namespace Scene

/-- The pipelines that the raw frames of a source go to, one after the other. -/
def listeners (x : Scene) (id : RoutingId) : List (Ref .pipeline) :=
  (x.attached.filter fun h => h.source = id).map Attachment.pipeline

/-- If the pipeline is attached in the step, nothing waits in the source; and it is not paused. -/
def spares (p : Ref .pipeline) (x : Scene) : Bool :=
  match x.step.action with
  | .attach p' id => p' ≠ p || (x.step.before.queue id).isEmpty
  | .hintRate p' hint => p' ≠ p || !hint.isPaused
  | _ => true

/-- The step spares the pipeline; and a source that it is attached to pushes only while it is registered, and to
this pipeline first. -/
def isFair (p : Ref .pipeline) (r : Ref .registry) (x : Scene) : Bool :=
  x.step.isSound && x.spares p && x.step.action.pushedTo?.all fun id =>
    x.step.before.isClosed id || !decide (p ∈ x.listeners id)
      || ((x.listeners id).head? = some p && (x.step.before.registry r).find? id = some id)

/-- The frame that is accepted by a source the pipeline is attached to. -/
def carried? (p : Ref .pipeline) (x : Scene) : Option EncodedFrame :=
  x.step.action.pushedTo?.bind fun id => if p ∈ x.listeners id then x.step.accepted? id else none

theorem mem_listeners {x : Scene} {id : RoutingId} {p : Ref .pipeline} :
    p ∈ x.listeners id ↔ ∃ h ∈ x.attached, h.source = id ∧ h.pipeline = p := by
  simp [listeners, and_assoc]

end Scene

namespace Session

/-- The scenes of a run. -/
def scenes (past : List Step) (s : Session) : List Action → List Scene
  | [] => []
  | a :: rest => ⟨inForce past, ⟨s, a⟩⟩ :: scenes (past ++ [⟨s, a⟩]) (s.perform a).2 rest

variable {s t : Session} {id : RoutingId} {p : Ref .pipeline} {e : Ref .encoder} {r : Ref .registry} {o : Ref .output}
  {hs : List Attachment}

theorem reaches_eq_false {x : Step} (hnot : p ∉ x.fed) :
    ∀ m ∈ x.before.play (x.before.beats x.action), m.reaches p = false := by
  intro m hm
  by_contra hreach
  refine hnot (List.mem_filterMap.mpr ⟨m, hm, ?_⟩)
  unfold Moment.reaches at hreach
  split at hreach
  · next raw p' hb =>
    simp only [Bool.not_eq_false, Bool.and_eq_true, decide_eq_true_eq] at hreach
    obtain ⟨rfl, hthere⟩ := hreach
    unfold Moment.fed?
    rw [hb]
    exact if_pos hthere
  · cases hreach rfl

/-- The pipeline is gone, or at work around a routed encoder that sends. -/
def Sends (s : Session) (p : Ref .pipeline) (e : Ref .encoder) (r : Ref .registry) (o : Ref .output) : Prop :=
  s.Gone p ∨ ∃ x q, s.Works p e (.routed r) o x q ∧ q.sending = true

/-- If no raw frame reaches the pipeline and it is not paused, it stays at work moment by moment. -/
theorem sends_perform {a : Action} (hattributed : s.Attributed) (h : s.Sends p e r o) (hspares : a.Spares e)
    (hu : a.Uncounted) (hhint : ∀ hint, a = .hintRate p hint → hint.isPaused = false)
    (hreach : ∀ m ∈ s.play (s.beats a), m.reaches p = false) : (s.perform a).2.Sends p e r o := by
  have hdoes : ∀ m ∈ s.play (s.beats a), m.beat.Does fun a =>
      (a.Spares e ∧ a.Uncounted) ∧ ∀ hint, a = .hintRate p hint → hint.isPaused = false := by
    intro m hm
    have hmoment : m ∈ s.moments [a] := List.mem_append_left _ hm
    refine does_of_mem_moments (fun a' ha' => ?_) hmoment
    rw [List.mem_singleton.mp ha']
    exact ⟨⟨hspares, hu⟩, hhint⟩
  have hlinked := s.linked_play (s.beats a)
  rw [← perform_eq_beats] at hlinked
  have hrun := hlinked.history (I := fun _ t => t.Attributed ∧ t.Sends p e r o) [] ⟨hattributed, h⟩
  refine (hrun fun past m hm hbefore => ?_).2
  obtain ⟨hattributed, hsends⟩ := hbefore
  have hb := hdoes m hm
  refine ⟨attributed_beat hattributed (hb.mono fun a ha => ha.1.2), ?_⟩
  rcases hsends with hgone | ⟨y, q, hworks, hsends⟩
  · exact .inl (hgone.beat (hb.mono fun _ _ => trivial))
  rcases hworks.passed hattributed (hb.mono fun a ha => ha.1) (hreach m hm) with hgone | ⟨z, hafter, -, -⟩
  · exact .inl hgone
  refine .inr ⟨z, _, hafter, ?_⟩
  unfold Beat.tuned
  split
  · next p' hint heq =>
    split
    · next hp =>
      subst hp
      rw [heq] at hb
      show (!hint.isPaused) = true
      rw [hb.2.2 hint rfl]
      rfl
    · exact hsends
  · exact hsends

/-- The pipeline, as long as it is there, is at work around a routed encoder that sends, and nothing waits in the
sources it is attached to. -/
structure Tends (s : Session) (hs : List Attachment) (p : Ref .pipeline) (e : Ref .encoder) (r : Ref .registry)
    (o : Ref .output) : Prop where
  reflects : s.Reflects hs
  attributed : s.Attributed
  works : s.Sends p e r o
  idle (h : Attachment) : h ∈ hs → h.pipeline = p → s.isClosed h.source = false → s.queue h.source = []

namespace Tends

variable {x : Scene}

/-- A source into which nothing is pushed stays as empty as it was. -/
theorem queue_after {x : Step} (hbefore : x.before.isClosed id = false → x.before.queue id = [])
    (haccepted : x.accepted? id = none) (hopen : x.after.isClosed id = false) : x.after.queue id = [] := by
  have hwas : x.before.isClosed id = false := by
    cases hclosed : x.before.isClosed id with
    | false => rfl
    | true =>
      rw [x.balanced.closed id hclosed] at hopen
      cases hopen
  have hqueue := x.balanced.queue id hopen
  rw [hbefore hwas, haccepted] at hqueue
  exact (List.append_eq_nil_iff.mp hqueue.symm).2

/-- The attachments that are in force after a step. -/
theorem mem_after {h : Attachment}
    (hin : h ∈ x.attached.filter (fun a => !x.step.action.ends a) ++ x.step.attachment?.toList) :
    h ∈ x.attached ∨ x.step.action = .attach h.pipeline h.source := by
  rcases List.mem_append.mp hin with hold | hnew
  · exact .inl (List.mem_filter.mp hold).1
  · exact .inr (pipeline_of_attachment? (Option.mem_toList.mp hnew))

/-- **A step in which no raw frame reaches the pipeline.** -/
theorem passed (h : x.step.before.Tends x.attached p e r o) (hfair : x.isFair p r = true)
    (hspares : x.step.action.Spares e) (hu : x.step.action.Uncounted) (hnot : p ∉ x.step.fed)
    (haccepted : ∀ a ∈ x.attached, a.pipeline = p → x.step.accepted? a.source = none) :
    x.step.after.Tends (x.attached.filter (fun a => !x.step.action.ends a) ++ x.step.attachment?.toList) p e r o ∧
    offersOf p o (x.step.before.play (x.step.before.beats x.step.action)) = [] := by
  have hreach := reaches_eq_false hnot
  obtain ⟨hsafe, -⟩ := Bool.and_eq_true_iff.mp hfair
  obtain ⟨hsound, hspared⟩ := Bool.and_eq_true_iff.mp hsafe
  unfold Scene.spares at hspared
  refine ⟨⟨reflects_step h.reflects hsound, ?_, ?_, fun a ha hap hopen => ?_⟩, offersOf_eq_nil hreach⟩
  · have hall : ∀ a ∈ [x.step.action], a.Uncounted := fun a ha => List.mem_singleton.mp ha ▸ hu
    exact attributed_run hall h.attributed
  · refine sends_perform h.attributed h.works hspares hu (fun hint hhint => ?_) hreach
    rw [hhint] at hspared
    simpa using hspared
  · rcases mem_after ha with hold | hattach
    · exact queue_after (fun hwas => h.idle a hold hap hwas) (haccepted a hold hap) hopen
    · refine queue_after (fun _ => ?_) ?_ hopen
      · rw [hattach] at hspared
        simpa [hap] using hspared
      · unfold Step.accepted?
        rw [hattach]

/-- **A step in which a source that the pipeline is attached to pushes.** -/
theorem pushed (h : x.step.before.Tends x.attached p e r o) (hfair : x.isFair p r = true)
    (hid : x.step.action.pushedTo? = some id) (hlive : x.step.before.IsLive id)
    (hlistens : p ∈ x.listeners id) :
    x.step.after.Tends (x.attached.filter (fun a => !x.step.action.ends a) ++ x.step.attachment?.toList) p e r o ∧
    (offersOf p o (x.step.before.play (x.step.before.beats x.step.action))).map Offer.payload
      = (x.step.accepted? id).toList.map EncodedFrame.payload := by
  have hclosed := isClosed_of_isLive hlive
  obtain ⟨src, hsrc, hopen⟩ := hlive
  obtain ⟨h₀, hin, rfl, hp⟩ := Scene.mem_listeners.mp hlistens
  obtain ⟨hsafe, hpushes⟩ := Bool.and_eq_true_iff.mp hfair
  have hsound := (Bool.and_eq_true_iff.mp hsafe).1
  obtain ⟨hfirst, hregistered⟩ : (x.listeners h₀.source).head? = some p ∧
      (x.step.before.registry r).find? h₀.source = some h₀.source := by
    rw [hid] at hpushes
    simpa [hclosed, hlistens] using hpushes
  -- a pipeline that is attached is there
  have hworks : ∃ y q, x.step.before.Works p e (.routed r) o y q ∧ q.sending = true := by
    refine h.works.resolve_left fun hgone => ?_
    obtain ⟨as, has, -⟩ := h.reflects.listed h₀ hin
    rw [hp, attachments?, hgone.pipeline] at has
    cases has
  have hport : x.step.before.port? h₀.source = some src.port := by rw [port?, hsrc, Option.map_some]
  have htaps := h.reflects.taps h₀.source src.port hport hopen
  have hended : src.pump.ended = false := (h.reflects.ended h₀.source src.port hport).trans hopen
  have hattached : (src.port.attached.map Prod.snd).head? = some p := by
    rw [htaps, attachedTo, List.map_map]
    exact hfirst
  have hready : x.step.before.Poised p e r o h₀.source [] :=
    ⟨h.attributed, hworks, hregistered, h.idle h₀ hin hp hclosed⟩
  obtain ⟨hafter, hoffers⟩ := hready.pushed hid hsrc hopen hended hattached
  refine ⟨⟨reflects_step h.reflects hsound, hafter.attributed, .inr hafter.works, fun a ha hap hstays => ?_⟩, hoffers⟩
  by_cases hsame : a.source = h₀.source
  · rw [hsame]
    exact hafter.queue
  · rcases mem_after ha with hold | hattach
    · have helsewhere : x.step.accepted? a.source = none := by
        refine Option.eq_none_iff_forall_ne_some.mpr fun f hf => ?_
        rw [(Step.of_accepted? hf).1] at hid
        exact hsame (Option.some.inj hid)
      exact queue_after (fun hwas => h.idle a hold hap hwas) helsewhere hstays
    · rw [hattach] at hid
      cases hid

/-- **One step of a run.**  What the output is offered by the pipeline is what has just been pushed. -/
theorem step (h : x.step.before.Tends x.attached p e r o) (hfair : x.isFair p r = true)
    (hspares : x.step.action.Spares e) (hu : x.step.action.Uncounted) :
    x.step.after.Tends (x.attached.filter (fun a => !x.step.action.ends a) ++ x.step.attachment?.toList) p e r o ∧
    (offersOf p o (x.step.before.play (x.step.before.beats x.step.action))).map Offer.payload
      = (x.carried? p).toList.map EncodedFrame.payload := by
  by_cases hpushed : ∃ id, x.step.action.pushedTo? = some id ∧ x.step.before.IsLive id ∧ p ∈ x.listeners id
  · obtain ⟨id, hid, hlive, hlistens⟩ := hpushed
    obtain ⟨hafter, hoffers⟩ := h.pushed hfair hid hlive hlistens
    have hcarried : x.carried? p = x.step.accepted? id := by
      unfold Scene.carried?
      rw [hid, Option.bind_some, if_pos hlistens]
    rw [hcarried]
    exact ⟨hafter, hoffers⟩
  · have hnot : p ∉ x.step.fed := by
      by_cases hlive : ∃ id, x.step.action.pushedTo? = some id ∧ x.step.before.IsLive id
      · obtain ⟨id, hid, hlive⟩ := hlive
        rw [fed_of_pushedTo? h.reflects hid hlive]
        exact fun hin => hpushed ⟨id, hid, hlive, hin⟩
      · rw [fed_eq_nil h.reflects fun id hid hl => hlive ⟨id, hid, hl⟩]
        exact List.not_mem_nil
    have haccepted : ∀ a ∈ x.attached, a.pipeline = p → x.step.accepted? a.source = none := by
      intro a ha hap
      refine Option.eq_none_iff_forall_ne_some.mpr fun f hf => hpushed ?_
      obtain ⟨hid, hlive⟩ := Step.of_accepted? hf
      exact ⟨a.source, hid, hlive, Scene.mem_listeners.mpr ⟨a, ha, rfl, hap⟩⟩
    obtain ⟨hafter, hoffers⟩ := h.passed hfair hspares hu hnot haccepted
    have hcarried : x.carried? p = none := by
      refine Option.eq_none_iff_forall_ne_some.mpr fun f hf => ?_
      obtain ⟨id, hid, hf⟩ := Option.bind_eq_some_iff.mp hf
      split at hf
      · next hlistens =>
        exact hpushed ⟨id, hid, (Step.of_accepted? hf).2, hlistens⟩
      · cases hf
    rw [hoffers, hcarried]
    exact ⟨hafter, rfl⟩

/-- **A whole run.** -/
theorem run (actions : List Action) {past : List Step} (h : s.Tends (inForce past) p e r o)
    (hfair : ∀ x ∈ scenes past s actions, x.isFair p r = true)
    (hspares : ∀ a ∈ actions, a.Spares e ∧ a.Uncounted) :
    (offersOf p o (s.moments actions)).map Offer.payload
      = ((scenes past s actions).filterMap (Scene.carried? p)).map EncodedFrame.payload := by
  induction actions generalizing s past with
  | nil => rfl
  | cons a rest ih =>
    obtain ⟨hsparesFirst, hu⟩ := hspares a List.mem_cons_self
    obtain ⟨hstep, hoffers⟩ := step (x := ⟨inForce past, ⟨s, a⟩⟩) h (hfair _ List.mem_cons_self) hsparesFirst hu
    have hafter : (s.perform a).2.Tends (inForce (past ++ [⟨s, a⟩])) p e r o := by
      rw [inForce_snoc]
      exact hstep
    have hrest := ih hafter (fun x hx => hfair x (List.mem_cons_of_mem _ hx))
      fun a ha => hspares a (List.mem_cons_of_mem _ ha)
    show (offersOf p o (s.play (s.beats a) ++ (s.perform a).2.moments rest)).map _ = _
    rw [offersOf_append, List.map_append, hrest, scenes, List.filterMap_cons]
    refine (congrArg (· ++ _) hoffers).trans ?_
    cases Scene.carried? p ⟨inForce past, ⟨s, a⟩⟩ <;> rfl

/-- A pipeline that is made around a routed encoder that no pipeline drives starts out so. -/
theorem addPipeline {before : List Action} {q₀ : Passthrough} {settings : Settings}
    (hsound : ∀ x ∈ ({} : Session).steps before, x.isSound = true) (hbefore : ∀ a ∈ before, a.Uncounted)
    (he : (({} : Session).run before).encoder? e = some (.passthrough q₀)) (hrouted : q₀.binding = .routed r)
    (hfree : ∀ p' y, (({} : Session).run before).pipeline? p' = some y → y.encoder ≠ e)
    (hmade : (({} : Session).run before).addPipeline e settings o = (.ok p, t)) :
    t.Tends (inForce (({} : Session).steps before)) p e r o := by
  have hempty : ({} : Session).Reflects (inForce []) := Reflects.empty
  have hreflects : (({} : Session).run before).Reflects (inForce (({} : Session).steps before)) :=
    reflects_run before hempty hsound
  obtain ⟨hattributed, q, hworks, -⟩ := works_addPipeline (attributed_run hbefore attributed_empty) he hfree hmade
  rw [hrouted] at hworks
  obtain ⟨q', hinit, hp, ht⟩ := addPipeline_ok he hmade
  have hsends : q.sending = true := by
    have hget : (({} : Session).run before).encoders.get? e.number = some (.passthrough q₀) := he
    have hq : t.encoder? e = some (.passthrough (q'.connect ⟨o, some p⟩)) := by
      rw [ht, encoder?, Table.get?_modify, if_pos rfl, hget, Option.map_some]
    rw [hworks.holds.encoder] at hq
    cases hq
    obtain ⟨-, rfl⟩ := Passthrough.eq_of_init hinit
    rfl
  refine ⟨?_, hattributed, .inr ⟨_, q, hworks, hsends⟩, fun a ha hap _ => ?_⟩
  · have hafter := hreflects.addPipeline e settings o
    rwa [hmade] at hafter
  · -- the pipeline is new, so nothing attaches it yet
    obtain ⟨as, has, -⟩ := hreflects.listed a ha
    rw [hap, hp, attachments?, pipeline?, Table.get?_next] at has
    cases has

end Tends

end Session

open Session in
/-- **A routed encoder does what a bound one does**, and so one pipeline serves many sources.  Two encoders are made
alike, but one is routed over a registry and one is bound to a source, and get the same calls, with anything
happening in between.  Then they still differ in their bindings and counts only; pulled with a raw frame of the
source while it is registered, they give the same result and leave the same session, and count the same.  A raw
frame that leads nowhere leaves all as it was but for a warning, and brings nothing; if the encoder is not set up or
not connected it fails as the bound one.

A pipeline is made around a routed encoder that no pipeline drives yet.  Whatever the application does, as long as
it treats the pipeline well (`Scene.isFair`), the pipeline offers its output the payloads of the frames pushed into
the sources it is attached to, in the order of the pushes. -/
theorem routed_as_bound :
    (∀ (codec : Codec) (config : EncoderConfig) (index : Option UInt32) (turns turns' : List Turn)
      (r : Ref .registry) (id : RoutingId) (s₀ t₀ s : Session) (raw : RawFrame) (types : List FrameType),
      turns.map Turn.call = turns'.map Turn.call →
      let routed := s₀.passthroughAfter (.make (.routed r) codec config index) turns
      let bound := t₀.passthroughAfter (.make (.bound id) codec config index) turns'
      (raw.source = some id → (s.registry r).find? id = some id →
        bound = { routed with binding := .bound id, emitted := bound.emitted } ∧
        ∃ n, s.pull bound raw types
            = ((s.pull routed raw types).1, { bound with emitted := bound.emitted + n },
                (s.pull routed raw types).2.2) ∧
          (s.pull routed raw types).2.1 = { routed with emitted := routed.emitted + n }) ∧
      (raw.source.bind (s.registry r).find? = none →
        s.pull routed raw types
          = if routed.settings.isSome && routed.destination.isSome
            then (.ok .noOutput, routed, s.warn (.unresolved raw.source))
            else ((s.pull bound raw types).1, routed, s))) ∧
    ∀ (before after : List Action) (e : Ref .encoder) (r : Ref .registry) (q₀ : Passthrough) (settings : Settings)
      (o : Ref .output) (p : Ref .pipeline) (t : Session),
      (∀ x ∈ ({} : Session).steps before, x.isSound = true) → (∀ a ∈ before, a.Uncounted) →
      (({} : Session).run before).encoder? e = some (.passthrough q₀) → q₀.binding = .routed r →
      (∀ p' y, (({} : Session).run before).pipeline? p' = some y → y.encoder ≠ e) →
      (({} : Session).run before).addPipeline e settings o = (.ok p, t) →
      (∀ a ∈ after, a.Spares e ∧ a.Uncounted) →
      (∀ x ∈ scenes (({} : Session).steps before) t after, x.isFair p r = true) →
      (offersOf p o (t.moments after)).map Offer.payload
        = ((scenes (({} : Session).steps before) t after).filterMap (Scene.carried? p)).map EncodedFrame.payload := by
  refine ⟨fun codec config index turns turns' r id s₀ t₀ s raw types hcalls => ⟨fun hraw hreg => ?_, fun hnone => ?_⟩,
    fun before after e r q₀ settings o p t hsound hbefore he hrouted hfree hmade hspares hfair => ?_⟩
  · exact pull_routed_eq_bound hcalls s₀ t₀ s hraw hreg types
  · exact pull_routed_of_unresolved hcalls s₀ t₀ s hnone types
  · exact (Tends.addPipeline hsound hbefore he hrouted hfree hmade).run after hfair hspares

/-- Settings for small H.264 pictures. -/
def smallSettings : Settings := ⟨.h264, 640, 480, 30, []⟩

/-- An encoder is set up and connected; meanwhile sources come. -/
def setUpAmongSources : List Turn :=
  [⟨fun s => (s.addSource ⟨1⟩ {}).2, .init smallSettings⟩, ⟨fun s => (s.addSource ⟨1⟩ {}).2, .connect ⟨⟨1⟩, none⟩⟩]

/-- Two sources, a routed encoder and an output. -/
def twoToRoute : List Action :=
  [.addRegistry, .addOutput (.collector #[]), .addSource ⟨1⟩ {}, .addSource ⟨1⟩ {},
    .addEncoder (.passthrough (Passthrough.make (.routed ⟨1⟩) .h264 {} none))]

/-- The session with a pipeline around the encoder. -/
def routedPair : Session := ((({} : Session).run twoToRoute).addPipeline ⟨1⟩ smallSettings ⟨1⟩).2

/-- A frame of one byte. -/
def frameOf (source : RoutingId) (byte : UInt8) : Action :=
  .capture source { width := 640, height := 480, isKey := true } [byte] 1

/-- The pipeline is attached to both sources, which then push in turn. -/
def pushedInTurn : List Action :=
  [.attach ⟨1⟩ ⟨1⟩, .attach ⟨1⟩ ⟨2⟩, frameOf ⟨2⟩ 0x65, frameOf ⟨1⟩ 0x66, frameOf ⟨1⟩ 0x67, frameOf ⟨2⟩ 0x68]

/-- A raw frame of the first source. -/
def rawOfFirst : RawFrame := { picture := Picture.black 2 2, timestamp := ⟨1, false⟩, source := some ⟨1⟩ }

/-- An encoder after it was set up and connected. -/
def setUpEncoder (b : Binding) : Passthrough :=
  ({} : Session).passthroughAfter (.make b .h264 {} none) setUpAmongSources

/-- A frame waits in the first source. -/
def oneToRoute : Session := ({} : Session).run (twoToRoute ++ [frameOf ⟨1⟩ 0x65])

theorem routed_as_bound_pushedInTurn :
    rawOfFirst.source = some ⟨1⟩ ∧ (oneToRoute.registry ⟨1⟩).find? ⟨1⟩ = some ⟨1⟩ ∧
    (oneToRoute.pull (setUpEncoder (.bound ⟨1⟩)) rawOfFirst []).2.2
      = (oneToRoute.pull (setUpEncoder (.routed ⟨1⟩)) rawOfFirst []).2.2 ∧
    (({} : Session).pull (setUpEncoder (.routed ⟨1⟩)) rawOfFirst [.key]).1 = .ok .noOutput ∧
    (offersOf ⟨1⟩ ⟨1⟩ (routedPair.moments pushedInTurn)).map Offer.payload = [[0x65], [0x66], [0x67], [0x68]] := by
  have hpull := (routed_as_bound.1 .h264 {} none setUpAmongSources setUpAmongSources ⟨1⟩ ⟨1⟩ {} {} oneToRoute
    rawOfFirst [] rfl).1 rfl rfl
  have hnowhere := (routed_as_bound.1 .h264 {} none setUpAmongSources setUpAmongSources ⟨1⟩ ⟨1⟩ {} {} {} rawOfFirst
    [.key] rfl).2 rfl
  refine ⟨rfl, rfl, ?_, congrArg Prod.fst hnowhere, ?_⟩
  · obtain ⟨-, n, hn, -⟩ := hpull
    exact congrArg (fun x => x.2.2) hn
  · have hsound : ∀ x ∈ ({} : Session).steps twoToRoute, x.isSound = true := by decide +kernel
    have hbefore : ∀ a ∈ twoToRoute, a.Uncounted := by
      simp [twoToRoute, Action.Uncounted, Encoder.Within, Passthrough.Within, Passthrough.make]
    have hfree : ∀ p' y, (({} : Session).run twoToRoute).pipeline? p' = some y → y.encoder ≠ ⟨1⟩ := by
      intro p' y hy
      have hnone : (({} : Session).run twoToRoute).pipelines = {} := rfl
      rw [Session.pipeline?, hnone, Table.get?_empty] at hy
      cases hy
    have hspares : ∀ a ∈ pushedInTurn, a.Spares ⟨1⟩ ∧ a.Uncounted := by
      simp [pushedInTurn, frameOf, Action.Spares, Action.Uncounted]
    have hfair : ∀ x ∈ Session.scenes (({} : Session).steps twoToRoute) routedPair pushedInTurn,
        x.isFair ⟨1⟩ ⟨1⟩ = true := by decide +kernel
    have hoffers := routed_as_bound.2 twoToRoute pushedInTurn ⟨1⟩ ⟨1⟩ _ smallSettings ⟨1⟩ ⟨1⟩ routedPair hsound hbefore
      rfl rfl hfree rfl hspares hfair
    exact hoffers.trans (by decide +kernel)

/-- What the pipeline offers after other actions. -/
def offeredAfter (before after : List Action) : List Octets :=
  (offersOf ⟨1⟩ ⟨1⟩ (((({} : Session).run before).addPipeline ⟨1⟩ smallSettings ⟨1⟩).2.moments after)).map Offer.payload

/-- It takes all that: an encoder that is not set up fails instead of bringing nothing, a frame that waited comes
first, another pipeline that is attached before this one takes the frame, and a source that is not registered cannot
be found. -/
theorem routed_misses_unless_treated_well :
    (({} : Session).pull (.make (.routed ⟨1⟩) .h264 {} none) { rawOfFirst with source := none } []).1
      = .error (.uninitialized "init() has not been called") ∧
    offeredAfter twoToRoute [frameOf ⟨1⟩ 0x65, .attach ⟨1⟩ ⟨1⟩, frameOf ⟨1⟩ 0x66] = [[0x65]] ∧
    offeredAfter (twoToRoute ++ [.addEncoder (.passthrough (Passthrough.make (.bound ⟨1⟩) .h264 {} none))])
      [.addPipeline ⟨2⟩ smallSettings ⟨1⟩, .attach ⟨2⟩ ⟨1⟩, .attach ⟨1⟩ ⟨1⟩, frameOf ⟨1⟩ 0x65] = [] ∧
    offeredAfter (twoToRoute ++ [.addRegistry, .addSource ⟨2⟩ {}]) [.attach ⟨1⟩ ⟨3⟩, frameOf ⟨3⟩ 0x65] = [] := by
  refine ⟨rfl, ?_, ?_, ?_⟩ <;> decide +kernel

end EncodedFeed
