import EncodedFeed.Proofs.Lane.Run

/-!
# Wiring a lane

A pipeline that is made around an encoder bound to an open source, and attached to that source as the first
to listen, makes a lane in working order.  What was there before stays as it was.
-/

namespace EncodedFeed

theorem Passthrough.init_ok {p q : Passthrough} {settings : Settings} (h : p.init settings = .ok q) :
    q = { p with
      settings := some settings
      layer := p.pinned <|> settings.matchingStream?
      sending := true } := by
  unfold init at h
  split at h
  · cases h
  · split at h
    · cases h
    · cases h
      rfl

namespace Session

variable {s t : Session} {e : Ref .encoder} {o : Ref .output} {pl : Ref .pipeline} {p : Passthrough}
  {settings : Settings}

/-- A pipeline around a passthrough encoder is made just if the encoder accepts the settings. -/
theorem addPipeline_ok (he : s.encoder? e = some (.passthrough p))
    (h : s.addPipeline e settings o = (.ok pl, t)) :
    ∃ q, p.init settings = .ok q ∧ pl = ⟨s.pipelines.next⟩ ∧
      t = { s with
        encoders := s.encoders.modify e.number fun _ => .passthrough (q.connect ⟨o, some pl⟩)
        pipelines := s.pipelines.add { encoder := e } } := by
  have hget : s.encoders.get? e.number = some (.passthrough p) := he
  cases hq : p.init settings with
  | error err =>
    have hinit : s.call e (.init settings) = (.error err, s.setEncoder e (.passthrough p)) := by
      simp only [call, he, callPassthrough, hq]
    simp only [addPipeline, hinit] at h
    cases h
  | ok q =>
    have hinit : s.call e (.init settings) = (.ok .noOutput, s.setEncoder e (.passthrough q)) := by
      simp only [call, he, callPassthrough, hq]
    have hset : (s.setEncoder e (.passthrough q)).encoder? e = some (.passthrough q) := by
      rw [encoder?, setEncoder, Table.get?_modify, if_pos rfl, hget, Option.map_some]
    have hconnect : (s.setEncoder e (.passthrough q)).call e (.connect ⟨o, some ⟨s.pipelines.next⟩⟩)
        = (.ok .noOutput, s.setEncoder e (.passthrough (q.connect ⟨o, some ⟨s.pipelines.next⟩⟩))) := by
      rw [call, hset]
      simp only [callPassthrough, setEncoder, Table.modify_modify]
    simp only [addPipeline, hinit, hconnect, Prod.mk.injEq, Except.ok.injEq] at h
    obtain ⟨rfl, rfl⟩ := h
    exact ⟨q, rfl, rfl, rfl⟩

/-- A pipeline that is attached to a source is its last tap. -/
theorem attach_snd {id : RoutingId} {src : Source} (h : s.source? id = some src) (pl : Ref .pipeline) :
    (s.attach pl id).2 = { s with
      sources := s.sources.modify id.number fun src =>
        { src with pump := (src.pump.addTap (.pipeline pl)).2 }
      pipelines := s.pipelines.modify pl.number fun x =>
        { x with attachments := x.attachments ++ [(id, src.pump.nextTap)] } } := by
  simp only [attach, addTap, h, Option.map_some, Option.getD_some]
  rfl

end Session

namespace Lane.State

/-- A lane that has just been made. -/
def start (a : Lane) (src : Source) (p : Passthrough) (out : Output) : State where
  source := { src with pump := (src.pump.addTap (.pipeline a.pipeline)).2 }
  pipeline := { encoder := a.encoder, attachments := [(a.source, src.pump.nextTap)] }
  encoder := p.connect ⟨a.output, some a.pipeline⟩
  output := out

theorem wired_start {a : Lane} {src : Source} {p q : Passthrough} {settings : Settings} (out : Output)
    (hopen : src.closed = false) (hrun : src.pump.ended = false) (htaps : src.pump.taps = [])
    (hb : p.binding = .bound a.source) (hq : p.init settings = .ok q) : (start a src q out).Wired a where
  live := hopen
  running := hrun
  taps := by simp [start, Pump.addTap, htaps]
  encoder := rfl
  binding := by rw [Passthrough.init_ok hq]; exact hb
  configured := by rw [Passthrough.init_ok hq]; rfl
  destination := rfl

/-- The lane is in working order, but nothing listens to its source yet. -/
structure Loose (a : Lane) (x : State) : Prop where
  live : x.source.closed = false
  running : x.source.pump.ended = false
  taps : x.source.pump.taps = []
  encoder : x.pipeline.encoder = a.encoder
  binding : x.encoder.binding = .bound a.source
  configured : x.encoder.settings.isSome = true
  destination : x.encoder.destination = some ⟨a.output, some a.pipeline⟩

/-- The lane after its pipeline was attached. -/
def attached (x : State) (a : Lane) : State where
  source := { x.source with pump := (x.source.pump.addTap (.pipeline a.pipeline)).2 }
  pipeline := { x.pipeline with
    attachments := x.pipeline.attachments ++ [(a.source, x.source.pump.nextTap)] }
  encoder := x.encoder
  output := x.output

/-- A lane whose pipeline has been made and is not attached to anything. -/
def made (a : Lane) (src : Source) (p : Passthrough) (out : Output) : State where
  source := src
  pipeline := { encoder := a.encoder }
  encoder := p.connect ⟨a.output, some a.pipeline⟩
  output := out

variable {a : Lane} {x y : State}

theorem loose_of_wiring_eq (h : y.wiring = x.wiring) (hx : x.Loose a) : y.Loose a where
  live := (congrArg (·.source.closed) h).trans hx.live
  running := (congrArg (·.source.pump.ended) h).trans hx.running
  taps := (congrArg (·.source.pump.taps) h).trans hx.taps
  encoder := (congrArg (·.pipeline.encoder) h).trans hx.encoder
  binding := (congrArg (·.encoder.binding) h).trans hx.binding
  configured := (congrArg (·.encoder.settings.isSome) h).trans hx.configured
  destination := (congrArg (·.encoder.destination) h).trans hx.destination

theorem wired_attached (h : x.Loose a) : (x.attached a).Wired a where
  live := h.live
  running := h.running
  taps := by simp [attached, Pump.addTap, h.taps]
  encoder := h.encoder
  binding := h.binding
  configured := h.configured
  destination := h.destination

theorem loose_made {src : Source} {p q : Passthrough} {settings : Settings} (out : Output)
    (hopen : src.closed = false) (hrun : src.pump.ended = false) (htaps : src.pump.taps = [])
    (hb : p.binding = .bound a.source) (hq : p.init settings = .ok q) : (made a src q out).Loose a where
  live := hopen
  running := hrun
  taps := htaps
  encoder := rfl
  binding := by rw [Passthrough.init_ok hq]; exact hb
  configured := by rw [Passthrough.init_ok hq]; rfl
  destination := rfl

end Lane.State

namespace Session

variable {s t : Session} {a b : Lane} {p : Passthrough} {settings : Settings} {src : Source} {out : Output}

/-- A pipeline that is made around a passthrough encoder. -/
theorem has_addPipeline (hs : s.source? a.source = some src)
    (he : s.encoder? a.encoder = some (.passthrough p)) (ho : s.output? a.output = some out)
    (h : s.addPipeline a.encoder settings a.output = (.ok a.pipeline, t)) :
    ∃ q, p.init settings = .ok q ∧ t.Has a (Lane.State.made a src q out) := by
  obtain ⟨q, hq, hpl, rfl⟩ := addPipeline_ok he h
  have hget : s.encoders.get? a.encoder.number = some (.passthrough p) := he
  refine ⟨q, hq, hs, ?_, ?_, ho⟩
  · simp only [pipeline?, hpl, Table.get?_add, if_true]
    rfl
  · simp only [encoder?, Table.get?_modify, if_true, hget, Option.map_some]
    rfl

theorem attach_eq_move {x : Lane.State} (h : s.Has a x) :
    (s.attach a.pipeline a.source).2 = s.move a (x.attached a) [] := by
  unfold attach
  dsimp only
  rw [addTap, h.source]
  dsimp only [Option.map_some, Option.getD_some]
  rw [modifyPump, modifySource_eq_move h, modifyPipeline_eq_move (has_move h), move_move]
  rfl

/-- **A pipeline that is attached makes a lane.** -/
theorem has_attach (hs : s.source? a.source = some src) (he : s.encoder? a.encoder = some (.passthrough p))
    (ho : s.output? a.output = some out)
    (h : s.addPipeline a.encoder settings a.output = (.ok a.pipeline, t)) :
    ∃ q, p.init settings = .ok q ∧
      (t.attach a.pipeline a.source).2.Has a (Lane.State.start a src q out) := by
  obtain ⟨q, hq, hmade⟩ := has_addPipeline hs he ho h
  refine ⟨q, hq, ?_⟩
  rw [attach_eq_move hmade]
  exact has_move hmade

/-- From `s` to `t` a pipeline has been made and attached to the source of a lane; what does not belong to the lane
has stayed as it was. -/
structure Attaches (s t : Session) (a : Lane) : Prop where
  outputs : t.outputs = s.outputs
  encoders : t.encoders.next = s.encoders.next
  pipelines : t.pipelines.next = s.pipelines.next + 1
  observers : t.observers = s.observers
  journal : t.journal = s.journal
  others (id : RoutingId) : id ≠ a.source → t.source? id = s.source? id

theorem attaches_of_addPipeline (hs : s.source? a.source = some src)
    (he : s.encoder? a.encoder = some (.passthrough p))
    (h : s.addPipeline a.encoder settings a.output = (.ok a.pipeline, t)) :
    Attaches s (t.attach a.pipeline a.source).2 a := by
  obtain ⟨q, -, -, ht⟩ := addPipeline_ok he h
  have hsource : t.source? a.source = some src := by
    rw [ht]
    exact hs
  rw [attach_snd hsource]
  subst ht
  refine ⟨rfl, Table.next_modify _ _ _, ?_, rfl, rfl, fun id hne => ?_⟩
  · rw [Table.next_modify, Table.next_add]
  · have hid : a.source.number ≠ id.number := fun heq => hne (congrArg RoutingId.mk heq).symm
    simp only [source?, Table.get?_modify, if_neg hid]

/-- A source to which nothing listens gives stamps all the same. -/
theorem emit_eq_move_of_loose {x : Lane.State} (h : s.Has a x) (hl : x.Loose a) (capture now : Int64) :
    (s.emit a.source capture now).2 = s.move a (x.stamped capture now) [] := by
  have hstamp : s.modifyPump a.source (fun _ => (x.source.pump.stamp capture now).2)
      = s.move a (x.stamped capture now) [] := modifySource_eq_move h _
  have htaps : (x.stamped capture now).source.pump.taps = [] := hl.taps
  unfold emit
  rw [h.source]
  dsimp only
  rw [hstamp, pushRaw, (has_move h).source]
  dsimp only
  rw [htaps]
  split <;> rfl

/-- A frame that is pushed into a source to which nothing listens waits there. -/
theorem push_eq_move_of_loose {x : Lane.State} (h : s.Has a x) (hl : x.Loose a) (f : EncodedFrame)
    (now : Int64) :
    s.push a.source f now
      = (true, s.move a ((x.enqueued f).stamped f.captureUs now)
          (.pushed a.source f :: (x.enqueued f).depthWarning a)) := by
  have hin : (s.modifySource a.source fun src => src.enqueue f).note (.pushed a.source f)
      = s.move a (x.enqueued f) [.pushed a.source f] := by
    rw [modifySource_eq_move h, note_eq_move (has_move h), move_move]
    rfl
  have henq : (x.enqueued f).Loose a :=
    ⟨hl.live, hl.running, hl.taps, hl.encoder, hl.binding, hl.configured, hl.destination⟩
  unfold push
  rw [h.source]
  dsimp only
  rw [hl.live, if_neg Bool.false_ne_true, hin, checkDepth_eq_move (has_move h), move_move,
    emit_eq_move_of_loose (has_move h) henq, move_move]
  simp only [List.append_nil]
  rfl

/-- A lane that was there before is apart from one whose pipeline is new. -/
theorem has_attach_of_ne {y : Lane.State} (hb : s.Has b y) (hs : s.source? a.source = some src)
    (he : s.encoder? a.encoder = some (.passthrough p))
    (h : s.addPipeline a.encoder settings a.output = (.ok a.pipeline, t))
    (hsource : a.source ≠ b.source) (hencoder : a.encoder ≠ b.encoder) :
    a.pipeline ≠ b.pipeline ∧ (t.attach a.pipeline a.source).2.Has b y := by
  obtain ⟨q, hq, hpl, ht⟩ := addPipeline_ok he h
  have hp : s.pipelines.get? b.pipeline.number = some y.pipeline := hb.pipeline
  have hbs : s.sources.get? b.source.number = some y.source := hb.source
  have hn : s.encoders.get? b.encoder.number = some (.passthrough y.encoder) := hb.encoder
  have hpipeline : a.pipeline ≠ b.pipeline := fun heq => by
    rw [← heq, hpl, Table.get?_next] at hp
    cases hp
  have hpne : a.pipeline.number ≠ b.pipeline.number := fun heq => hpipeline (congrArg Ref.mk heq)
  have hsne : a.source.number ≠ b.source.number := fun heq => hsource (congrArg RoutingId.mk heq)
  have hene : a.encoder.number ≠ b.encoder.number := fun heq => hencoder (congrArg Ref.mk heq)
  have hts : t.source? a.source = some src := by rw [ht]; exact hs
  rw [attach_snd hts]
  subst ht
  refine ⟨hpipeline, ?_, ?_, ?_, hb.output⟩
  · simp only [source?, Table.get?_modify, if_neg hsne, hbs]
  · simp only [pipeline?, Table.get?_modify, if_neg hpne, Table.get?_add_of_some hp]
  · simp only [encoder?, Table.get?_modify, if_neg hene, hn]

end Session

end EncodedFeed
