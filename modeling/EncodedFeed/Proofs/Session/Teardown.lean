import EncodedFeed.Proofs.Lane.Wiring
import EncodedFeed.Proofs.Session.Asking

/-!
# Teardown is absorbing

A source whose last handle has been dropped stays as it is left: closed, with an empty queue, no watcher and a
pump that has ended.  `Rests` says so of the changes between two sessions, and that no frame of the source is
moved meanwhile; calls and raw frames keep it, since all they can still do to the source is to note a keyframe
request, to give a stamp and to add or remove taps.  Only a watcher could still be set, and that takes a handle.

The queue, the pump and the watcher are what everything else goes by, so whoever still holds the source, a
registry that leads to it, an encoder or a pipeline gets the same answers ever after (`Inert`).
-/

namespace EncodedFeed

/-- The event moves a frame into the queue of a source or out of it. -/
def Event.moves (id : RoutingId) : Event → Bool
  | pushed i _ => i = id
  | taken i _ => i = id
  | _ => false

/-- How a source is left when its last handle is dropped. -/
structure Source.Ended (src : Source) : Prop where
  queue : src.queue = []
  closed : src.closed = true
  ended : src.pump.ended = true
  watcher : src.watcher = none

theorem Source.ended_close (src : Source) : src.close.Ended := ⟨rfl, rfl, rfl, rfl⟩

namespace Session

/-- The source is there, and has ended. -/
def Ended (s : Session) (id : RoutingId) : Prop := ∃ src, s.source? id = some src ∧ src.Ended

variable {s t : Session} {id : RoutingId}

theorem Ended.queue (h : s.Ended id) : s.queue id = [] := by
  obtain ⟨src, hs, hsrc⟩ := h
  rw [Session.queue, hs, Option.map_some, Option.getD_some, hsrc.queue]

theorem Ended.of_sources_eq (h : s.Ended id) (hst : t.sources = s.sources) : t.Ended id := by
  obtain ⟨src, hs, hsrc⟩ := h
  refine ⟨src, ?_, hsrc⟩
  rw [source?, hst]
  exact hs

theorem Ended.modifySource (h : s.Ended id) (i : RoutingId) {f : Source → Source}
    (hf : i = id → ∀ src : Source, src.Ended → (f src).Ended) : (s.modifySource i f).Ended id := by
  obtain ⟨src, hs, hsrc⟩ := h
  by_cases hi : i = id
  · refine ⟨f src, ?_, hf hi src hsrc⟩
    rw [source?_modifySource, if_pos hi, hs, Option.map_some]
  · refine ⟨src, ?_, hsrc⟩
    rw [source?_modifySource, if_neg hi, hs]

theorem ended_dropHandle {src : Source} (hs : s.source? id = some src) (hlast : src.handles ≤ 1) :
    (s.dropHandle id).Ended id := by
  have hnot : ¬ src.handles > 1 := Nat.not_lt.mpr hlast
  have hthere : (s.unregister src.home id).2.source? id = some src := hs
  refine ⟨{ src.close with handles := 0 }, ?_, src.ended_close.1, rfl, rfl, rfl⟩
  rw [dropHandle, hs]
  dsimp only
  rw [if_neg hnot, source?_modifySource, if_pos rfl, hthere, Option.map_some]

end Session

/-! ### What calls and raw frames do -/

/-- From `s` to `t` the events `es` happen; none moves a frame of the source, and in the end it has ended. -/
structure Rests (id : RoutingId) (es : List Event) (s t : Session) : Prop where
  journal : t.journal = es.reverse ++ s.journal
  moves : ∀ e ∈ es, e.moves id = false
  ended : t.Ended id

namespace Rests

variable {s t u : Session} {id : RoutingId} {es es' : List Event}

theorem trans (h : Rests id es s t) (h' : Rests id es' t u) : Rests id (es ++ es') s u where
  journal := by rw [h'.journal, h.journal, List.reverse_append, List.append_assoc]
  moves e he := by
    rcases List.mem_append.mp he with he | he
    · exact h.moves e he
    · exact h'.moves e he
  ended := h'.ended

/-- Nothing happens, and sources stay as they are. -/
theorem elsewhere (hs : s.Ended id) (hj : t.journal = s.journal) (hst : t.sources = s.sources) :
    Rests id [] s t := ⟨hj, fun _ he => (nomatch he), hs.of_sources_eq hst⟩

theorem modifySource (hs : s.Ended id) (i : RoutingId) {f : Source → Source}
    (hf : i = id → ∀ src : Source, src.Ended → (f src).Ended) : Rests id [] s (s.modifySource i f) :=
  ⟨rfl, fun _ he => (nomatch he), hs.modifySource i hf⟩

theorem note (hs : s.Ended id) {e : Event} (he : e.moves id = false) : Rests id [e] s (s.note e) where
  journal := rfl
  moves e' he' := by
    rw [List.mem_singleton.mp he']
    exact he
  ended := hs

theorem warn (hs : s.Ended id) (w : Warning) : Rests id [.warned w] s (s.warn w) := note hs rfl

theorem requestKeyframe (hs : s.Ended id) (i : RoutingId) :
    ∃ es, Rests id es s (s.requestKeyframe i) := by
  have hnoted : Rests id [.asked i] s ((s.modifySource i Source.requestKeyframe).note (.asked i)) := by
    have hmod := modifySource (f := Source.requestKeyframe) hs i fun _ src hsrc => ⟨hsrc.1, hsrc.2, hsrc.3, hsrc.4⟩
    exact hmod.trans (note hmod.ended rfl)
  unfold Session.requestKeyframe
  dsimp only
  split
  · exact ⟨_, hnoted⟩
  · exact ⟨_, hnoted.trans (elsewhere hnoted.ended rfl rfl)⟩

/-- A frame that is taken is one of another source. -/
theorem take (hs : s.Ended id) (i : RoutingId) : ∃ es, Rests id es s (s.take i).2 := by
  by_cases hi : i = id
  · subst hi
    rw [Session.take_of_queue_nil hs.queue]
    exact ⟨[], elsewhere hs rfl rfl⟩
  · unfold Session.take
    split
    · exact ⟨[], elsewhere hs rfl rfl⟩
    · have hmod := modifySource (f := fun src => src.take.2) hs i fun heq => absurd heq hi
      exact ⟨_, hmod.trans (note hmod.ended (decide_eq_false hi))⟩

theorem present (hs : s.Ended id) (d : Destination) (i : EmittedImage) :
    ∃ es, Rests id es s (s.present d i).2 := by
  obtain ⟨hst, hj, -⟩ := s.present_snd d i
  refine ⟨[.presented d.output i (s.present d i).1], hj, ?_, hs.of_sources_eq hst⟩
  intro e he
  rw [List.mem_singleton.mp he]
  rfl

theorem append : ∀ {s t u : Session}, (s.Ended id → ∃ es, Rests id es s t) →
    (t.Ended id → ∃ es, Rests id es t u) → s.Ended id → ∃ es, Rests id es s u := by
  intro s t u h h' hs
  obtain ⟨es, hes⟩ := h hs
  obtain ⟨es', hes'⟩ := h' hes.ended
  exact ⟨_, hes.trans hes'⟩

theorem kept (id : RoutingId) : Kept fun s t => s.Ended id → ∃ es, Rests id es s t where
  refl _ hs := ⟨[], elsewhere hs rfl rfl⟩
  trans := append
  warn _ w hs := ⟨_, warn hs w⟩
  ask _ i hs := requestKeyframe hs i
  passOn := Session.passOn_of_parts (R := fun s t => s.Ended id → ∃ es, Rests id es s t) append
    (fun _ w hs => ⟨_, warn hs w⟩) (fun _ i hs => take hs i) fun _ d i hs => present hs d i
  fallback _ _ _ hs := ⟨[], elsewhere hs rfl rfl⟩
  encoder _ _ _ hs := ⟨[], elsewhere hs rfl rfl⟩

theorem carried (id : RoutingId) : Carried fun s t => s.Ended id → ∃ es, Rests id es s t where
  refl := (kept id).refl
  trans := (kept id).trans
  warn := (kept id).warn
  call := (kept id).call
  drop _ _ hs := ⟨[], elsewhere hs rfl rfl⟩
  pipeline _ _ _ _ hs := ⟨[], elsewhere hs rfl rfl⟩
  recorder _ _ _ hs := ⟨[], elsewhere hs rfl rfl⟩
  pump s i f hf hs := by
    refine ⟨[], modifySource hs i fun _ src hsrc => ⟨hsrc.queue, hsrc.closed, ?_, hsrc.watcher⟩⟩
    exact (hf src.pump).trans hsrc.ended

theorem register (hs : s.Ended id) (r : Ref .registry) (i src : RoutingId) :
    ∃ es, Rests id es s (s.register r i src).2 := by
  unfold Session.register
  split
  · exact ⟨_, warn hs _⟩
  · exact ⟨[], elsewhere hs rfl rfl⟩

/-- A new source is not the one that has ended. -/
theorem addSource (hs : s.Ended id) (r : Ref .registry) (c : SourceConfig) :
    ∃ es, Rests id es s (s.addSource r c).2 := by
  have hadded : Session.Ended { s with sources := s.sources.add (Source.ofConfig c r) } id := by
    obtain ⟨src, hthere, hsrc⟩ := hs
    exact ⟨src, Table.get?_add_of_some hthere _, hsrc⟩
  obtain ⟨es, hes⟩ := register hadded r ⟨s.sources.next⟩ ⟨s.sources.next⟩
  exact ⟨es, hes.journal, hes.moves, hes.ended⟩

/-- Nothing is left to be done when another handle is dropped. -/
theorem dropHandle (hs : s.Ended id) (i : RoutingId) : ∃ es, Rests id es s (s.dropHandle i) := by
  unfold Session.dropHandle
  split
  · exact ⟨[], elsewhere hs rfl rfl⟩
  · next src _ =>
    split
    · exact ⟨[], modifySource hs i fun _ src hsrc => ⟨hsrc.1, hsrc.2, hsrc.3, hsrc.4⟩⟩
    · have hleft : Rests id [] s (s.unregister src.home i).2 := elsewhere hs rfl rfl
      exact ⟨_, hleft.trans (modifySource hleft.ended i fun _ src _ => ⟨rfl, rfl, rfl, rfl⟩)⟩

end Rests

/-! ### Beats -/

/-- The beat brings the source no frame, is no raw frame of it and gives it no watcher. -/
def Beat.Avoids (id : RoutingId) : Beat → Prop
  | act a => a.handsOut = false ∧ ∀ w, a ≠ .watch id w
  | enter i _ => i ≠ id
  | hand raw _ => raw.source ≠ some id
  | _ => True

namespace Session

variable {s : Session} {id : RoutingId}

theorem rests_perform (hs : s.Ended id) {a : Action} (ha : a.handsOut = false) (hw : ∀ w, a ≠ .watch id w) :
    ∃ es, Rests id es s (s.perform a).2 := by
  have h := Rests.carried id
  have haside : ∀ {t : Session}, t.journal = s.journal → t.sources = s.sources → ∃ es, Rests id es s t :=
    fun hj hst => ⟨[], .elsewhere hs hj hst⟩
  have hmodify : ∀ (i : RoutingId) {f : Source → Source}, (∀ src : Source, src.Ended → (f src).Ended) →
      ∃ es, Rests id es s (s.modifySource i f) := fun i _ hf => ⟨[], .modifySource hs i fun _ => hf⟩
  cases a with
  | addSource r c => exact Rests.addSource hs r c
  | register r i src => exact Rests.register hs r i src
  | dropHandle i => exact Rests.dropHandle hs i
  | addHandle i | consumeKeyframeRequest i =>
    apply hmodify i
    exact fun src hsrc => ⟨hsrc.1, hsrc.2, hsrc.3, hsrc.4⟩
  | watch i w =>
    refine ⟨[], .modifySource hs i fun heq => ?_⟩
    subst heq
    exact absurd rfl (hw w)
  | requestKeyframe i => exact Rests.requestKeyframe hs i
  | take i => exact Rests.take hs i
  | addTap i tap => exact h.pump s i (fun p => (p.addTap tap).2) (fun _ => rfl) hs
  | removeTap i tap => exact h.pump s i (fun p => p.removeTap tap) (fun _ => rfl) hs
  | call e c => exact h.call s e c hs
  | attach p i => exact h.attach s p i hs
  | detach p => exact h.detach s p hs
  | hintRate p hint => exact h.hintRate s p hint hs
  | addPipeline e settings o =>
    refine h.addPipeline ?_ s e settings o hs
    exact fun _ _ hs => ⟨[], .elsewhere hs rfl rfl⟩
  | dropPipeline p =>
    refine h.dropPipeline ?_ s p hs
    exact fun _ _ hs => ⟨[], .elsewhere hs rfl rfl⟩
  | capture | push | emit | pushRaw => cases ha
  | _ => exact haside rfl rfl

/-- **A beat that avoids a source that has ended** leaves it so. -/
theorem rests_beat (hs : s.Ended id) {b : Beat} (hb : b.Avoids id) : ∃ es, Rests id es s (s.beat b) := by
  have h := Rests.carried id
  cases b with
  | act a => exact rests_perform hs hb.1 hb.2
  | warn w => exact ⟨_, Rests.warn hs w⟩
  | enter i f =>
    have hqueued := Rests.modifySource (f := fun src => src.enqueue f) hs i fun heq => absurd heq hb
    have hnoted := hqueued.trans (Rests.note (e := .pushed i f) hqueued.ended (decide_eq_false hb))
    obtain ⟨es, hchecked⟩ := h.checkDepth _ i hnoted.ended
    exact ⟨_, hnoted.trans hchecked⟩
  | stamp i capture now => exact h.pump s i (fun p => (p.stamp capture now).2) (fun _ => rfl) hs
  | hand raw tap => exact h.deliver s raw tap hs

theorem avoids_handings {src : Source} {i : RoutingId} (h : i = id → src.pump.ended = true) (picture : Picture)
    (t : Stamped Int64) : ∀ b ∈ handings src i picture t, b.Avoids id := by
  intro b hb
  unfold handings at hb
  split at hb
  · cases hb
  · next hrunning =>
    obtain ⟨tap, -, rfl⟩ := List.mem_map.mp hb
    intro heq
    exact hrunning (h (Option.some.inj heq))

theorem avoids_emission (hs : s.Ended id) (i : RoutingId) (capture now : Int64) :
    ∀ b ∈ s.emission i capture now, b.Avoids id := by
  obtain ⟨src, hthere, hsrc⟩ := hs
  unfold emission
  split
  · exact fun _ hb => (nomatch hb)
  · next src' hi =>
    have hended : i = id → src'.pump.ended = true := by
      intro heq
      rw [heq, hthere, Option.some.injEq] at hi
      rw [← hi]
      exact hsrc.ended
    intro b hb
    rcases List.mem_cons.mp hb with rfl | hb
    · trivial
    · exact avoids_handings hended _ _ b hb

theorem avoids_entry (hs : s.Ended id) (i : RoutingId) (f : EncodedFrame) (now : Int64) :
    ∀ b ∈ s.entry i f now, b.Avoids id := by
  have hemission := avoids_emission hs i f.captureUs now
  obtain ⟨src, hthere, hsrc⟩ := hs
  unfold entry
  split
  · exact fun _ hb => (nomatch hb)
  · next src' hi =>
    split
    · exact fun _ hb => (nomatch hb)
    · next hopen =>
      intro b hb
      rcases List.mem_cons.mp hb with rfl | hb
      · rintro rfl
        rw [hthere, Option.some.injEq] at hi
        rw [← hi] at hopen
        exact hopen hsrc.closed
      · exact hemission b hb

/-- A source that has ended gets no frame and hands out nothing, whatever is tried. -/
theorem avoids_beats (hs : s.Ended id) {a : Action} (hw : ∀ w, a ≠ .watch id w) :
    ∀ b ∈ s.beats a, b.Avoids id := by
  have hact : a.handsOut = false → ∀ b ∈ [Beat.act a], b.Avoids id := by
    intro ha b hb
    rw [List.mem_singleton.mp hb]
    exact ⟨ha, hw⟩
  cases a with
  | capture i tags payload now =>
    unfold beats
    dsimp only
    split
    · intro b hb
      rw [List.mem_singleton.mp hb]
      trivial
    · exact avoids_entry hs i _ now
  | push i f now => exact avoids_entry hs i f now
  | emit i capture now => exact avoids_emission hs i capture now
  | pushRaw i picture t =>
    obtain ⟨src, hthere, hsrc⟩ := hs
    unfold beats
    dsimp only
    split
    · exact fun _ hb => (nomatch hb)
    · next src' hi =>
      apply avoids_handings
      intro heq
      rw [heq, hthere, Option.some.injEq] at hi
      rw [← hi]
      exact hsrc.ended
  | _ => exact hact rfl

/-! ### Runs -/

theorem ended_play {bs : List Beat} (hbs : ∀ b ∈ bs, b.Avoids id) (hs : s.Ended id) :
    (bs.foldl beat s).Ended id ∧ ∀ m ∈ s.play bs, m.before.Ended id ∧ m.beat.Avoids id := by
  induction bs generalizing s with
  | nil => exact ⟨hs, fun _ hm => (nomatch hm)⟩
  | cons b rest ih =>
    have hb := hbs b List.mem_cons_self
    obtain ⟨es, hes⟩ := rests_beat hs hb
    obtain ⟨hend, hrest⟩ := ih (fun b' hb' => hbs b' (List.mem_cons_of_mem _ hb')) hes.ended
    refine ⟨hend, fun m hm => ?_⟩
    rcases List.mem_cons.mp hm with rfl | hm
    · exact ⟨hs, hb⟩
    · exact hrest m hm

/-- **A source that has ended stays so through a run**, and every moment of the run avoids it. -/
theorem ended_run {actions : List Action} (hw : ∀ w, Action.watch id w ∉ actions) (hs : s.Ended id) :
    (s.run actions).Ended id ∧ ∀ m ∈ s.moments actions, m.before.Ended id ∧ m.beat.Avoids id := by
  induction actions generalizing s with
  | nil => exact ⟨hs, fun _ hm => (nomatch hm)⟩
  | cons a rest ih =>
    have ha : ∀ w, a ≠ .watch id w := by
      rintro w rfl
      exact hw w List.mem_cons_self
    obtain ⟨hend, hfirst⟩ := ended_play (avoids_beats hs ha) hs
    rw [← perform_eq_beats] at hend
    obtain ⟨hend, hrest⟩ := ih (fun w hin => hw w (List.mem_cons_of_mem _ hin)) hend
    refine ⟨hend, fun m hm => ?_⟩
    rcases List.mem_append.mp hm with hm | hm
    · exact hfirst m hm
    · exact hrest m hm

end Session

/-! ### Answers -/

/-- The encoder is set up and connected, and takes from a source when it is pulled with a raw frame.  A lazy
encoder that has not chosen yet will choose passthrough, as the frame carries a registered id. -/
inductive Session.PullsFrom (s : Session) (raw : RawFrame) (id : RoutingId) : Encoder → Prop
  | passthrough {p : Passthrough} (ready : p.settings.isSome) (connected : p.destination.isSome)
    (resolved : s.resolve p.binding raw = some id) : s.PullsFrom raw id (.passthrough p)
  | chosen {l : Lazy} {p : Passthrough} (ready : l.settings.isSome) (connected : l.destination.isSome)
    (chosen : l.chosen = some (.passthrough p)) (inner : s.PullsFrom raw id (.passthrough p)) :
    s.PullsFrom raw id (.lazy l)
  | undecided {l : Lazy} {settings : Settings} {q : Passthrough} (ready : l.settings = some settings)
    (valid : l.passthrough.init settings = .ok q) (connected : l.destination.isSome) (chosen : l.chosen = none)
    (resolved : s.resolve (.routed l.registry) raw = some id) : s.PullsFrom raw id (.lazy l)

/-- A source is still there, but nothing comes of it: it accepts no frame and gives none, hands out no raw frame
and tells nobody, and whatever encoder or pipeline turns to it comes away with nothing. -/
structure Session.Inert (s : Session) (id : RoutingId) : Prop where
  source : ∃ src, s.source? id = some src ∧ src.queue = [] ∧ src.closed = true ∧ src.pump.ended = true ∧
    src.watcher = none
  capture (tags : FrameTags) (payload : Octets) (now : Int64) : (s.capture id tags payload now).1 = false
  push (f : EncodedFrame) (now : Int64) : s.push id f now = (false, s)
  take : s.take id = (none, s)
  pushRaw (picture : Picture) (t : Stamped Int64) : s.pushRaw id picture t = s
  observers : (s.requestKeyframe id).observers = s.observers
  pull (p : Passthrough) (raw : RawFrame) (types : List FrameType) : s.PullsFrom raw id (.passthrough p) →
    s.pull p raw types = (.ok .noOutput, p, if types.contains .key then s.requestKeyframe id else s)
  call (e : Ref .encoder) (x : Encoder) (raw : RawFrame) (types : List FrameType) : s.encoder? e = some x →
    s.PullsFrom raw id x → (s.call e (.pull raw types)).1 = .ok .noOutput
  feed (p : Ref .pipeline) (x : Pipeline) (y : Encoder) (raw : RawFrame) : s.pipeline? p = some x →
    s.encoder? x.encoder = some y → s.PullsFrom raw id y →
    (s.feed p raw).pipeline? p = some { x with
      keyframePending := false
      stats := { x.stats with pulls := x.stats.pulls + 1, emptyPulls := x.stats.emptyPulls + 1 } }

namespace Session

variable {s : Session} {id : RoutingId}

theorem heard_of_ended (hs : s.Ended id) (o : Ref .observer) : s.heard o id = none := by
  obtain ⟨src, hthere, hsrc⟩ := hs
  rw [heard, hthere, Option.bind_some, hsrc.watcher, Option.bind_none]

theorem push_of_ended (hs : s.Ended id) (f : EncodedFrame) (now : Int64) : s.push id f now = (false, s) := by
  obtain ⟨src, hthere, hsrc⟩ := hs
  rw [push, hthere]
  exact if_pos hsrc.closed

theorem capture_of_ended (hs : s.Ended id) (tags : FrameTags) (payload : Octets) (now : Int64) :
    (s.capture id tags payload now).1 = false := by
  unfold capture
  split
  · rfl
  · rw [push_of_ended hs]

theorem pushRaw_of_ended (hs : s.Ended id) (picture : Picture) (t : Stamped Int64) :
    s.pushRaw id picture t = s := by
  obtain ⟨src, hthere, hsrc⟩ := hs
  rw [pushRaw, hthere]
  exact if_pos hsrc.ended

theorem requestKeyframe_of_ended (hs : s.Ended id) :
    s.requestKeyframe id = (s.modifySource id Source.requestKeyframe).note (.asked id) := by
  have hwatcher := Asks.watcher_requested s id
  obtain ⟨src, hthere, hsrc⟩ := hs
  rw [hthere, Option.bind_some, hsrc.watcher] at hwatcher
  have hnoted : ((s.modifySource id Source.requestKeyframe).note (.asked id)).source? id
      = (s.modifySource id Source.requestKeyframe).source? id := rfl
  rw [requestKeyframe, hnoted, hwatcher]

theorem pull_of_ended (hs : s.Ended id) {p : Passthrough} {raw : RawFrame}
    (hp : s.PullsFrom raw id (.passthrough p)) (types : List FrameType) :
    s.pull p raw types = (.ok .noOutput, p, if types.contains .key then s.requestKeyframe id else s) := by
  obtain ⟨hready, hconnected, hresolved⟩ := hp
  obtain ⟨settings, hsettings⟩ := Option.isSome_iff_exists.mp hready
  obtain ⟨d, hd⟩ := Option.isSome_iff_exists.mp hconnected
  have hqueue : (if types.contains .key then s.requestKeyframe id else s).queue id = [] := by
    split
    · obtain ⟨_, hes⟩ := Rests.requestKeyframe hs id
      exact hes.ended.queue
    · exact hs.queue
  rw [pull, hsettings, hd]
  dsimp only
  rw [hresolved]
  dsimp only
  rw [passOn, take_of_queue_nil hqueue]
  split <;> rfl

/-- A lazy encoder that chooses passthrough passes on what it has kept; whatever the rate, the encoder it has
chosen is then set up and connected. -/
theorem choose_passthrough {l : Lazy} {raw : RawFrame} {settings : Settings} {q : Passthrough} {d : Destination}
    (hready : l.settings = some settings) (hvalid : l.passthrough.init settings = .ok q)
    (hd : l.destination = some d) (hresolved : s.resolve (.routed l.registry) raw = some id) :
    ∃ q', s.choose l raw
        = (.ok .noOutput, { l with mode := .passthrough, chosen := some (.passthrough q') }, s) ∧
      s.PullsFrom raw id (.passthrough q') := by
  have hregistered : s.isRegistered l.registry raw = true := by
    obtain ⟨i, hi, hfound⟩ := Option.bind_eq_some_iff.mp hresolved
    rw [isRegistered, hi, Option.any_some, Registry.contains, hfound, Option.isSome_some]
  have hq := Passthrough.init_ok hvalid
  have hsettings : q.settings.isSome := by rw [hq]; rfl
  have hbinding : s.resolve q.binding raw = some id := by rw [hq]; exact hresolved
  rw [choose, if_pos hregistered, settle]
  cases l.rate with
  | none =>
    refine ⟨q.connect d, ?_, .passthrough hsettings rfl hbinding⟩
    simp only [Lazy.kept, hready, hd, Option.toList_some, Option.toList_none, List.map_cons, List.map_nil,
      List.cons_append, List.nil_append, callAll, callChosen, callPassthrough, hvalid]
  | some hint =>
    refine ⟨(q.connect d).setRate hint, ?_, .passthrough hsettings rfl hbinding⟩
    simp only [Lazy.kept, hready, hd, Option.toList_some, List.map_cons, List.map_nil,
      List.cons_append, List.nil_append, callAll, callChosen, callPassthrough, hvalid]

/-- The encoder a lazy one chooses comes away with nothing either. -/
theorem pullLazy_of_ended (hs : s.Ended id) {l : Lazy} {raw : RawFrame} (hl : s.PullsFrom raw id (.lazy l))
    (types : List FrameType) : (s.pullLazy l raw types).1 = .ok .noOutput ∧
      (s.pullLazy l raw types).2.2 = if types.contains .key then s.requestKeyframe id else s := by
  have hset : l.settings.isSome → l.destination.isSome → (l.settings.isNone || l.destination.isNone) = false := by
    intro hsettings hdestination
    rw [Option.isNone_eq_false_iff.mpr hsettings, Option.isNone_eq_false_iff.mpr hdestination]
    rfl
  cases hl with
  | @chosen _ p hready hconnected hchosen hp =>
    have hpull := pull_of_ended hs hp types
    unfold pullLazy
    rw [hset hready hconnected, hchosen]
    simp only [Bool.false_eq_true, if_false, Option.isSome_some, if_true, forward, hchosen, callChosen,
      callPassthrough, hpull, and_self]
  | @undecided _ settings q hready hvalid hconnected hchosen hresolved =>
    obtain ⟨d, hd⟩ := Option.isSome_iff_exists.mp hconnected
    have hsome : l.settings.isSome := by rw [hready]; rfl
    obtain ⟨q', hchoice, hq'⟩ := choose_passthrough hready hvalid hd hresolved
    have hpull := pull_of_ended hs hq' types
    unfold pullLazy
    rw [hset hsome hconnected, hchosen, hchoice]
    simp only [Bool.false_eq_true, if_false, Option.isSome_none, forward, callChosen, callPassthrough, hpull,
      and_self]

theorem call_of_ended (hs : s.Ended id) {e : Ref .encoder} {x : Encoder} {raw : RawFrame}
    (he : s.encoder? e = some x) (hx : s.PullsFrom raw id x) (types : List FrameType) :
    (s.call e (.pull raw types)).1 = .ok .noOutput ∧
      (s.call e (.pull raw types)).2.pipelines = s.pipelines := by
  have hpipelines : (if types.contains .key then s.requestKeyframe id else s).pipelines = s.pipelines := by
    split
    · rw [requestKeyframe_of_ended hs]
      rfl
    · rfl
  unfold call
  rw [he]
  cases x with
  | passthrough p =>
    dsimp only [callPassthrough]
    rw [pull_of_ended hs hx]
    exact ⟨rfl, hpipelines⟩
  | lazy l =>
    obtain ⟨hresult, hsession⟩ := pullLazy_of_ended hs hx types
    dsimp only [callLazy]
    refine ⟨hresult, ?_⟩
    rw [← hpipelines, ← hsession]
    rfl

/-- A raw frame has a pipeline pull in vain. -/
theorem feed_of_ended (hs : s.Ended id) {p : Ref .pipeline} {x : Pipeline} {y : Encoder} {raw : RawFrame}
    (hp : s.pipeline? p = some x) (hy : s.encoder? x.encoder = some y) (hpulls : s.PullsFrom raw id y) :
    (s.feed p raw).pipeline? p = some { x with
      keyframePending := false
      stats := { x.stats with pulls := x.stats.pulls + 1, emptyPulls := x.stats.emptyPulls + 1 } } := by
  set t := s.modifyPipeline p fun x =>
    { x with keyframePending := false, stats := { x.stats with pulls := x.stats.pulls + 1 } } with ht
  set timed : RawFrame := { raw with rtp := raw.timestamp.map rtpOfMicros } with htimed
  have hended : t.Ended id := hs.of_sources_eq rfl
  have hsame : t.PullsFrom timed id y := by
    cases hpulls with
    | passthrough hready hconnected hresolved => exact .passthrough hready hconnected hresolved
    | chosen hready hconnected hchosen hinner =>
      obtain ⟨h1, h2, h3⟩ := hinner
      exact .chosen hready hconnected hchosen (.passthrough h1 h2 h3)
    | undecided hready hvalid hconnected hchosen hresolved =>
      exact .undecided hready hvalid hconnected hchosen hresolved
  obtain ⟨hresult, hpipelines⟩ := call_of_ended hended (e := x.encoder) hy hsame [x.nextType]
  have hcounted : s.feed p raw = (t.call x.encoder (.pull timed [x.nextType])).2.count p fun c =>
      { c with emptyPulls := c.emptyPulls + 1 } := by
    rw [feed, hp]
    dsimp only
    rw [← ht, ← htimed, hresult]
    rfl
  have hget : s.pipelines.get? p.number = some x := hp
  rw [hcounted, pipeline?, count, modifyPipeline, Table.get?_modify, if_pos rfl, hpipelines, ht, modifyPipeline,
    Table.get?_modify, if_pos rfl, hget]
  rfl

/-- **A source that has ended is inert.** -/
theorem inert_of_ended (hs : s.Ended id) : s.Inert id where
  source := by
    obtain ⟨src, hthere, hsrc⟩ := hs
    exact ⟨src, hthere, hsrc.queue, hsrc.closed, hsrc.ended, hsrc.watcher⟩
  capture := capture_of_ended hs
  push := push_of_ended hs
  take := take_of_queue_nil hs.queue
  pushRaw := pushRaw_of_ended hs
  observers := by
    rw [requestKeyframe_of_ended hs]
    rfl
  pull p raw types hp := pull_of_ended hs hp types
  call e x raw types he hx := (call_of_ended hs he hx types).1
  feed p x y raw hp hy hpulls := feed_of_ended hs hp hy hpulls

end Session

/-- **Teardown is absorbing.**  When the last handle of a source has been dropped, it is inert in every session a
run goes through from then on, as long as no watcher is set, which takes a handle.  Meanwhile none of its frames is
moved, no raw frame of it reaches a tap, and what observers are told comes from requests to other sources. -/
theorem teardown_absorbs {s : Session} {id : RoutingId} {src : Source} (hs : s.source? id = some src)
    (hlast : src.handles ≤ 1) {actions : List Action} (hw : ∀ w, Action.watch id w ∉ actions) :
    ((s.dropHandle id).run actions).Inert id ∧
    ∀ m ∈ (s.dropHandle id).moments actions, m.before.Inert id ∧
      (∀ raw tap, m.beat = .hand raw tap → raw.source ≠ some id) ∧
      (∀ e ∈ m.events, e.moves id = false) ∧
      ∀ o, m.before.Listens o → m.after.told o
        = m.before.told o ++ ((askedIn m.events).filter (· ≠ id)).filterMap (m.before.heard o) := by
  obtain ⟨hend, hmoments⟩ := Session.ended_run hw (Session.ended_dropHandle hs hlast)
  refine ⟨Session.inert_of_ended hend, fun m hm => ?_⟩
  obtain ⟨hended, havoids⟩ := hmoments m hm
  refine ⟨Session.inert_of_ended hended, ?_, ?_, ?_⟩
  · intro raw tap hbeat
    rw [hbeat] at havoids
    exact havoids
  · obtain ⟨es, hes⟩ := Session.rests_beat hended havoids
    have hevents : m.events = es := Session.eventsSince_eq hes.journal
    rw [hevents]
    exact hes.moves
  · intro o ho
    have hdoes : m.beat.Does fun _ => True := Session.does_of_mem_moments (fun _ _ => trivial) hm
    obtain ⟨es, hes⟩ := m.before.heeds_beat hdoes
    have hevents : m.events = es := Session.eventsSince_eq hes.journal
    have htold : m.after.told o = _ := hes.told o ho
    have hothers : (fun i => if decide (i ≠ id) then m.before.heard o i else none) = m.before.heard o := by
      funext i
      by_cases hi : i = id
      · subst hi
        rw [Session.heard_of_ended hended]
        split <;> rfl
      · exact if_pos (decide_eq_true hi)
    rw [htold, hevents, List.filterMap_filter, hothers]

/-- A source with a frame waiting, an observer and a pipeline that another source feeds too. -/
def stillHeld : Session :=
  ({} : Session).run
    [.addRegistry, .addOutput (.collector #[]), .addObserver, .addSource ⟨1⟩ {}, .addSource ⟨1⟩ {},
      .watch ⟨1⟩ (some ⟨⟨1⟩, none⟩),
      .addEncoder (.passthrough (Passthrough.make (.bound ⟨1⟩) .h264 {} none)),
      .addPipeline ⟨1⟩ ⟨.h264, 640, 480, 30, []⟩ ⟨1⟩, .attach ⟨1⟩ ⟨2⟩,
      .capture ⟨1⟩ { width := 640, height := 480, isKey := true } [0x65] 1]

/-- Attempts to bring the first source back. -/
def lateCalls : List Action :=
  [.capture ⟨1⟩ { width := 640, height := 480, isKey := true } [0x65] 2, .requestKeyframe ⟨1⟩, .take ⟨1⟩,
    .attach ⟨1⟩ ⟨1⟩, .pushRaw ⟨1⟩ (Picture.black 2 2) ⟨3, false⟩, .register ⟨1⟩ ⟨1⟩ ⟨1⟩, .wantKeyframe ⟨1⟩,
    .capture ⟨2⟩ { width := 640, height := 480, isKey := true } [0x65] 4, .dropPipeline ⟨1⟩]

theorem teardown_absorbs_lateCalls :
    ∃ src, stillHeld.source? ⟨1⟩ = some src ∧ src.handles ≤ 1 ∧ src.queue.length = 1 ∧
      (∀ w, Action.watch ⟨1⟩ w ∉ lateCalls) ∧
      ((stillHeld.dropHandle ⟨1⟩).run lateCalls).Inert ⟨1⟩ ∧
      ∀ m ∈ (stillHeld.dropHandle ⟨1⟩).moments lateCalls, m.before.Inert ⟨1⟩ ∧
        (∀ raw tap, m.beat = .hand raw tap → raw.source ≠ some ⟨1⟩) ∧
        (∀ e ∈ m.events, e.moves ⟨1⟩ = false) ∧
        ∀ o, m.before.Listens o → m.after.told o
          = m.before.told o ++ ((askedIn m.events).filter (· ≠ ⟨1⟩)).filterMap (m.before.heard o) := by
  have hw : ∀ w, Action.watch ⟨1⟩ w ∉ lateCalls := by
    intro w
    simp [lateCalls]
  exact ⟨_, rfl, Nat.le_refl 1, rfl, hw, teardown_absorbs rfl (Nat.le_refl 1) hw⟩

end EncodedFeed
