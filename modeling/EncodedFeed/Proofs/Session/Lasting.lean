import EncodedFeed.Proofs.Session.Kept
import EncodedFeed.Proofs.Session.Moments

/-!
# What no action changes

A source gets its codec and its resolution when it is made.  Whatever is done afterwards, by whomever, it keeps both
(`Lasting`), also when it has been closed: the sources of a session are never renumbered and never forgotten.  And
only recording writes to files: no action touches a file or a recording.

What a source stamps by lasts almost as long: only a stamp changes it (`LastingUnstamped`).
-/

namespace EncodedFeed

/-- What a source is made with and never loses. -/
def Source.nature (src : Source) : Codec × Resolution := (src.codec, src.resolution)

/-- What a source is made with and only stamps change. -/
def Source.dial (src : Source) : UInt64 × Aligner := (src.warnDepth, src.pump.aligner)

/-- The pump of a source gives a stamp. -/
def Beat.isStamp : Beat → Bool
  | stamp .. => true
  | _ => false

/-- The sources there were are there still, and are what they were; so are all files and recordings. -/
structure Lasting (s t : Session) : Prop where
  source (id : RoutingId) (x : Codec × Resolution) :
    (s.source? id).map Source.nature = some x → (t.source? id).map Source.nature = some x
  files : t.files = s.files
  recordings : t.recordings = s.recordings

/-- The sources there were are there still, and no stamp has been given. -/
structure LastingUnstamped (s t : Session) : Prop where
  source (id : RoutingId) (src : Source) : s.source? id = some src →
    ∃ src', t.source? id = some src' ∧ src'.nature = src.nature ∧ src'.dial = src.dial
  files : t.files = s.files
  recordings : t.recordings = s.recordings

namespace LastingUnstamped

variable {s t u : Session}

theorem trans (h : LastingUnstamped s t) (h' : LastingUnstamped t u) : LastingUnstamped s u where
  source id src hs := by
    obtain ⟨src', ht, hnature, hdial⟩ := h.source id src hs
    obtain ⟨src'', hu, hnature', hdial'⟩ := h'.source id src' ht
    exact ⟨src'', hu, hnature'.trans hnature, hdial'.trans hdial⟩
  files := h'.files.trans h.files
  recordings := h'.recordings.trans h.recordings

theorem of_eq (h : t.sources = s.sources) (hf : t.files = s.files) (hr : t.recordings = s.recordings) :
    LastingUnstamped s t := by
  refine ⟨fun id src hs => ⟨src, ?_, rfl, rfl⟩, hf, hr⟩
  rw [Session.source?, h]
  exact hs

theorem modifySource (s : Session) (id : RoutingId) {f : Source → Source}
    (hf : ∀ src, (f src).nature = src.nature ∧ (f src).dial = src.dial) :
    LastingUnstamped s (s.modifySource id f) := by
  refine ⟨fun i src hs => ?_, rfl, rfl⟩
  rw [Session.source?_modifySource, hs]
  split
  · exact ⟨f src, rfl, hf src⟩
  · exact ⟨src, rfl, rfl, rfl⟩

theorem requestKeyframe (s : Session) (id : RoutingId) : LastingUnstamped s (s.requestKeyframe id) := by
  have hasked : LastingUnstamped s (s.modifySource id Source.requestKeyframe) :=
    modifySource s id fun _ => ⟨rfl, rfl⟩
  unfold Session.requestKeyframe
  dsimp only
  split <;> exact hasked.trans (of_eq rfl rfl rfl)

theorem take (s : Session) (id : RoutingId) : LastingUnstamped s (s.take id).2 := by
  unfold Session.take
  split
  · exact of_eq rfl rfl rfl
  · have htaken : LastingUnstamped s (s.modifySource id fun src => src.take.2) := by
      apply modifySource
      intro src
      unfold Source.take
      split <;> exact ⟨rfl, rfl⟩
    exact htaken.trans (of_eq rfl rfl rfl)

theorem present (s : Session) (d : Destination) (i : EmittedImage) : LastingUnstamped s (s.present d i).2 := by
  unfold Session.present
  dsimp only
  split <;> exact of_eq rfl rfl rfl

theorem kept : Kept LastingUnstamped where
  refl _ := of_eq rfl rfl rfl
  trans := trans
  warn _ _ := of_eq rfl rfl rfl
  ask := requestKeyframe
  passOn := Session.passOn_of_parts trans (fun _ _ => of_eq rfl rfl rfl) take present
  fallback _ _ _ := of_eq rfl rfl rfl
  encoder _ _ _ := of_eq rfl rfl rfl

theorem carried : CarriedUnstamped LastingUnstamped where
  refl := kept.refl
  trans := trans
  warn := kept.warn
  call := kept.call
  drop _ _ := of_eq rfl rfl rfl
  pipeline _ _ _ _ := of_eq rfl rfl rfl
  recorder _ _ _ := of_eq rfl rfl rfl
  taps s id f hf := by
    refine modifySource s id fun src => ⟨rfl, ?_⟩
    exact congrArg (src.warnDepth, ·) (hf src.pump).2

theorem register (s : Session) (r : Ref .registry) (id source : RoutingId) :
    LastingUnstamped s (s.register r id source).2 := by
  unfold Session.register
  split <;> exact of_eq rfl rfl rfl

/-- A new source takes nobody's place. -/
theorem addSource (s : Session) (r : Ref .registry) (c : SourceConfig) :
    LastingUnstamped s (s.addSource r c).2 := by
  have hregistered := register { s with sources := s.sources.add (Source.ofConfig c r) } r ⟨s.sources.next⟩
    ⟨s.sources.next⟩
  refine ⟨fun id src hs => ⟨src, ?_, rfl, rfl⟩, hregistered.files, hregistered.recordings⟩
  rw [s.source?_addSource r c id, if_neg]
  · exact hs
  · rintro rfl
    have hnone : s.source? (s.addSource r c).1 = none := Table.get?_next s.sources
    rw [hnone] at hs
    cases hs

theorem dropHandle (s : Session) (id : RoutingId) : LastingUnstamped s (s.dropHandle id) := by
  unfold Session.dropHandle
  split
  · exact of_eq rfl rfl rfl
  · next src _ =>
    split
    · exact modifySource s id fun _ => ⟨rfl, rfl⟩
    · have hgone : LastingUnstamped s (s.unregister src.home id).2 := of_eq rfl rfl rfl
      exact hgone.trans (modifySource _ id fun _ => ⟨rfl, rfl⟩)

/-- An action that hands out nothing gives no stamp. -/
theorem perform (s : Session) {a : Action} (ha : a.handsOut = false) : LastingUnstamped s (s.perform a).2 := by
  have h := carried
  cases a with
  | addSource r c => exact addSource s r c
  | register r id source => exact register s r id source
  | addHandle id | consumeKeyframeRequest id | watch id w => exact modifySource s id fun _ => ⟨rfl, rfl⟩
  | dropHandle id => exact dropHandle s id
  | take id => exact take s id
  | requestKeyframe id => exact requestKeyframe s id
  | addTap id tap => exact h.taps s id (fun p => (p.addTap tap).2) fun _ => ⟨rfl, rfl⟩
  | removeTap id tap => exact h.taps s id (fun p => p.removeTap tap) fun _ => ⟨rfl, rfl⟩
  | call e c => exact h.call s e c
  | attach p id => exact h.attach s p id
  | detach p => exact h.detach s p
  | hintRate p hint => exact h.hintRate s p hint
  | addPipeline e settings o =>
    refine h.addPipeline ?_ s e settings o
    exact fun _ _ => of_eq rfl rfl rfl
  | dropPipeline p =>
    refine h.dropPipeline ?_ s p
    exact fun _ _ => of_eq rfl rfl rfl
  | capture | push | emit | pushRaw => cases ha
  | _ => exact of_eq rfl rfl rfl

/-- **Only the pump of a source gives stamps.** -/
theorem beat (s : Session) {b : Beat} (hb : b.Does fun _ => True) (hstamp : b.isStamp = false) :
    LastingUnstamped s (s.beat b) := by
  cases b with
  | act a => exact perform s hb.1
  | warn w => exact of_eq rfl rfl rfl
  | enter id f =>
    have hqueued : LastingUnstamped s (s.modifySource id fun src => src.enqueue f) :=
      modifySource s id fun _ => ⟨rfl, rfl⟩
    have hnoted := hqueued.trans
      (u := (s.modifySource id fun src => src.enqueue f).note (.pushed id f)) (of_eq rfl rfl rfl)
    exact hnoted.trans (carried.checkDepth _ id)
  | stamp id capture now => cases hstamp
  | hand raw tap => exact carried.deliver s raw tap

theorem lasting (h : LastingUnstamped s t) : Lasting s t where
  source id x hx := by
    obtain ⟨src, hs, rfl⟩ := Option.map_eq_some_iff.mp hx
    obtain ⟨src', ht, hnature, -⟩ := h.source id src hs
    rw [ht, Option.map_some, hnature]
  files := h.files
  recordings := h.recordings

end LastingUnstamped

namespace Lasting

variable {s t u : Session}

theorem refl (s : Session) : Lasting s s := ⟨fun _ _ h => h, rfl, rfl⟩

theorem trans (h : Lasting s t) (h' : Lasting t u) : Lasting s u :=
  ⟨fun id x hx => h'.source id x (h.source id x hx), h'.files.trans h.files, h'.recordings.trans h.recordings⟩

theorem stamp (s : Session) (id : RoutingId) (capture now : Int64) :
    Lasting s (s.beat (.stamp id capture now)) := by
  refine ⟨fun i x hx => ?_, rfl, rfl⟩
  rw [Session.beat, Session.modifyPump, Session.source?_modifySource]
  split
  · rw [Option.map_map, ← hx]
    rfl
  · exact hx

theorem beat (s : Session) {b : Beat} (hb : b.Does fun _ => True) : Lasting s (s.beat b) := by
  cases b with
  | stamp id capture now => exact stamp s id capture now
  | _ => exact (LastingUnstamped.beat s hb rfl).lasting

theorem linked {ms : List Moment} (h : Linked s ms t) (hms : ∀ m ∈ ms, m.beat.Does fun _ => True) :
    Lasting s t := by
  induction h with
  | nil s => exact refl s
  | @cons s t b ms _ ih =>
    have hfirst := hms _ List.mem_cons_self
    exact (beat s hfirst).trans (ih fun m hm => hms m (List.mem_cons_of_mem _ hm))

/-- **Nothing that is done to a session makes a source another.** -/
theorem run (actions : List Action) (s : Session) : Lasting s (s.run actions) :=
  linked (s.linked_moments actions) fun _ hm => Session.does_of_mem_moments (fun _ _ => trivial) hm

theorem perform (s : Session) (a : Action) : Lasting s (s.perform a).2 := run [a] s

end Lasting

end EncodedFeed
