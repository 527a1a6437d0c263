import EncodedFeed.Proofs.Session.Conservation
import EncodedFeed.Proofs.Session.Moments
import EncodedFeed.Proofs.Table

/-!
# Asking sources for keyframes

A source that is asked for a keyframe notes it until the note is taken, and its watcher of the moment is told.
`Asks` says so of all sources that are asked in some events.  Calls and raw frames keep it, however many asks
they come to; the few beats that change watchers or take notes ask nobody (`heeds_beat`).
-/

namespace EncodedFeed

namespace Session

/-- The layers an observer was told of. -/
def told (s : Session) (o : Ref .observer) : List (Option Nat) :=
  ((s.observers.get? o.number).map Array.toList).getD []

/-- The observer is there. -/
def Listens (s : Session) (o : Ref .observer) : Prop := (s.observers.get? o.number).isSome = true

/-- What an observer is told if a source is asked: the layer, given that it watches the source. -/
def heard (s : Session) (o : Ref .observer) (id : RoutingId) : Option (Option Nat) :=
  ((s.source? id).bind Source.watcher).bind fun w => if w.observer = o then some w.layer else none

end Session

/-- What a source knows of keyframe requests: who is told, and whether there was one. -/
def Source.attention (src : Source) : Option Watcher × Bool := (src.watcher, src.keyframeRequested)

/-- From `s` to `t` the events `es` happen: each source that is asked for a keyframe notes it, and its watcher is
told once for each time. -/
structure Asks (es : List Event) (s t : Session) : Prop where
  journal : t.journal = es.reverse ++ s.journal
  source (id : RoutingId) : (t.source? id).map Source.attention
    = (s.source? id).map fun src => (src.watcher, src.keyframeRequested || (askedIn es).contains id)
  listens (o : Ref .observer) : s.Listens o → t.Listens o
  told (o : Ref .observer) : s.Listens o → t.told o = s.told o ++ (askedIn es).filterMap (s.heard o)

namespace Asks

variable {s t u : Session} {es es' : List Event}

theorem watcher (h : Asks es s t) (id : RoutingId) :
    (t.source? id).bind Source.watcher = (s.source? id).bind Source.watcher := by
  have hsource := h.source id
  cases hs : s.source? id with
  | none =>
    rw [hs, Option.map_none, Option.map_eq_none_iff] at hsource
    rw [hsource]
  | some src =>
    rw [hs, Option.map_some, Option.map_eq_some_iff] at hsource
    obtain ⟨src', hs', heq⟩ := hsource
    rw [hs']
    exact congrArg Prod.fst heq

theorem heard (h : Asks es s t) (o : Ref .observer) : t.heard o = s.heard o := by
  funext id
  unfold Session.heard
  rw [h.watcher id]

theorem trans (h : Asks es s t) (h' : Asks es' t u) : Asks (es ++ es') s u where
  journal := by rw [h'.journal, h.journal, List.reverse_append, List.append_assoc]
  source id := by
    have hfirst := h.source id
    have hthen := h'.source id
    cases hs : s.source? id with
    | none =>
      rw [hs, Option.map_none, Option.map_eq_none_iff] at hfirst
      rwa [hfirst] at hthen
    | some src =>
      rw [hs, Option.map_some, Option.map_eq_some_iff] at hfirst
      obtain ⟨src', hs', heq⟩ := hfirst
      simp only [Source.attention, Prod.mk.injEq] at heq
      rw [hthen, hs', Option.map_some, Option.map_some, heq.1, heq.2, askedIn_append, List.contains_append,
        Bool.or_assoc]
  listens o ho := h'.listens o (h.listens o ho)
  told o ho := by
    rw [h'.told o (h.listens o ho), h.told o ho, h.heard, askedIn_append, List.filterMap_append,
      List.append_assoc]

/-- Nobody is asked, and nothing changes that has to do with it. -/
theorem quiet (hj : t.journal = es.reverse ++ s.journal) (hes : askedIn es = [])
    (hs : ∀ id, (t.source? id).map Source.attention = (s.source? id).map Source.attention)
    (ho : ∀ o : Ref .observer, s.Listens o → t.observers.get? o.number = s.observers.get? o.number) :
    Asks es s t where
  journal := hj
  source id := by
    rw [hs, hes]
    simp only [List.contains_nil, Bool.or_false]
    rfl
  listens o h := by
    unfold Session.Listens
    rw [ho o h]
    exact h
  told o h := by
    rw [hes, List.filterMap_nil, List.append_nil, Session.told, ho o h]
    rfl

/-- A change that touches neither the journal nor sources nor observers. -/
theorem elsewhere (hj : t.journal = s.journal) (hs : t.sources = s.sources) (ho : t.observers = s.observers) :
    Asks [] s t := by
  apply quiet hj rfl
  · intro id
    rw [Session.source?, hs]
    rfl
  · intro o _
    rw [ho]

theorem modifySource (s : Session) (id : RoutingId) {f : Source → Source}
    (hf : ∀ src, (f src).attention = src.attention) : Asks [] s (s.modifySource id f) := by
  refine quiet rfl rfl ?_ fun _ _ => rfl
  intro i
  rw [Session.source?_modifySource]
  split
  · rw [Option.map_map]
    exact congrArg (Option.map · _) (funext hf)
  · rfl

/-- Noting an event that is no request. -/
theorem note (s : Session) {e : Event} (he : e.asked? = none) : Asks [e] s (s.note e) := by
  apply quiet
  · rfl
  · simp only [askedIn, List.filterMap_cons, he, List.filterMap_nil]
  · exact fun _ => rfl
  · exact fun _ _ => rfl

theorem warn (s : Session) (w : Warning) : Asks [.warned w] s (s.warn w) := note s rfl

/-! ### Requests -/

theorem sources_requestKeyframe (s : Session) (id : RoutingId) :
    (s.requestKeyframe id).sources = (s.modifySource id Source.requestKeyframe).sources ∧
    (s.requestKeyframe id).journal = .asked id :: s.journal := by
  unfold Session.requestKeyframe
  dsimp only
  split <;> exact ⟨rfl, rfl⟩

theorem watcher_requested (s : Session) (id : RoutingId) :
    ((s.modifySource id Source.requestKeyframe).source? id).bind Source.watcher
      = (s.source? id).bind Source.watcher := by
  rw [Session.source?_modifySource, if_pos rfl]
  cases s.source? id <;> rfl

/-- **A request** is noted by the source, and its watcher is told. -/
theorem requestKeyframe (s : Session) (id : RoutingId) : Asks [.asked id] s (s.requestKeyframe id) where
  journal := (sources_requestKeyframe s id).2
  source i := by
    have hsource : (s.requestKeyframe id).source? i = (s.modifySource id Source.requestKeyframe).source? i := by
      rw [Session.source?, (sources_requestKeyframe s id).1]
      rfl
    have hasked : (askedIn [.asked id]).contains i = decide (i = id) := by
      simp [askedIn, Event.asked?]
    rw [hsource, Session.source?_modifySource, hasked]
    by_cases hi : id = i
    · subst hi
      rw [if_pos rfl]
      cases s.source? id with
      | none => rfl
      | some src => simp [Source.attention, Source.requestKeyframe]
    · have hne : decide (i = id) = false := decide_eq_false fun heq => hi heq.symm
      rw [if_neg hi, hne]
      simp only [Bool.or_false]
      rfl
  listens o ho := by
    unfold Session.requestKeyframe
    dsimp only
    split
    · exact ho
    · unfold Session.Listens at ho ⊢
      rw [Table.get?_modify]
      split
      · rw [Option.isSome_map]
        exact ho
      · exact ho
  told o ho := by
    have hasked : askedIn [.asked id] = [id] := rfl
    obtain ⟨xs, hxs⟩ := Option.isSome_iff_exists.mp ho
    rw [hasked, List.filterMap_cons, List.filterMap_nil, Session.heard, ← watcher_requested s id]
    unfold Session.requestKeyframe
    have hnoted : ((s.modifySource id Source.requestKeyframe).note (.asked id)).source? id
        = (s.modifySource id Source.requestKeyframe).source? id := rfl
    dsimp only
    rw [hnoted]
    cases ((s.modifySource id Source.requestKeyframe).source? id).bind Source.watcher with
    | none => exact (List.append_nil _).symm
    | some w =>
      dsimp only [Option.bind_some]
      by_cases hw : w.observer = o
      · subst hw
        rw [if_pos rfl]
        simp [Session.told, Table.get?_modify, hxs, Session.modifySource, Session.note]
      · have hnum : w.observer.number ≠ o.number := fun heq => hw (congrArg Ref.mk heq)
        rw [if_neg hw, List.append_nil, Session.told, Table.get?_modify, if_neg hnum]
        rfl

/-! ### Calls and raw frames -/

theorem take (s : Session) (id : RoutingId) : ∃ es, Asks es s (s.take id).2 := by
  unfold Session.take
  split
  · exact ⟨[], elsewhere rfl rfl rfl⟩
  · have htaken : Asks [] s (s.modifySource id fun src => src.take.2) := by
      apply modifySource
      intro src
      unfold Source.take
      split <;> rfl
    exact ⟨_, htaken.trans (note _ rfl)⟩

theorem present (s : Session) (d : Destination) (i : EmittedImage) : ∃ es, Asks es s (s.present d i).2 := by
  have hnoted : ∀ refusal, Asks [.presented d.output i refusal] s
      ((s.modifyOutput d.output fun o => (o.offer i).2).note (.presented d.output i refusal)) := by
    intro refusal
    have hout : Asks [] s (s.modifyOutput d.output fun o => (o.offer i).2) := elsewhere rfl rfl rfl
    exact hout.trans (note _ rfl)
  unfold Session.present
  dsimp only
  split
  · exact ⟨_, (hnoted _).trans (elsewhere rfl rfl rfl)⟩
  · exact ⟨_, hnoted _⟩

theorem append : ∀ {s t u : Session}, (∃ es, Asks es s t) → (∃ es, Asks es t u) → ∃ es, Asks es s u :=
  fun ⟨_, h⟩ ⟨_, h'⟩ => ⟨_, h.trans h'⟩

theorem kept : Kept fun s t => ∃ es, Asks es s t where
  refl _ := ⟨[], elsewhere rfl rfl rfl⟩
  trans := append
  warn s w := ⟨_, warn s w⟩
  ask s id := ⟨_, requestKeyframe s id⟩
  passOn := Session.passOn_of_parts (R := fun s t => ∃ es, Asks es s t) append (fun s w => ⟨_, warn s w⟩) take
    present
  fallback _ _ _ := ⟨[], elsewhere rfl rfl rfl⟩
  encoder _ _ _ := ⟨[], elsewhere rfl rfl rfl⟩

theorem carried : Carried fun s t => ∃ es, Asks es s t where
  refl := kept.refl
  trans := kept.trans
  warn := kept.warn
  call := kept.call
  drop _ _ := ⟨[], elsewhere rfl rfl rfl⟩
  pipeline _ _ _ _ := ⟨[], elsewhere rfl rfl rfl⟩
  recorder _ _ _ := ⟨[], elsewhere rfl rfl rfl⟩
  pump s id _ _ := ⟨[], modifySource s id fun _ => rfl⟩

theorem register (s : Session) (r : Ref .registry) (id source : RoutingId) :
    ∃ es, Asks es s (s.register r id source).2 ∧ askedIn es = [] := by
  unfold Session.register
  split
  · exact ⟨_, warn s _, rfl⟩
  · exact ⟨[], elsewhere rfl rfl rfl, rfl⟩

end Asks

/-! ### Beats -/

/-- The request noted by a source is taken. -/
def Beat.consumes (id : RoutingId) : Beat → Bool
  | act (.consumeKeyframeRequest i) => i = id
  | _ => false

/-- From `s` to `t` the events `es` happen: watchers are told of the requests in them, and sources know of these
and of older requests that are not taken meanwhile. -/
structure Heeds (b : Beat) (es : List Event) (s t : Session) : Prop where
  journal : t.journal = es.reverse ++ s.journal
  told (o : Ref .observer) : s.Listens o → t.told o = s.told o ++ (askedIn es).filterMap (s.heard o)
  source (id : RoutingId) (src : Source) : s.source? id = some src → ∃ src', t.source? id = some src' ∧
    src'.keyframeRequested = ((src.keyframeRequested && !b.consumes id) || (askedIn es).contains id)

namespace Heeds

variable {s t : Session} {es : List Event} {b : Beat}

theorem of_asks (h : Asks es s t) (hb : ∀ id, b.consumes id = false) : Heeds b es s t where
  journal := h.journal
  told := h.told
  source id src hs := by
    have hsource := h.source id
    rw [hs, Option.map_some, Option.map_eq_some_iff] at hsource
    obtain ⟨src', hs', heq⟩ := hsource
    refine ⟨src', hs', ?_⟩
    rw [hb id, Bool.not_false, Bool.and_true]
    exact congrArg Prod.snd heq

/-- A change of a source that asks nobody. -/
theorem modifySource (s : Session) (i : RoutingId) {f : Source → Source}
    (hf : ∀ src, (f src).keyframeRequested = (src.keyframeRequested && !b.consumes i))
    (hb : ∀ id, i ≠ id → b.consumes id = false) : Heeds b [] s (s.modifySource i f) where
  journal := rfl
  told o _ := (List.append_nil _).symm
  source id src hs := by
    have hnone : (askedIn []).contains id = false := rfl
    rw [Session.source?_modifySource, hs, hnone, Bool.or_false]
    by_cases hi : i = id
    · subst hi
      exact ⟨f src, if_pos rfl, hf src⟩
    · refine ⟨src, if_neg hi, ?_⟩
      rw [hb id hi, Bool.not_false, Bool.and_true]

end Heeds

namespace Session

/-- A new source is none of those that were there. -/
theorem heeds_addSource (s : Session) (r : Ref .registry) (c : SourceConfig) :
    ∃ es, Heeds (.act (.addSource r c)) es s (s.addSource r c).2 := by
  set t : Session := { s with sources := s.sources.add (Source.ofConfig c r) }
  obtain ⟨es, hes, hnobody⟩ := Asks.register t r ⟨s.sources.next⟩ ⟨s.sources.next⟩
  have hregistered : Heeds (.act (.addSource r c)) es t (s.addSource r c).2 := .of_asks hes fun _ => rfl
  refine ⟨es, hregistered.journal, ?_, ?_⟩
  · intro o ho
    have htold := hregistered.told o ho
    rw [hnobody] at htold ⊢
    exact htold
  · intro id src hs
    exact hregistered.source id src (Table.get?_add_of_some hs _)

theorem heeds_dropHandle (s : Session) (i : RoutingId) :
    ∃ es, Heeds (.act (.dropHandle i)) es s (s.dropHandle i) := by
  have hmodify : ∀ (t : Session) {f : Source → Source}, (∀ src, (f src).keyframeRequested = src.keyframeRequested) →
      Heeds (.act (.dropHandle i)) [] t (t.modifySource i f) := by
    intro t f hf
    apply Heeds.modifySource
    · intro src
      rw [hf src]
      exact (Bool.and_true _).symm
    · exact fun _ _ => rfl
  unfold dropHandle
  split
  · exact ⟨[], .of_asks (.elsewhere rfl rfl rfl) fun _ => rfl⟩
  · next src _ =>
    split
    · exact ⟨[], hmodify s fun _ => rfl⟩
    · have hclosed := hmodify (s.unregister src.home i).2 (f := fun src => { src.close with handles := 0 }) fun _ => rfl
      exact ⟨[], hclosed.journal, hclosed.told, hclosed.source⟩

/-- What an action that hands out nothing asks of sources. -/
theorem heeds_perform (s : Session) {a : Action} (ha : a.handsOut = false) :
    ∃ es, Heeds (.act a) es s (s.perform a).2 := by
  have h := Asks.carried
  have hasks : ∀ {t : Session}, (∃ es, Asks es s t) → (∀ id, (Beat.act a).consumes id = false) →
      ∃ es, Heeds (.act a) es s t := fun ⟨es, hes⟩ hb => ⟨es, .of_asks hes hb⟩
  have haside : ∀ {t : Session}, t.journal = s.journal → t.sources = s.sources → t.observers = s.observers →
      ∃ es, Asks es s t := fun hj hs ho => ⟨[], .elsewhere hj hs ho⟩
  cases a with
  | addSource r c => exact s.heeds_addSource r c
  | dropHandle id => exact s.heeds_dropHandle id
  | consumeKeyframeRequest id =>
    refine ⟨[], Heeds.modifySource s id ?_ ?_⟩
    · intro src
      simp [Beat.consumes, Source.consumeKeyframeRequest]
    · intro i hi
      simp [Beat.consumes, hi]
  | watch id w =>
    refine ⟨[], Heeds.modifySource s id ?_ fun _ _ => rfl⟩
    exact fun src => (Bool.and_true _).symm
  | addObserver =>
    refine hasks ⟨[], .quiet rfl rfl (fun _ => rfl) ?_⟩ fun _ => rfl
    intro o ho
    obtain ⟨xs, hxs⟩ := Option.isSome_iff_exists.mp ho
    rw [hxs]
    exact Table.get?_add_of_some hxs _
  | addHandle id => exact hasks ⟨[], .modifySource s id fun _ => rfl⟩ fun _ => rfl
  | requestKeyframe id => exact hasks (Asks.kept.ask s id) fun _ => rfl
  | take id => exact hasks (Asks.take s id) fun _ => rfl
  | register r id source =>
    obtain ⟨es, hes, -⟩ := Asks.register s r id source
    exact ⟨es, .of_asks hes fun _ => rfl⟩
  | addTap id tap => exact hasks (h.pump s id (fun p => (p.addTap tap).2) fun _ => rfl) fun _ => rfl
  | removeTap id tap => exact hasks (h.pump s id (fun p => p.removeTap tap) fun _ => rfl) fun _ => rfl
  | call e c => exact hasks (h.call s e c) fun _ => rfl
  | attach p id => exact hasks (h.attach s p id) fun _ => rfl
  | detach p => exact hasks (h.detach s p) fun _ => rfl
  | hintRate p hint => exact hasks (h.hintRate s p hint) fun _ => rfl
  | addPipeline e settings o =>
    refine hasks (h.addPipeline ?_ s e settings o) fun _ => rfl
    exact fun _ _ => ⟨[], .elsewhere rfl rfl rfl⟩
  | dropPipeline p =>
    refine hasks (h.dropPipeline ?_ s p) fun _ => rfl
    exact fun _ _ => ⟨[], .elsewhere rfl rfl rfl⟩
  | capture | push | emit | pushRaw => cases ha
  | _ => exact hasks (haside rfl rfl rfl) fun _ => rfl

/-- **In each beat, requests are noted and told of.** -/
theorem heeds_beat (s : Session) {b : Beat} (hb : b.Does fun _ => True) : ∃ es, Heeds b es s (s.beat b) := by
  have h := Asks.carried
  have hasks : ∀ {t : Session}, (∃ es, Asks es s t) → (∀ id, b.consumes id = false) → ∃ es, Heeds b es s t :=
    fun ⟨es, hes⟩ hb => ⟨es, .of_asks hes hb⟩
  cases b with
  | act a => exact s.heeds_perform hb.1
  | warn w => exact hasks (h.warn s w) fun _ => rfl
  | enter id f =>
    have hentered : Asks [] s (s.modifySource id fun src => src.enqueue f) := .modifySource s id fun _ => rfl
    refine hasks (h.trans ⟨_, hentered.trans (.note _ rfl)⟩ (h.checkDepth _ id)) fun _ => rfl
  | stamp id capture now => exact hasks (h.pump s id (fun p => (p.stamp capture now).2) fun _ => rfl) fun _ => rfl
  | hand raw tap => exact hasks (h.deliver s raw tap) fun _ => rfl

end Session

end EncodedFeed
