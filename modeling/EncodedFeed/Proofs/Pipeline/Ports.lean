import EncodedFeed.Proofs.Pipeline.Attribution
import Mathlib.Tactic.Set

/-!
# Taps and attachments

Who gets the raw frames of a source is written down twice: the pump lists its taps, and each pipeline lists the
taps it has added.  Here is what every operation does to the two lists, and to the count of pulls: calls to
encoders touch none of them (`Untouched`), a raw frame that reaches a pipeline adds one to its pulls, and taps
come and go only when an application attaches, detaches or removes something.
-/

namespace EncodedFeed

/-- What decides who gets the raw frames of a source. -/
structure Port where
  closed : Bool
  ended : Bool
  taps : List (TapId × Tap)
  next : TapId

/-- The source as its taps see it. -/
def Source.port (src : Source) : Port := ⟨src.closed, src.pump.ended, src.pump.taps, src.pump.nextTap⟩

namespace Port

/-- A new tap. -/
def add (x : Port) (tap : Tap) : Port := { x with taps := x.taps ++ [(x.next, tap)], next := x.next + 1 }

/-- Some taps are removed. -/
def keep (x : Port) (stays : TapId × Tap → Bool) : Port := { x with taps := x.taps.filter stays }

/-- The source is closed. -/
def close (x : Port) : Port := { x with closed := true, ended := true, taps := [] }

end Port

namespace Session

variable {s t : Session}

/-- A source as its taps see it. -/
def port? (s : Session) (id : RoutingId) : Option Port := (s.source? id).map Source.port

/-- Taps a pipeline has added. -/
def attachments? (s : Session) (p : Ref .pipeline) : Option (List (RoutingId × TapId)) :=
  (s.pipeline? p).map Pipeline.attachments

/-- Pulls a pipeline has counted. -/
def pulls? (s : Session) (p : Ref .pipeline) : Option Nat := (s.pipeline? p).map fun x => x.stats.pulls

/-! ### Sources -/

theorem port?_of_sources_eq (h : t.sources = s.sources) (id : RoutingId) : t.port? id = s.port? id := by
  unfold port? source?
  rw [h]

theorem port?_modifySource (s : Session) (i : RoutingId) {f : Source → Source} {g : Port → Port}
    (hf : ∀ src, (f src).port = g src.port) (id : RoutingId) :
    (s.modifySource i f).port? id = if i = id then (s.port? id).map g else s.port? id := by
  unfold port?
  rw [source?_modifySource]
  split
  · rw [Option.map_map, Option.map_map]
    exact congrArg (fun h => (s.source? id).map h) (funext hf)
  · rfl

theorem port?_modifySource_of_eq (s : Session) (i : RoutingId) {f : Source → Source}
    (hf : ∀ src, (f src).port = src.port) (id : RoutingId) : (s.modifySource i f).port? id = s.port? id := by
  rw [s.port?_modifySource i (g := fun x => x) hf]
  split
  · exact Option.map_id'
  · rfl

theorem port?_take (s : Session) (i id : RoutingId) : (s.take i).2.port? id = s.port? id := by
  unfold take
  split
  · rfl
  · refine s.port?_modifySource_of_eq i (fun src => ?_) id
    unfold Source.take
    split <;> rfl

theorem sources_present (s : Session) (d : Destination) (i : EmittedImage) :
    (s.present d i).2.sources = s.sources := by
  unfold present
  dsimp only
  split <;> rfl

/-! ### Pipelines -/

theorem pipeline?_modifyPipeline (s : Session) (p' : Ref .pipeline) (f : Pipeline → Pipeline) (p : Ref .pipeline) :
    (s.modifyPipeline p' f).pipeline? p = if p' = p then (s.pipeline? p).map f else s.pipeline? p := by
  have hp : p'.number = p.number ↔ p' = p := by
    cases p; cases p'; simp
  simp only [pipeline?, modifyPipeline, Table.get?_modify, hp]

/-- A view of pipelines that is blind to a change. -/
theorem map_pipeline?_modify {α : Type} (g : Pipeline → α) (s : Session) (p' : Ref .pipeline)
    {f : Pipeline → Pipeline} (hf : ∀ x, g (f x) = g x) (p : Ref .pipeline) :
    ((s.modifyPipeline p' f).pipeline? p).map g = (s.pipeline? p).map g := by
  rw [pipeline?_modifyPipeline]
  split
  · rw [Option.map_map]
    exact congrArg (fun h => (s.pipeline? p).map h) (funext hf)
  · rfl

theorem map_pipeline?_present {α : Type} {g : Pipeline → α}
    (hg : ∀ x i, g { x with stats := x.stats.accept i } = g x) (s : Session) (d : Destination) (i : EmittedImage)
    (p : Ref .pipeline) : ((s.present d i).2.pipeline? p).map g = (s.pipeline? p).map g := by
  rcases s.pipelines_present d i with hsame | ⟨p', -, hcount⟩
  · unfold pipeline?
    rw [hsame]
  · have hmodified : (s.present d i).2.pipeline? p
        = (s.modifyPipeline p' fun x => { x with stats := x.stats.accept i.image }).pipeline? p := by
      unfold pipeline?
      rw [hcount]
      rfl
    rw [hmodified]
    exact map_pipeline?_modify g s p' (fun x => hg x i.image) p

/-! ### What calls leave alone -/

/-- From `s` to `t` no source has other taps or is closed, and `g` sees no change of a pipeline. -/
structure Untouched {α : Type} (g : Pipeline → α) (s t : Session) : Prop where
  port (id : RoutingId) : t.port? id = s.port? id
  pipeline (p : Ref .pipeline) : (t.pipeline? p).map g = (s.pipeline? p).map g

/-- Attachments and pulls of a pipeline. -/
def wiring (x : Pipeline) : List (RoutingId × TapId) × Nat := (x.attachments, x.stats.pulls)

namespace Untouched

variable {α : Type} {g : Pipeline → α}

theorem refl (s : Session) : Untouched g s s := ⟨fun _ => rfl, fun _ => rfl⟩

theorem trans {u : Session} (h : Untouched g s t) (h' : Untouched g t u) : Untouched g s u :=
  ⟨fun id => (h'.port id).trans (h.port id), fun p => (h'.pipeline p).trans (h.pipeline p)⟩

theorem of_eq (hs : t.sources = s.sources) (hp : t.pipelines = s.pipelines) : Untouched g s t :=
  ⟨port?_of_sources_eq hs, fun p => by unfold pipeline?; rw [hp]⟩

theorem modifyPipeline (s : Session) (p : Ref .pipeline) {f : Pipeline → Pipeline} (hf : ∀ x, g (f x) = g x) :
    Untouched g s (s.modifyPipeline p f) :=
  ⟨fun _ => rfl, map_pipeline?_modify g s p hf⟩

theorem modifySource (s : Session) (id : RoutingId) {f : Source → Source} (hf : ∀ src, (f src).port = src.port) :
    Untouched g s (s.modifySource id f) :=
  ⟨s.port?_modifySource_of_eq id hf, fun _ => rfl⟩

theorem take (s : Session) (id : RoutingId) : Untouched g s (s.take id).2 :=
  ⟨s.port?_take id, fun p => by unfold pipeline?; rw [(s.tables_take id).1]⟩

theorem requestKeyframe (s : Session) (id : RoutingId) : Untouched g s (s.requestKeyframe id) := by
  refine ⟨fun i => ?_, fun p => by unfold pipeline?; rw [(s.tables_requestKeyframe id).1]⟩
  have hsources : (s.requestKeyframe id).sources = (s.modifySource id Source.requestKeyframe).sources := by
    unfold Session.requestKeyframe
    dsimp only
    split <;> rfl
  rw [port?_of_sources_eq hsources]
  refine s.port?_modifySource_of_eq id ?_ i
  exact fun _ => rfl

theorem present (hg : ∀ x i, g { x with stats := x.stats.accept i } = g x) (s : Session) (d : Destination)
    (i : EmittedImage) : Untouched g s (s.present d i).2 :=
  ⟨port?_of_sources_eq (s.sources_present d i), map_pipeline?_present hg s d i⟩

/-- **Calls to encoders attach and detach nothing.** -/
theorem kept (hg : ∀ x i, g { x with stats := x.stats.accept i } = g x) : Kept (Untouched g) where
  refl := refl
  trans := trans
  warn _ _ := of_eq rfl rfl
  ask := requestKeyframe
  passOn := Session.passOn_of_parts trans (fun _ _ => of_eq rfl rfl) take (present hg)
  fallback _ _ _ := of_eq rfl rfl
  encoder _ _ _ := of_eq rfl rfl

theorem call (s : Session) (e : Ref .encoder) (c : Call) : Untouched wiring s (s.call e c).2 :=
  (kept (g := wiring) fun _ _ => rfl).call s e c

theorem tally (s : Session) (p : Ref .pipeline) (r : Except Error Outcome) : Untouched wiring s (s.tally p r) := by
  unfold Session.tally
  split
  · exact refl s
  · refine modifyPipeline s p ?_
    exact fun _ => rfl
  · refine (modifyPipeline s p ?_).trans (of_eq rfl rfl)
    exact fun _ => rfl

theorem checkDepth (s : Session) (id : RoutingId) : Untouched wiring s (s.checkDepth id) := by
  unfold Session.checkDepth
  split
  · split
    · exact of_eq rfl rfl
    · exact refl s
  · exact refl s

/-- Less is seen of a pipeline. -/
theorem mono {β : Type} (h : Untouched g s t) (k : α → β) : Untouched (fun x => k (g x)) s t := by
  refine ⟨h.port, fun p => ?_⟩
  have hk := congrArg (Option.map k) (h.pipeline p)
  rwa [Option.map_map, Option.map_map] at hk

theorem attachments (h : Untouched wiring s t) (p : Ref .pipeline) : t.attachments? p = s.attachments? p :=
  (h.mono Prod.fst).pipeline p

theorem pulls (h : Untouched wiring s t) (p : Ref .pipeline) : t.pulls? p = s.pulls? p :=
  (h.mono Prod.snd).pipeline p

end Untouched

/-! ### Raw frames -/

/-- A raw frame is one pull of the pipeline it reaches, and attaches and detaches nothing. -/
theorem feed_wiring (s : Session) (p : Ref .pipeline) (raw : RawFrame) :
    Untouched Pipeline.attachments s (s.feed p raw) ∧
    ∀ p', (s.feed p raw).pulls? p' = if p = p' then (s.pulls? p').map (· + 1) else s.pulls? p' := by
  unfold feed
  split
  · next hp =>
    refine ⟨.refl s, fun p' => ?_⟩
    split
    · next heq =>
      have hnone : s.pulls? p' = none := by rw [pulls?, ← heq, hp, Option.map_none]
      rw [hnone, Option.map_none]
    · rfl
  · next x _ =>
    dsimp only
    set t := s.modifyPipeline p fun x =>
      { x with keyframePending := false, stats := { x.stats with pulls := x.stats.pulls + 1 } } with ht
    have hcounted : ∀ p', t.pulls? p' = if p = p' then (s.pulls? p').map (· + 1) else s.pulls? p' := by
      intro p'
      rw [pulls?, ht, pipeline?_modifyPipeline]
      split
      · rw [pulls?, Option.map_map, Option.map_map]
        rfl
      · rfl
    have hfirst : Untouched Pipeline.attachments s t := by
      refine .modifyPipeline s p ?_
      exact fun _ => rfl
    have hrest := fun c => (Untouched.call t x.encoder c).trans (.tally _ p (t.call x.encoder c).1)
    exact ⟨hfirst.trans ((hrest _).mono Prod.fst), fun p' => ((hrest _).pulls p').trans (hcounted p')⟩

end Session

/-! ### Beats -/

/-- The action may change who gets the raw frames of a source. -/
def Action.rewires : Action → Bool
  | addSource .. | dropHandle _ | addTap .. | removeTap .. | addPipeline .. | attach .. | detach _
  | dropPipeline _ => true
  | _ => false

/-- The beat is an action that hands out nothing. -/
def Beat.isAct : Beat → Bool
  | act _ => true
  | _ => false

/-- The pipeline that a raw frame reaches. -/
def Moment.fed? (m : Moment) : Option (Ref .pipeline) :=
  match m.beat with
  | .hand _ (.pipeline p) => if (m.before.pipeline? p).isSome then some p else none
  | _ => none

namespace Session

variable {s t : Session}

theorem isSome_pipeline? (h : t.attachments? = s.attachments?) (p : Ref .pipeline) :
    (t.pipeline? p).isSome = (s.pipeline? p).isSome := by
  have hp := congrArg Option.isSome (congrFun h p)
  simpa only [attachments?, Option.isSome_map] using hp

/-- While raw frames are on their way nothing is attached or detached, and each that reaches a pipeline is one
more pull of it. -/
theorem beat_wiring (s : Session) {b : Beat} (hb : b.isAct = false) :
    Untouched Pipeline.attachments s (s.beat b) ∧
    ∀ p, (s.beat b).pulls? p = (s.pulls? p).map (· + (Moment.fed? ⟨s, b⟩).toList.count p) := by
  have hsame : Untouched wiring s (s.beat b) → Moment.fed? ⟨s, b⟩ = none →
      Untouched Pipeline.attachments s (s.beat b) ∧
      ∀ p, (s.beat b).pulls? p = (s.pulls? p).map (· + (Moment.fed? ⟨s, b⟩).toList.count p) := by
    intro h hnone
    refine ⟨h.mono Prod.fst, fun p => ?_⟩
    rw [hnone, h.pulls]
    exact Option.map_id'.symm
  cases b with
  | act a => cases hb
  | warn w => exact hsame (.of_eq rfl rfl) rfl
  | enter id f =>
    have hqueued : Untouched wiring s ((s.modifySource id fun src => src.enqueue f).note (.pushed id f)) := by
      refine (Untouched.modifySource s id ?_).trans (.of_eq rfl rfl)
      exact fun _ => rfl
    exact hsame (hqueued.trans (.checkDepth _ id)) rfl
  | stamp id capture now =>
    refine hsame (.modifySource s id ?_) rfl
    exact fun _ => rfl
  | hand raw tap =>
    cases tap with
    | recorder r => exact hsame (.of_eq rfl rfl) rfl
    | pipeline p =>
      obtain ⟨hattachments, hpulls⟩ := s.feed_wiring p raw
      refine ⟨hattachments, fun p' => (hpulls p').trans ?_⟩
      unfold Moment.fed?
      dsimp only
      by_cases heq : p = p'
      · subst heq
        rw [if_pos rfl]
        cases hp : s.pipeline? p with
        | none =>
          have hnone : s.pulls? p = none := by rw [pulls?, hp, Option.map_none]
          rw [hnone, Option.map_none, Option.map_none]
        | some x => simp
      · rw [if_neg heq]
        split
        · have hzero : [p].count p' = 0 := by simp [heq]
          rw [Option.toList_some, hzero]
          exact Option.map_id'.symm
        · exact Option.map_id'.symm

/-- Raw frames on their way, one after the other. -/
theorem play_wiring {bs : List Beat} (hbs : ∀ b ∈ bs, b.isAct = false) (s : Session) :
    (s.play bs).filterMap Moment.fed? = bs.filterMap (fun b => Moment.fed? ⟨s, b⟩) ∧
    Untouched Pipeline.attachments s (bs.foldl beat s) ∧
    ∀ p, (bs.foldl beat s).pulls? p = (s.pulls? p).map (· + ((s.play bs).filterMap Moment.fed?).count p) := by
  induction bs generalizing s with
  | nil => exact ⟨rfl, .refl s, fun p => Option.map_id'.symm⟩
  | cons b rest ih =>
    obtain ⟨hsame, hpulls⟩ := s.beat_wiring (hbs b List.mem_cons_self)
    obtain ⟨hfed, hrest, hrestPulls⟩ := ih (fun b hb => hbs b (List.mem_cons_of_mem _ hb)) (s.beat b)
    have hlater : (fun b' => Moment.fed? ⟨s.beat b, b'⟩) = fun b' => Moment.fed? ⟨s, b'⟩ := by
      funext b'
      unfold Moment.fed?
      dsimp only
      split
      · rw [isSome_pipeline? (funext hsame.pipeline)]
      · rfl
    have hcons : (s.play (b :: rest)).filterMap Moment.fed?
        = (Moment.fed? ⟨s, b⟩).toList ++ ((s.beat b).play rest).filterMap Moment.fed? := by
      rw [play, List.filterMap_cons]
      cases Moment.fed? ⟨s, b⟩ <;> rfl
    refine ⟨?_, hsame.trans hrest, fun p => ?_⟩
    · rw [hcons, hfed, hlater, List.filterMap_cons]
      cases Moment.fed? ⟨s, b⟩ <;> rfl
    · rw [List.foldl_cons, hrestPulls, hpulls, Option.map_map, hcons]
      refine congrArg (fun h => (s.pulls? p).map h) (funext fun n => ?_)
      show n + _ + _ = n + _
      rw [List.count_append]
      omega

/-! ### Actions -/

/-- Any other action attaches, detaches and pulls nothing. -/
theorem untouched_perform (s : Session) {a : Action} (hout : a.handsOut = false) (ha : a.rewires = false) :
    Untouched wiring s (s.perform a).2 := by
  cases a with
  | register r id source =>
    simp only [perform, register]
    split <;> exact .of_eq rfl rfl
  | addHandle id => exact .modifySource s id fun _ => rfl
  | take id => exact .take s id
  | requestKeyframe id => exact .requestKeyframe s id
  | consumeKeyframeRequest id => exact .modifySource s id fun _ => rfl
  | watch id w => exact .modifySource s id fun _ => rfl
  | call e c => exact .call s e c
  | wantKeyframe p => exact .modifyPipeline s p fun _ => rfl
  | hintRate p hint =>
    simp only [perform, hintRate]
    split
    · exact .refl s
    · exact .call s _ _
  | addSource | dropHandle | addTap | removeTap | addPipeline | attach | detach | dropPipeline => cases ha
  | capture | push | emit | pushRaw => cases hout
  | _ => exact .of_eq rfl rfl

theorem port?_addSource (s : Session) (r : Ref .registry) (c : SourceConfig) (id : RoutingId) :
    (s.addSource r c).2.port? id
      = if id = (s.addSource r c).1 then some (Source.ofConfig c r).port else s.port? id := by
  unfold port?
  rw [source?_addSource]
  split <;> rfl

theorem port?_addSource_fst (s : Session) (r : Ref .registry) (c : SourceConfig) :
    s.port? (s.addSource r c).1 = none := by
  have hnone : s.source? (s.addSource r c).1 = none := Table.get?_next s.sources
  rw [port?, hnone, Option.map_none]

/-- A source loses a handle, or is closed with the last one. -/
theorem dropHandle_ports (s : Session) (i : RoutingId) :
    (s.dropHandle i).pipelines = s.pipelines ∧
    ((∀ id, (s.dropHandle i).port? id = s.port? id) ∨
      ∀ id, (s.dropHandle i).port? id = if i = id then (s.port? id).map Port.close else s.port? id) := by
  unfold dropHandle
  split
  · exact ⟨rfl, .inl fun _ => rfl⟩
  · next src _ =>
    split
    · refine ⟨rfl, .inl (s.port?_modifySource_of_eq i ?_)⟩
      exact fun _ => rfl
    · refine ⟨rfl, .inr fun id => ?_⟩
      exact (s.unregister src.home i).2.port?_modifySource i (fun _ => rfl) id

theorem port?_addTap (s : Session) (i : RoutingId) (tap : Tap) (id : RoutingId) :
    (s.addTap i tap).2.port? id = if i = id then (s.port? id).map fun x => x.add tap else s.port? id :=
  s.port?_modifySource i (fun _ => rfl) id

/-- The name of a new tap. -/
theorem addTap_fst (s : Session) (i : RoutingId) (tap : Tap) :
    (s.addTap i tap).1 = ((s.port? i).map Port.next).getD 0 := by
  unfold addTap port?
  rw [Option.map_map]
  rfl

theorem port?_removeTap (s : Session) (i : RoutingId) (tap : TapId) (id : RoutingId) :
    (s.removeTap i tap).2.port? id
      = if i = id then (s.port? id).map fun x => x.keep fun t => t.1 != tap else s.port? id :=
  s.port?_modifySource i (fun _ => rfl) id

/-- Many taps are removed from many sources. -/
theorem port?_removeTaps (as : List (RoutingId × TapId)) (s : Session) (id : RoutingId) :
    (as.foldl (fun s a => (s.removeTap a.1 a.2).2) s).port? id
      = (s.port? id).map fun x => x.keep fun t => (id, t.1) ∉ as := by
  induction as generalizing s with
  | nil =>
    have hall : (fun x : Port => x.keep fun t => (id, t.1) ∉ ([] : List (RoutingId × TapId))) = fun x => x := by
      funext x
      have htaps : x.taps.filter (fun t => (id, t.1) ∉ ([] : List (RoutingId × TapId))) = x.taps := by simp
      rw [Port.keep, htaps]
    rw [hall]
    exact Option.map_id'.symm
  | cons a rest ih =>
    obtain ⟨i, tap⟩ := a
    rw [List.foldl_cons, ih, port?_removeTap]
    by_cases hi : i = id
    · subst hi
      rw [if_pos rfl, Option.map_map]
      refine congrArg (fun h => (s.port? i).map h) (funext fun x => ?_)
      simp only [Function.comp_apply, Port.keep, List.filter_filter, Port.mk.injEq, true_and, and_true]
      refine List.filter_congr fun t _ => ?_
      rw [Bool.eq_iff_iff]
      simp [and_comm]
    · rw [if_neg hi]
      refine congrArg (fun h => (s.port? id).map h) (funext fun x => ?_)
      simp only [Port.keep, Port.mk.injEq, true_and, and_true]
      refine List.filter_congr fun t _ => ?_
      have hne : id ≠ i := fun h => hi h.symm
      simp [hne]

theorem attachments?_modify (s : Session) (p' : Ref .pipeline) {f : Pipeline → Pipeline}
    {g : List (RoutingId × TapId) → List (RoutingId × TapId)} (hf : ∀ x, (f x).attachments = g x.attachments)
    (p : Ref .pipeline) :
    (s.modifyPipeline p' f).attachments? p
      = if p' = p then (s.attachments? p).map g else s.attachments? p := by
  unfold attachments?
  rw [pipeline?_modifyPipeline]
  split
  · rw [Option.map_map, Option.map_map]
    exact congrArg (fun h => (s.pipeline? p).map h) (funext hf)
  · rfl

theorem attach_ports (s : Session) (p : Ref .pipeline) (i : RoutingId) :
    (s.attach p i).1 = ((s.port? i).map Port.next).getD 0 ∧
    (∀ id, (s.attach p i).2.port? id
      = if i = id then (s.port? id).map fun x => x.add (.pipeline p) else s.port? id) ∧
    ∀ p', (s.attach p i).2.attachments? p'
      = if p = p' then (s.attachments? p').map (· ++ [(i, (s.attach p i).1)]) else s.attachments? p' :=
  ⟨s.addTap_fst i (.pipeline p), s.port?_addTap i (.pipeline p),
    (s.addTap i (.pipeline p)).2.attachments?_modify p fun _ => rfl⟩

/-- A pipeline that is detached removes the taps it has listed, and lists none any more. -/
theorem detach_ports {p : Ref .pipeline} {as : List (RoutingId × TapId)} (h : s.attachments? p = some as) :
    (∀ id, (s.detach p).port? id = (s.port? id).map fun x => x.keep fun t => (id, t.1) ∉ as) ∧
    ∀ p', (s.detach p).attachments? p' = if p = p' then some [] else s.attachments? p' := by
  obtain ⟨x, hx, rfl⟩ := Option.map_eq_some_iff.mp h
  have hdetach : s.detach p = x.attachments.foldl (fun s a => (s.removeTap a.1 a.2).2)
      (s.modifyPipeline p fun x => { x with attachments := [] }) := by
    unfold detach
    rw [hx]
  constructor
  · intro id
    rw [hdetach, port?_removeTaps]
    rfl
  · intro p'
    have hp : (s.detach p).pipeline? p' = (s.modifyPipeline p fun x => { x with attachments := [] }).pipeline? p' := by
      unfold pipeline?
      rw [(s.tables_detach p).1]
      rfl
    have hmodified := s.attachments?_modify p (f := fun x => { x with attachments := [] }) (g := fun _ => [])
      (fun _ => rfl) p'
    rw [attachments?, hp]
    refine hmodified.trans ?_
    split
    · next heq => rw [← heq, h, Option.map_some]
    · rfl

/-- A pipeline that is let go of is detached, and is no more. -/
theorem dropPipeline_ports {p : Ref .pipeline} {as : List (RoutingId × TapId)} (h : s.attachments? p = some as) :
    (∀ id, (s.dropPipeline p).port? id = (s.detach p).port? id) ∧
    (∀ p', (s.dropPipeline p).attachments? p' = if p = p' then none else s.attachments? p') ∧
    ∀ p', p ≠ p' → (s.dropPipeline p).pulls? p' = (s.detach p).pulls? p' := by
  obtain ⟨x, hx, -⟩ := Option.map_eq_some_iff.mp h
  obtain ⟨u, hu, hdrop⟩ : ∃ u, Untouched wiring (s.detach p) u ∧
      s.dropPipeline p = { u with pipelines := u.pipelines.erase p.number } := by
    unfold dropPipeline
    rw [hx]
    dsimp only
    have hcall := Untouched.call (s.detach p) x.encoder .release
    have hcheck : Untouched wiring ((s.detach p).call x.encoder .release).2
        (((s.detach p).call x.encoder .release).2.checkRelease ((s.detach p).call x.encoder .release).1) := by
      unfold checkRelease
      split <;> exact .of_eq rfl rfl
    refine ⟨_, (hcall.trans hcheck).trans (.of_eq (t := dropEncoder _ x.encoder) rfl rfl), rfl⟩
  have herase : ∀ p', (s.dropPipeline p).pipeline? p' = if p = p' then none else u.pipeline? p' := by
    intro p'
    have hp : p.number = p'.number ↔ p = p' := by
      cases p; cases p'; simp
    rw [hdrop]
    simp only [pipeline?, Table.get?_erase, hp]
  refine ⟨fun id => ?_, fun p' => ?_, fun p' hne => ?_⟩
  · rw [hdrop]
    exact hu.port id
  · rw [attachments?, herase]
    split
    · rfl
    · next hne =>
      have hsame := (hu.attachments p').trans ((detach_ports h).2 p')
      rw [if_neg hne] at hsame
      exact hsame
  · rw [pulls?, herase, if_neg hne]
    exact hu.pulls p'

/-! What does not name a pipeline that is there changes nothing. -/

theorem detach_of_none {p : Ref .pipeline} (h : s.attachments? p = none) : s.detach p = s := by
  unfold detach
  rw [Option.map_eq_none_iff.mp h]

theorem dropPipeline_of_none {p : Ref .pipeline} (h : s.attachments? p = none) : s.dropPipeline p = s := by
  unfold dropPipeline
  rw [Option.map_eq_none_iff.mp h]

theorem attachments?_detach (s : Session) {p p' : Ref .pipeline} (hne : p ≠ p') :
    (s.detach p).attachments? p' = s.attachments? p' := by
  cases h : s.attachments? p with
  | none => rw [detach_of_none h]
  | some as => rw [(detach_ports h).2, if_neg hne]

theorem port?_dropPipeline (s : Session) (p : Ref .pipeline) (id : RoutingId) :
    (s.dropPipeline p).port? id = (s.detach p).port? id := by
  cases h : s.attachments? p with
  | none => rw [dropPipeline_of_none h, detach_of_none h]
  | some as => exact (dropPipeline_ports h).1 id

theorem attachments?_dropPipeline (s : Session) {p p' : Ref .pipeline} (hne : p ≠ p') :
    (s.dropPipeline p).attachments? p' = s.attachments? p' := by
  cases h : s.attachments? p with
  | none => rw [dropPipeline_of_none h]
  | some as => rw [(dropPipeline_ports h).2.1, if_neg hne]

/-- A pipeline that is made is attached to nothing. -/
theorem addPipeline_ports (s : Session) (e : Ref .encoder) (settings : Settings) (o : Ref .output) :
    (∀ id, (s.addPipeline e settings o).2.port? id = s.port? id) ∧
    (∀ p, (s.addPipeline e settings o).2.attachments? p = s.attachments? p ∨
      s.attachments? p = none ∧ (s.addPipeline e settings o).2.attachments? p = some []) ∧
    ∀ p, s.attachments? p ≠ none → (s.addPipeline e settings o).2.pulls? p = s.pulls? p := by
  have hinit := Untouched.call s e (.init settings)
  have hconnect := hinit.trans (.call _ e (.connect ⟨o, some ⟨s.pipelines.next⟩⟩))
  have hdropped : ∀ {u : Session}, Untouched wiring s u → (s.addPipeline e settings o).2 = u →
      (∀ id, (s.addPipeline e settings o).2.port? id = s.port? id) ∧
      (∀ p, (s.addPipeline e settings o).2.attachments? p = s.attachments? p ∨
        s.attachments? p = none ∧ (s.addPipeline e settings o).2.attachments? p = some []) ∧
      ∀ p, s.attachments? p ≠ none → (s.addPipeline e settings o).2.pulls? p = s.pulls? p := by
    rintro u hu rfl
    exact ⟨hu.port, fun p => .inl (hu.attachments p), fun p _ => hu.pulls p⟩
  rcases s.addPipeline_cases e settings o with heq | heq | heq
  · exact hdropped (hinit.trans (.of_eq (t := dropEncoder _ e) rfl rfl)) heq
  · exact hdropped (hconnect.trans (.of_eq (t := dropEncoder _ e) rfl rfl)) heq
  · rw [heq]
    generalize ((s.call e (.init settings)).2.call e (.connect ⟨o, some ⟨s.pipelines.next⟩⟩)).2 = u at hconnect
    have hadd : ∀ p, ({ u with pipelines := u.pipelines.add { encoder := e } } : Session).pipeline? p
        = if p.number = u.pipelines.next then some { encoder := e } else u.pipeline? p :=
      fun p => Table.get?_add u.pipelines _ p.number
    refine ⟨hconnect.port, fun p => ?_, fun p hp => ?_⟩
    · rw [attachments?, hadd]
      split
      · next hnext =>
        have hnone : u.attachments? p = none := by
          rw [attachments?, pipeline?, hnext, Table.get?_next, Option.map_none]
        exact .inr ⟨(hconnect.attachments p).symm.trans hnone, rfl⟩
      · exact .inl (hconnect.attachments p)
    · rw [pulls?, hadd]
      split
      · next hnext =>
        have hnone : u.attachments? p = none := by
          rw [attachments?, pipeline?, hnext, Table.get?_next, Option.map_none]
        exact absurd ((hconnect.attachments p).symm.trans hnone) hp
      · exact hconnect.pulls p

/-- Only raw frames are pulls: a pipeline that is there before and after any other action has pulled as often. -/
theorem pulls?_perform (s : Session) {a : Action} (hout : a.handsOut = false) {p : Ref .pipeline} {m n : Nat}
    (hm : s.pulls? p = some m) (hn : (s.perform a).2.pulls? p = some n) : n = m := by
  have hsame : (s.perform a).2.pulls? p = s.pulls? p → n = m := by
    intro h
    rw [hn, hm] at h
    exact Option.some.inj h
  have hthere : s.attachments? p ≠ none := by
    obtain ⟨x, hx, -⟩ := Option.map_eq_some_iff.mp hm
    rw [attachments?, hx]
    exact Option.some_ne_none _
  by_cases hquiet : a.quiet = true
  · refine hsame ?_
    rw [pulls?, pipeline?, (s.tables_of_quiet hquiet).1]
    rfl
  by_cases ha : a.rewires = false
  · exact hsame ((s.untouched_perform hout ha).pulls p)
  have hdetach : ∀ p', (s.detach p').pulls? p = s.pulls? p := by
    intro p'
    have hp : (s.detach p').pipeline? p
        = (s.modifyPipeline p' fun x => { x with attachments := [] }).pipeline? p := by
      unfold pipeline?
      rw [(s.tables_detach p').1]
      rfl
    rw [pulls?, hp]
    refine map_pipeline?_modify (fun x => x.stats.pulls) s p' ?_ p
    exact fun _ => rfl
  cases a with
  | addPipeline e settings o => exact hsame ((s.addPipeline_ports e settings o).2.2 p hthere)
  | attach p' i =>
    refine hsame (map_pipeline?_modify (fun x => x.stats.pulls) (s.addTap i (.pipeline p')).2 p' ?_ p)
    exact fun _ => rfl
  | detach p' => exact hsame (hdetach p')
  | dropPipeline p' =>
    cases hp' : s.attachments? p' with
    | none =>
      have hnone : s.pipeline? p' = none := Option.map_eq_none_iff.mp hp'
      refine hsame ?_
      simp only [perform, dropPipeline, hnone]
    | some as =>
      by_cases hne : p' = p
      · subst hne
        have hgone := (dropPipeline_ports hp').2.1 p'
        rw [if_pos rfl] at hgone
        have hnone : (s.dropPipeline p').pulls? p' = none := by
          rw [pulls?, Option.map_eq_none_iff.mp hgone, Option.map_none]
        exact absurd (hnone.symm.trans hn) (by simp)
      · exact hsame (((dropPipeline_ports hp').2.2 p hne).trans (hdetach p'))
  | _ => exact absurd (by simp_all [Action.quiet, Action.rewires]) hquiet

end Session

end EncodedFeed
