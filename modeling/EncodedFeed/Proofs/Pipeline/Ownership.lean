import EncodedFeed.Proofs.Lane.Wiring
import EncodedFeed.Proofs.Pipeline.Attribution

/-!
# Who holds an encoder

A pipeline that has been made around an encoder keeps it to itself: no other pipeline drives it, and no other
encoder has its images counted there.  So between the raw frames that reach the pipeline nothing happens to
the two but what is asked of the pipeline itself (`Session.Holds.beat`), and once it has been let go of it is
gone for good (`Session.Gone.beat`).
-/

namespace EncodedFeed

/-- The encoder of a pipeline after a beat that does not reach the pipeline: only a rate it is given counts. -/
def Beat.tuned (p : Ref .pipeline) (q : Passthrough) : Beat → Passthrough
  | act (.hintRate p' hint) => if p' = p then q.setRate hint else q
  | _ => q

/-- No more than sending or not. -/
theorem Beat.tuned_eq (b : Beat) (p : Ref .pipeline) (q : Passthrough) :
    b.tuned p q = { q with sending := (b.tuned p q).sending } := by
  unfold tuned
  split
  · split <;> rfl
  · rfl

namespace Session

variable {s t : Session}

/-! ### Holding an encoder -/

variable {p : Ref .pipeline} {e e' : Ref .encoder} {x : Pipeline} {q : Passthrough}

/-- The pipeline is there and drives the passthrough encoder, and no other does. -/
structure Holds (s : Session) (p : Ref .pipeline) (e : Ref .encoder) (x : Pipeline) (q : Passthrough) :
    Prop where
  pipeline : s.pipeline? p = some x
  drives : x.encoder = e
  sole : ∀ p' y, s.pipeline? p' = some y → y.encoder = e → p' = p
  encoder : s.encoder? e = some (.passthrough q)

/-- The pipeline was there and is there no more. -/
structure Gone (s : Session) (p : Ref .pipeline) : Prop where
  pipeline : s.pipeline? p = none
  known : p.number < s.pipelines.next

namespace Holds

theorem of_same (h : s.Holds p e x q) (hsame : SameDrivers s t) {y : Pipeline} {r : Passthrough}
    (hp : t.pipeline? p = some y) (hy : y.encoder = e) (he : t.encoder? e = some (.passthrough r)) :
    t.Holds p e y r where
  pipeline := hp
  drives := hy
  sole p' z hz hze := by
    obtain ⟨x', hx', hxz⟩ := hsame.driver p' z hz
    exact h.sole p' x' hx' (hxz.trans hze)
  encoder := he

theorem of_eq (h : s.Holds p e x q) (hp : t.pipelines = s.pipelines) (he : t.encoders = s.encoders) :
    t.Holds p e x q := by
  apply h.of_same (.of_eq hp)
  · rw [pipeline?, hp]
    exact h.pipeline
  · exact h.drives
  · rw [encoder?, he]
    exact h.encoder

/-- The images of other encoders are not counted here. -/
theorem counter_ne (h : s.Holds p e x q) (hne : e' ≠ e) {d : Destination} (hd : s.Credits e' d) :
    d.counter ≠ some p := by
  intro hcounter
  have hx := (hd p hcounter).2 x h.pipeline
  exact hne (hx.symm.trans h.drives)

end Holds

/-- Images for destinations that are not counted with a pipeline leave it as it is. -/
theorem keptAt_pipeline (p : Ref .pipeline) :
    KeptAt (fun d => d.counter ≠ some p) fun s t => t.pipeline? p = s.pipeline? p where
  refl _ := rfl
  trans h h' := h'.trans h
  warn _ _ := rfl
  ask s id := by rw [pipeline?, (s.tables_requestKeyframe id).1]; rfl
  passOn s r {d} hd id raw := by
    rcases s.pipelines_passOn r d id raw with heq | ⟨p', f, hp', -, heq⟩
    · rw [pipeline?, heq]
      rfl
    · have hne : p'.number ≠ p.number := by
        intro hnum
        apply hd
        rw [hp']
        exact congrArg some (congrArg Ref.mk hnum)
      rw [pipeline?, heq, Table.get?_modify, if_neg hne]
      rfl
  fallback _ _ _ := rfl
  encoder _ _ _ := rfl

namespace Holds

/-- A call to another encoder. -/
theorem call (h : s.Holds p e x q) (ha : s.Attributed) (hne : e' ≠ e) {c : Call}
    (hc : c.Within fun d => d.counter ≠ some p) : (s.call e' c).2.Holds p e x q := by
  have hpipeline := ((keptAt_pipeline p).call s
    (fun y hy => (ha e' y hy).mono fun _ => h.counter_ne hne) hc).1
  apply h.of_same (SameDrivers.kept.call s e' c) (hpipeline.trans h.pipeline) h.drives
  rw [(s.encoder?_call_of_ne hne c).2]
  exact h.encoder

/-- A change of another pipeline. -/
theorem modify_other (h : s.Holds p e x q) {p' : Ref .pipeline} (hne : p' ≠ p) {f : Pipeline → Pipeline}
    (hf : ∀ x, (f x).encoder = x.encoder) : (s.modifyPipeline p' f).Holds p e x q := by
  have hsame : SameDrivers s (s.modifyPipeline p' f) := .modify s p' hf rfl
  apply h.of_same hsame _ h.drives h.encoder
  have hnum : p'.number ≠ p.number := fun heq => hne (congrArg Ref.mk heq)
  rw [pipeline?, modifyPipeline, Table.get?_modify, if_neg hnum]
  exact h.pipeline

/-- A change of the pipeline itself. -/
theorem modify (h : s.Holds p e x q) {f : Pipeline → Pipeline} (hf : ∀ x, (f x).encoder = x.encoder) :
    (s.modifyPipeline p f).Holds p e (f x) q := by
  have hsame : SameDrivers s (s.modifyPipeline p f) := .modify s p hf rfl
  apply h.of_same hsame _ ((hf x).trans h.drives) h.encoder
  have hget : s.pipelines.get? p.number = some x := h.pipeline
  rw [pipeline?, modifyPipeline, Table.get?_modify, if_pos rfl, hget, Option.map_some]

theorem set (h : s.Holds p e x q) (r : Passthrough) : (s.setEncoder e (.passthrough r)).Holds p e x r := by
  have hsame : SameDrivers s (s.setEncoder e (.passthrough r)) := .of_eq rfl
  apply h.of_same hsame h.pipeline h.drives
  rw [encoder?_setEncoder, if_pos rfl, h.encoder, Option.map_some]

theorem drop (h : s.Holds p e x q) (hne : e' ≠ e) : (s.dropEncoder e').Holds p e x q := by
  have hsame : SameDrivers s (s.dropEncoder e') := .of_eq rfl
  apply h.of_same hsame h.pipeline h.drives
  rw [encoder?_dropEncoder, if_neg hne]
  exact h.encoder

/-- A pipeline more around another encoder. -/
theorem add (h : s.Holds p e x q) (hne : e' ≠ e) :
    ({ s with pipelines := s.pipelines.add { encoder := e' } } : Session).Holds p e x q where
  pipeline := Table.get?_add_of_some h.pipeline _
  drives := h.drives
  sole p' y hy hye := by
    rw [pipeline?, Table.get?_add] at hy
    split at hy
    · cases hy
      exact absurd hye hne
    · exact h.sole p' y hy hye
  encoder := h.encoder

theorem tally (h : s.Holds p e x q) {p' : Ref .pipeline} (hne : p' ≠ p) (r : Except Error Outcome) :
    (s.tally p' r).Holds p e x q := by
  unfold Session.tally
  split
  · exact h
  · exact h.modify_other hne fun _ => rfl
  · refine (h.modify_other hne ?_).of_eq rfl rfl
    exact fun _ => rfl

/-- A raw frame that reaches another pipeline. -/
theorem feed (h : s.Holds p e x q) (ha : s.Attributed) {p' : Ref .pipeline} (hne : p' ≠ p) (raw : RawFrame) :
    (s.feed p' raw).Holds p e x q := by
  unfold Session.feed
  split
  · exact h
  · next y hy =>
    have hother : y.encoder ≠ e := fun heq => hne (h.sole p' y hy heq)
    dsimp only
    refine ((h.modify_other hne ?_).call (attributed_modify ha p' ?_) hother ?_).tally hne _
    · exact fun _ => rfl
    · exact fun _ => rfl
    · intro d hd
      cases hd

theorem addEncoder (h : s.Holds p e x q) (y : Encoder) : (s.addEncoder y).2.Holds p e x q := by
  have hsame : SameDrivers s (s.addEncoder y).2 := .of_eq rfl
  exact h.of_same hsame h.pipeline h.drives (Table.get?_add_of_some h.encoder y)

theorem addPipeline (h : s.Holds p e x q) (ha : s.Attributed) (hne : e' ≠ e) (settings : Settings)
    (o : Ref .output) : (s.addPipeline e' settings o).2.Holds p e x q := by
  have hinit : (s.call e' (.init settings)).2.Holds p e x q := h.call ha hne fun d hd => by cases hd
  have hattributed := attributed_call ha e' (c := .init settings) fun d hd => by cases hd
  have hconnect : ((s.call e' (.init settings)).2.call e' (.connect ⟨o, some ⟨s.pipelines.next⟩⟩)).2.Holds
      p e x q := by
    apply hinit.call hattributed hne
    rintro d hd hcounter
    cases hd
    cases hcounter
    exact Nat.lt_irrefl _ (Table.lt_next h.pipeline)
  rcases s.addPipeline_cases e' settings o with heq | heq | heq
  · rw [heq]
    exact hinit.drop hne
  · rw [heq]
    exact hconnect.drop hne
  · rw [heq]
    exact hconnect.add hne

theorem erase (h : s.Holds p e x q) {p' : Ref .pipeline} (hne : p' ≠ p) :
    ({ s with pipelines := s.pipelines.erase p'.number } : Session).Holds p e x q := by
  apply h.of_same (.erase s p') _ h.drives h.encoder
  have hnum : p'.number ≠ p.number := fun heq => hne (congrArg Ref.mk heq)
  rw [pipeline?, Table.get?_erase, if_neg hnum]
  exact h.pipeline

/-- Detaching changes no more of a pipeline than its attachments. -/
theorem detach (h : s.Holds p e x q) (p' : Ref .pipeline) :
    ∃ as, (s.detach p').Holds p e { x with attachments := as } q := by
  obtain ⟨hp, he⟩ := s.tables_detach p'
  by_cases hne : p' = p
  · subst hne
    exact ⟨[], (h.modify (f := fun x => { x with attachments := [] }) fun _ => rfl).of_eq hp he⟩
  · exact ⟨x.attachments, (h.modify_other hne (f := fun x => { x with attachments := [] })
      fun _ => rfl).of_eq hp he⟩

/-- What is left when another pipeline is let go of. -/
theorem dropPipeline (h : s.Holds p e x q) (ha : s.Attributed) {p' : Ref .pipeline} (hne : p' ≠ p) :
    ∃ as, (s.dropPipeline p').Holds p e { x with attachments := as } q := by
  unfold Session.dropPipeline
  split
  · exact ⟨x.attachments, h⟩
  · next y hy =>
    have hother : y.encoder ≠ e := fun heq => hne (h.sole p' y hy heq)
    obtain ⟨as, hdetached⟩ := h.detach p'
    have hreleased : ((s.detach p').call y.encoder .release).2.Holds p e { x with attachments := as } q :=
      hdetached.call (attributed_detach ha p') hother fun d hd => by cases hd
    obtain ⟨hp, he⟩ := tables_checkRelease ((s.detach p').call y.encoder .release).2
      ((s.detach p').call y.encoder .release).1
    exact ⟨as, ((hreleased.of_eq hp he).drop hother).erase hne⟩

theorem gone_dropPipeline (h : s.Holds p e x q) : (s.dropPipeline p).Gone p where
  pipeline := by
    unfold Session.dropPipeline
    rw [h.pipeline]
    dsimp only
    rw [pipeline?, Table.get?_erase, if_pos rfl]
  known := by
    rw [(s.sameDrivers_dropPipeline p).next]
    exact Table.lt_next h.pipeline

/-- Only what is asked of the pipeline itself changes it or its encoder, and then no more than what is pending,
what it is attached to, and whether the encoder sends. -/
theorem perform (h : s.Holds p e x q) (ha : s.Attributed) {a : Action} (hspares : a.Spares e)
    (hu : a.Uncounted) (hout : a.handsOut = false) :
    (s.perform a).2.Gone p ∨ ∃ y, (s.perform a).2.Holds p e y ((Beat.act a).tuned p q) ∧ y.stats = x.stats ∧
      y.keyframePending = (x.keyframePending || Moment.wants ⟨s, .act a⟩ p) := by
  have hsame : Moment.wants ⟨s, .act a⟩ p = false → (Beat.act a).tuned p q = q →
      ∀ as, (s.perform a).2.Holds p e { x with attachments := as } q →
      (s.perform a).2.Gone p ∨ ∃ y, (s.perform a).2.Holds p e y ((Beat.act a).tuned p q) ∧ y.stats = x.stats ∧
        y.keyframePending = (x.keyframePending || Moment.wants ⟨s, .act a⟩ p) := by
    intro hwants htuned as hx
    rw [htuned, hwants, Bool.or_false]
    exact .inr ⟨_, hx, rfl, rfl⟩
  by_cases hquiet : a.quiet = true
  · obtain ⟨hp, he⟩ := s.tables_of_quiet hquiet
    refine hsame ?_ ?_ x.attachments (h.of_eq hp he)
    · cases a with
      | wantKeyframe => cases hquiet
      | _ => rfl
    · cases a with
      | hintRate => cases hquiet
      | _ => rfl
  cases a with
  | addEncoder y => exact hsame rfl rfl x.attachments (h.addEncoder y)
  | call e' c =>
    refine hsame rfl rfl x.attachments (h.call ha hspares ?_)
    intro d hd hcounter
    have hnone : d.counter = none := hu d hd
    rw [hcounter] at hnone
    cases hnone
  | addPipeline e' settings o => exact hsame rfl rfl x.attachments (h.addPipeline ha hspares settings o)
  | dropEncoder e' => exact hsame rfl rfl x.attachments (h.drop hspares)
  | attach p' id =>
    have htap : (s.addTap id (.pipeline p')).2.Holds p e x q := h.of_eq rfl rfl
    by_cases hne : p' = p
    · subst hne
      exact hsame rfl rfl _ (htap.modify (f := fun x => { x with attachments := x.attachments ++ [(id, _)] })
        fun _ => rfl)
    · exact hsame rfl rfl x.attachments (htap.modify_other hne fun _ => rfl)
  | detach p' =>
    obtain ⟨as, hx⟩ := h.detach p'
    exact hsame rfl rfl as hx
  | wantKeyframe p' =>
    by_cases hne : p' = p
    · subst hne
      refine .inr ⟨_, h.modify (f := fun x => { x with keyframePending := true }) fun _ => rfl, rfl, ?_⟩
      simp [Moment.wants]
    · refine hsame ?_ rfl x.attachments (h.modify_other hne fun _ => rfl)
      simp [Moment.wants, hne]
  | hintRate p' hint =>
    simp only [Session.perform, hintRate] at hsame ⊢
    split at hsame
    · next hnone =>
      refine hsame rfl (if_neg ?_) x.attachments h
      rintro rfl
      rw [h.pipeline] at hnone
      cases hnone
    · next y hy =>
      by_cases hne : p' = p
      · subst hne
        obtain rfl : x = y := Option.some.inj (h.pipeline.symm.trans hy)
        have hcall : s.call x.encoder (.rate hint)
            = (.ok .noOutput, s.setEncoder e (.passthrough (q.setRate hint))) := by
          rw [h.drives, Session.call, h.encoder]
          rfl
        have htuned : (Beat.act (.hintRate p' hint)).tuned p' q = q.setRate hint := if_pos rfl
        rw [hcall, htuned]
        refine .inr ⟨x, h.set _, rfl, ?_⟩
        simp [Moment.wants]
      · have hother : y.encoder ≠ e := fun heq => hne (h.sole p' y hy heq)
        exact hsame rfl (if_neg hne) x.attachments (h.call ha hother fun d hd => by cases hd)
  | dropPipeline p' =>
    by_cases hne : p' = p
    · subst hne
      exact .inl h.gone_dropPipeline
    · obtain ⟨as, hx⟩ := h.dropPipeline ha hne
      exact hsame rfl rfl as hx
  | _ => exact absurd (by simp_all [Action.quiet]) hquiet

/-- **Between the raw frames that reach a pipeline** nothing is counted and its encoder stays as it was, except
for sending or not. -/
theorem beat (h : s.Holds p e x q) (ha : s.Attributed) {b : Beat}
    (hb : b.Does fun a => a.Spares e ∧ a.Uncounted) (hreach : Moment.reaches ⟨s, b⟩ p = false) :
    (s.beat b).Gone p ∨ ∃ y, (s.beat b).Holds p e y (b.tuned p q) ∧ y.stats = x.stats ∧
      y.keyframePending = (x.keyframePending || Moment.wants ⟨s, b⟩ p) := by
  have hsame : Moment.wants ⟨s, b⟩ p = false → b.tuned p q = q → (s.beat b).Holds p e x q →
      (s.beat b).Gone p ∨ ∃ y, (s.beat b).Holds p e y (b.tuned p q) ∧ y.stats = x.stats ∧
        y.keyframePending = (x.keyframePending || Moment.wants ⟨s, b⟩ p) := by
    intro hwants htuned hx
    rw [htuned, hwants, Bool.or_false]
    exact .inr ⟨x, hx, rfl, rfl⟩
  cases b with
  | act a => exact h.perform ha hb.2.1 hb.2.2 hb.1
  | warn w => exact hsame rfl rfl (h.of_eq rfl rfl)
  | enter id f =>
    obtain ⟨hp, he⟩ := tables_checkDepth ((s.modifySource id fun src => src.enqueue f).note (.pushed id f)) id
    exact hsame rfl rfl (h.of_eq hp he)
  | stamp id capture now => exact hsame rfl rfl (h.of_eq rfl rfl)
  | hand raw tap =>
    cases tap with
    | recorder r => exact hsame rfl rfl (h.of_eq rfl rfl)
    | pipeline p' =>
      have hne : p' ≠ p := by
        rintro rfl
        simp [Moment.reaches, h.pipeline] at hreach
      exact hsame rfl rfl (h.feed ha hne raw)

end Holds

/-! ### Pipelines that are gone -/

theorem Gone.of_same (h : s.Gone p) (hsame : SameDrivers s t) : t.Gone p where
  pipeline := by
    cases hp : t.pipeline? p with
    | none => rfl
    | some y =>
      obtain ⟨x, hx, -⟩ := hsame.driver p y hp
      rw [h.pipeline] at hx
      cases hx
  known := by
    rw [hsame.next]
    exact h.known

theorem Gone.addPipeline (h : s.Gone p) (e : Ref .encoder) (settings : Settings) (o : Ref .output) :
    (s.addPipeline e settings o).2.Gone p := by
  have hinit := SameDrivers.kept.call s e (.init settings)
  have hconnect := hinit.trans (SameDrivers.kept.call _ e (.connect ⟨o, some ⟨s.pipelines.next⟩⟩))
  rcases s.addPipeline_cases e settings o with heq | heq | heq
  · rw [heq]
    exact h.of_same (hinit.trans (.of_eq rfl))
  · rw [heq]
    exact h.of_same (hconnect.trans (.of_eq rfl))
  · rw [heq]
    have hmade := h.of_same hconnect
    constructor
    · rw [pipeline?, Table.get?_add, if_neg (Nat.ne_of_lt hmade.known)]
      exact hmade.pipeline
    · rw [Table.next_add]
      exact Nat.lt_succ_of_lt hmade.known

/-- **A pipeline that is gone stays gone.** -/
theorem Gone.beat (h : s.Gone p) {b : Beat} (hb : b.Does fun _ => True) : (s.beat b).Gone p := by
  have hcarried := SameDrivers.carried
  cases b with
  | warn w => exact h.of_same (.of_eq rfl)
  | enter id f =>
    obtain ⟨hp, -⟩ := tables_checkDepth ((s.modifySource id fun src => src.enqueue f).note (.pushed id f)) id
    exact h.of_same (.of_eq hp)
  | stamp id capture now => exact h.of_same (.of_eq rfl)
  | hand raw tap => exact h.of_same (hcarried.deliver s raw tap)
  | act a =>
    by_cases hquiet : a.quiet = true
    · exact h.of_same (.of_eq (s.tables_of_quiet hquiet).1)
    cases a with
    | addEncoder y => exact h.of_same (.of_eq rfl)
    | call e c => exact h.of_same (hcarried.call s e c)
    | addPipeline e settings o => exact h.addPipeline e settings o
    | dropEncoder e => exact h.of_same (.of_eq rfl)
    | attach p' id => exact h.of_same (hcarried.attach s p' id)
    | detach p' => exact h.of_same (hcarried.detach s p')
    | wantKeyframe p' =>
      refine h.of_same (hcarried.pipeline s p' ?_)
      exact fun _ => rfl
    | hintRate p' hint => exact h.of_same (hcarried.hintRate s p' hint)
    | dropPipeline p' => exact h.of_same (s.sameDrivers_dropPipeline p')
    | _ => exact absurd hb.1 (by simp_all [Action.quiet])

/-! ### Making a pipeline -/

/-- A pipeline that is made around a passthrough encoder that no pipeline drives holds it. -/
theorem holds_addPipeline (ha : s.Attributed) (he : s.encoder? e = some (.passthrough q))
    (hfree : ∀ p' y, s.pipeline? p' = some y → y.encoder ≠ e) {settings : Settings} {o : Ref .output}
    (h : s.addPipeline e settings o = (.ok p, t)) :
    ∃ r, t.Holds p e { encoder := e } r ∧ t.Attributed ∧ r.binding = q.binding ∧ r.emitted = q.emitted ∧
      r.settings = some settings ∧ r.destination = some ⟨o, some p⟩ := by
  have hattributed : t.Attributed := by
    have hmade := attributed_addPipeline ha e settings o
    rwa [h] at hmade
  obtain ⟨r, hr, hp, ht⟩ := addPipeline_ok he h
  have hget : s.encoders.get? e.number = some (.passthrough q) := he
  refine ⟨r.connect ⟨o, some p⟩, ⟨?_, rfl, ?_, ?_⟩, hattributed, ?_, ?_, ?_, rfl⟩
  · rw [ht, hp]
    simp only [pipeline?, Table.get?_add, if_true]
  · intro p' y hy hye
    rw [ht] at hy
    simp only [pipeline?, Table.get?_add] at hy
    split at hy
    · next hnum =>
      rw [hp]
      exact congrArg Ref.mk hnum
    · exact absurd hye (hfree p' y hy)
  · rw [ht]
    simp only [encoder?, Table.get?_modify, if_true, hget, Option.map_some]
  · rw [Passthrough.init_ok hr]
    rfl
  · rw [Passthrough.init_ok hr]
    rfl
  · rw [Passthrough.init_ok hr]
    rfl

end Session

end EncodedFeed
