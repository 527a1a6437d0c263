import EncodedFeed.Proofs.Pipeline.Ownership
import Mathlib.Tactic.Set

/-!
# What a raw frame does to a pipeline

A raw frame makes a pipeline pull its encoder once, and a pull offers one image at most.  The pipeline counts it
by what becomes of that image: nothing was offered, it was accepted, or it was refused.  Whether anything is
offered does not matter for keyframe requests: the source that the encoder is led to is asked if a keyframe is
pending.  A pipeline at work so takes one turn after the other (`Works.turn`), and what each turn keeps, a run
keeps (`Works.history`).
-/

namespace EncodedFeed

/-- An image that was offered to an output, and how that went. -/
abbrev Offer := EmittedImage × Option SinkError

/-- How a pull ends. -/
def Offer.outcome : Option Offer → Except Error Outcome
  | none => .ok .noOutput
  | some (_, none) => .ok .emitted
  | some (_, some e) => .error (.sink e)

namespace PipelineStats

/-- Count an image if it was accepted. -/
def credited (c : PipelineStats) : Option Offer → PipelineStats
  | some (i, none) => c.accept i.image
  | _ => c

/-- Count a pull. -/
def pulled (c : PipelineStats) : Option Offer → PipelineStats
  | none => { c with pulls := c.pulls + 1, emptyPulls := c.emptyPulls + 1 }
  | some (i, none) => { c with pulls := c.pulls + 1 }.accept i.image
  | some (_, some _) => { c with pulls := c.pulls + 1, errors := c.errors + 1 }

end PipelineStats

/-- The encoder counts an image if it was accepted. -/
def Passthrough.credited (q : Passthrough) : Option Offer → Passthrough
  | some (_, none) => { q with emitted := q.emitted + 1 }
  | _ => q

namespace Session

variable {s t : Session} {p : Ref .pipeline} {e : Ref .encoder} {x : Pipeline} {q : Passthrough}
  {o : Ref .output}

/-- From `s` to `t` the sources `ids` are asked for keyframes, and the output gets no offer, or one. -/
structure Offers (s t : Session) (o : Ref .output) (ids : List RoutingId) (offer : Option Offer) : Prop where
  journal : ∃ es, t.journal = es.reverse ++ s.journal ∧ es.filterMap (Event.offered? o) = offer.toList ∧
    askedIn es = ids

namespace Offers

theorem nothing (h : t.journal = s.journal) (o : Ref .output) : Offers s t o [] none :=
  ⟨[], h, rfl, rfl⟩

theorem warn (s : Session) (w : Warning) (o : Ref .output) : Offers s (s.warn w) o [] none :=
  ⟨[.warned w], rfl, rfl, rfl⟩

/-- What comes after an offer, or before it, offers nothing more. -/
theorem trans {u : Session} {ids ids' : List RoutingId} {offer offer' : Option Offer}
    (h : Offers s t o ids offer) (h' : Offers t u o ids' offer') (hone : offer = none ∨ offer' = none) :
    Offers s u o (ids ++ ids') (offer.or offer') := by
  obtain ⟨es, hes, hoffer, hasked⟩ := h.journal
  obtain ⟨es', hes', hoffer', hasked'⟩ := h'.journal
  refine ⟨es ++ es', ?_, ?_, ?_⟩
  · rw [hes', hes, List.reverse_append, List.append_assoc]
  · rw [List.filterMap_append, hoffer, hoffer']
    rcases hone with rfl | rfl
    · rfl
    · cases offer <;> rfl
  · rw [askedIn_append, hasked, hasked']

end Offers

/-! ### Pulls -/

theorem offers_requestKeyframe (s : Session) (id : RoutingId) (o : Ref .output) :
    Offers s (s.requestKeyframe id) o [id] none := by
  refine ⟨[.asked id], ?_, rfl, rfl⟩
  unfold requestKeyframe
  dsimp only
  split <;> rfl

/-- Presenting an image that is counted with the pipeline. -/
theorem present_of_holds (h : s.Holds p e x q) (i : EmittedImage) :
    ∃ refusal, (s.present ⟨o, some p⟩ i).1 = refusal ∧
      Offers s (s.present ⟨o, some p⟩ i).2 o [] (some (i, refusal)) ∧
      (s.present ⟨o, some p⟩ i).2.Holds p e { x with stats := x.stats.credited (some (i, refusal)) } q := by
  have hoffer : ∀ refusal, [Event.presented o i refusal].filterMap (Event.offered? o) = [(i, refusal)] := by
    intro refusal
    simp [Event.offered?]
  unfold present
  dsimp only
  cases hrefusal : (s.output? o).bind fun out => (out.offer i).1 with
  | none =>
    refine ⟨none, rfl, ⟨[.presented o i none], rfl, hoffer none, rfl⟩, ?_⟩
    have hnoted : ((s.modifyOutput o fun out => (out.offer i).2).note (.presented o i none)).Holds p e x q :=
      h.of_eq rfl rfl
    exact hnoted.modify (f := fun x => { x with stats := x.stats.accept i.image }) fun _ => rfl
  | some err =>
    exact ⟨some err, rfl, ⟨[.presented o i (some err)], rfl, hoffer _, rfl⟩, h.of_eq rfl rfl⟩

theorem passOn_of_holds (h : s.Holds p e x q) (r : Passthrough) (id : RoutingId) (raw : RawFrame) :
    ∃ offer, (s.passOn r ⟨o, some p⟩ id raw).1 = Offer.outcome offer ∧
      (s.passOn r ⟨o, some p⟩ id raw).2.1 = r.credited offer ∧
      Offers s (s.passOn r ⟨o, some p⟩ id raw).2.2 o [] offer ∧
      (s.passOn r ⟨o, some p⟩ id raw).2.2.Holds p e { x with stats := x.stats.credited offer } q := by
  obtain ⟨hp, he⟩ := s.tables_take id
  have htaken : (s.take id).2.Holds p e x q := h.of_eq hp he
  have hoffers : Offers s (s.take id).2 o [] none := by
    unfold take
    split
    · exact .nothing rfl o
    · exact ⟨[.taken id _], rfl, rfl, rfl⟩
  unfold passOn
  cases htake : s.take id with
  | mk taken t =>
    rw [htake] at htaken hoffers
    cases taken with
    | none => exact ⟨none, rfl, rfl, hoffers, htaken⟩
    | some f =>
      obtain ⟨refusal, hrefusal, hpresented, hholds⟩ := present_of_holds (o := o) htaken (r.image f raw)
      dsimp only
      cases hpresent : t.present ⟨o, some p⟩ (r.image f raw) with
      | mk refusal' u =>
        rw [hpresent] at hrefusal hpresented hholds
        dsimp only at hrefusal hpresented hholds
        subst hrefusal
        have hboth := hoffers.trans hpresented (.inl rfl)
        cases refusal' with
        | none => exact ⟨some (r.image f raw, none), rfl, rfl, hboth, hholds⟩
        | some err =>
          refine ⟨some (r.image f raw, some err), rfl, rfl, ?_, hholds.of_eq rfl rfl⟩
          exact hboth.trans (.warn u _ o) (.inr rfl)

/-- A pull asks the source it is led to for a keyframe, if one is wanted, whether or not anything is sent. -/
theorem pull_of_holds (h : s.Holds p e x q) (hset : q.settings.isSome = true)
    (hd : q.destination = some ⟨o, some p⟩) (raw : RawFrame) (types : List FrameType) :
    ∃ offer, (s.pull q raw types).1 = Offer.outcome offer ∧ (s.pull q raw types).2.1 = q.credited offer ∧
      Offers s (s.pull q raw types).2.2 o
        (if types.contains .key then (s.resolve q.binding raw).toList else []) offer ∧
      (s.pull q raw types).2.2.Holds p e { x with stats := x.stats.credited offer } q := by
  obtain ⟨settings, hsettings⟩ := Option.isSome_iff_exists.mp hset
  unfold pull
  rw [hsettings, hd]
  dsimp only
  cases hresolve : s.resolve q.binding raw with
  | none =>
    refine ⟨none, rfl, rfl, ?_, h.of_eq rfl rfl⟩
    have hnobody : (if types.contains FrameType.key then (none : Option RoutingId).toList else []) = [] := by
      split <;> rfl
    rw [hnobody]
    exact .warn s _ o
  | some id =>
    dsimp only [Option.toList_some]
    obtain ⟨t, ht, hasked, hholds⟩ : ∃ t, (if types.contains .key then s.requestKeyframe id else s) = t ∧
        Offers s t o (if types.contains .key then [id] else []) none ∧ t.Holds p e x q := by
      cases types.contains FrameType.key with
      | true =>
        obtain ⟨hp, he⟩ := s.tables_requestKeyframe id
        exact ⟨_, rfl, s.offers_requestKeyframe id o, h.of_eq hp he⟩
      | false => exact ⟨s, rfl, .nothing rfl o, h⟩
    rw [ht]
    cases q.sending with
    | false => exact ⟨none, rfl, rfl, hasked, hholds⟩
    | true =>
      obtain ⟨offer, houtcome, hcredited, hoffers, hafter⟩ := passOn_of_holds (o := o) hholds q id raw
      refine ⟨offer, houtcome, hcredited, ?_, hafter⟩
      have hboth := hasked.trans hoffers (.inl rfl)
      rw [List.append_nil] at hboth
      exact hboth

/-- **A raw frame that reaches a pipeline.** -/
theorem feed_of_holds (h : s.Holds p e x q) (hset : q.settings.isSome = true)
    (hd : q.destination = some ⟨o, some p⟩) (raw : RawFrame) :
    ∃ offer, (s.feed p raw).Holds p e
        { x with keyframePending := false, stats := x.stats.pulled offer } (q.credited offer) ∧
      Offers s (s.feed p raw) o
        (if x.keyframePending then (s.resolve q.binding raw).toList else []) offer := by
  set s₁ := s.modifyPipeline p fun x =>
    { x with keyframePending := false, stats := { x.stats with pulls := x.stats.pulls + 1 } } with hs₁
  have hcounted : s₁.Holds p e
      { x with keyframePending := false, stats := { x.stats with pulls := x.stats.pulls + 1 } } q :=
    h.modify fun _ => rfl
  obtain ⟨offer, houtcome, hcredited, hoffers, hpulled⟩ :=
    pull_of_holds hcounted hset hd { raw with rtp := raw.timestamp.map rtpOfMicros } [x.nextType]
  set s₂ := (s₁.pull q { raw with rtp := raw.timestamp.map rtpOfMicros } [x.nextType]).2.2 with hs₂
  have hcall : s₁.call e (.pull { raw with rtp := raw.timestamp.map rtpOfMicros } [x.nextType])
      = (Offer.outcome offer, s₂.setEncoder e (.passthrough (q.credited offer))) := by
    unfold call
    rw [hcounted.encoder]
    simp only [callPassthrough, houtcome, hcredited]
    rfl
  have hfeed : s.feed p raw
      = (s₂.setEncoder e (.passthrough (q.credited offer))).tally p (Offer.outcome offer) := by
    unfold feed
    rw [h.pipeline]
    dsimp only
    rw [h.drives, ← hs₁, hcall]
  have hset' := hpulled.set (q.credited offer)
  have hkey : [x.nextType].contains FrameType.key = x.keyframePending := by
    cases hp : x.keyframePending <;> simp [Pipeline.nextType, FrameType.ofKey, hp]
  have hresolve : s₁.resolve q.binding { raw with rtp := raw.timestamp.map rtpOfMicros }
      = s.resolve q.binding raw := by
    cases q.binding <;> rfl
  rw [hkey, hresolve] at hoffers
  have hquiet : Offers s s₂ o (if x.keyframePending then (s.resolve q.binding raw).toList else []) offer :=
    ⟨hoffers.journal⟩
  rw [hfeed]
  refine ⟨offer, ?_, ?_⟩
  · rcases offer with _ | ⟨i, _ | err⟩
    · exact hset'.modify (f := fun x => { x with
        stats := { x.stats with emptyPulls := x.stats.emptyPulls + 1 } }) fun _ => rfl
    · exact hset'
    · exact (hset'.modify (f := fun x => { x with
        stats := { x.stats with errors := x.stats.errors + 1 } }) fun _ => rfl).of_eq rfl rfl
  · rcases offer with _ | ⟨i, _ | err⟩
    · exact ⟨hquiet.journal⟩
    · exact ⟨hquiet.journal⟩
    · have hboth := hquiet.trans (.warn s₂ (if (Error.sink err).needsReinit then .needsReinit (.sink err)
        else .pullFailed (.sink err)) o) (.inr rfl)
      rw [List.append_nil] at hboth
      exact ⟨hboth.journal⟩

/-! ### Moments -/

theorem Offers.filterMap_events {ids : List RoutingId} {offer : Option Offer} {m : Moment}
    (h : Offers m.before m.after o ids offer) :
    m.events.filterMap (Event.offered? o) = offer.toList ∧ askedIn m.events = ids := by
  obtain ⟨es, hes, hoffer, hasked⟩ := h.journal
  rw [Moment.events, eventsSince_eq hes]
  exact ⟨hoffer, hasked⟩

/-- The pipeline holds an encoder in working order, which takes frames as `b` says; its images go to the output
and are counted with the pipeline. -/
structure Works (s : Session) (p : Ref .pipeline) (e : Ref .encoder) (b : Binding) (o : Ref .output)
    (x : Pipeline) (q : Passthrough) : Prop where
  holds : s.Holds p e x q
  configured : q.settings.isSome = true
  destination : q.destination = some ⟨o, some p⟩
  binding : q.binding = b

variable {b : Binding} {m : Moment}

/-- A raw frame that reaches a pipeline at work. -/
theorem Works.reached (h : m.before.Works p e b o x q) (hreach : m.reaches p = true) :
    ∃ raw offer, m.after.Works p e b o { x with keyframePending := false, stats := x.stats.pulled offer }
        (q.credited offer) ∧
      Offers m.before m.after o (if x.keyframePending then (m.before.resolve b raw).toList else []) offer := by
  obtain ⟨raw, hafter⟩ : ∃ raw, m.after = m.before.feed p raw := by
    unfold Moment.after
    unfold Moment.reaches at hreach
    split at hreach
    · next raw p' hb =>
      simp only [Bool.and_eq_true, decide_eq_true_eq] at hreach
      obtain ⟨rfl, -⟩ := hreach
      exact ⟨raw, by rw [hb]; rfl⟩
    · cases hreach
  obtain ⟨offer, hholds, hoffers⟩ := feed_of_holds h.holds h.configured h.destination raw
  rw [h.binding] at hoffers
  refine ⟨raw, offer, ?_, by rwa [hafter]⟩
  rw [hafter]
  rcases offer with _ | ⟨i, _ | err⟩ <;> exact ⟨hholds, h.configured, h.destination, h.binding⟩

/-- Where no raw frame reaches a pipeline it stays at work, unless it is let go of. -/
theorem Works.passed (h : m.before.Works p e b o x q) (ha : m.before.Attributed)
    (hb : m.beat.Does fun a => a.Spares e ∧ a.Uncounted) (hreach : m.reaches p = false) :
    m.after.Gone p ∨ ∃ y, m.after.Works p e b o y (m.beat.tuned p q) ∧ y.stats = x.stats ∧
      y.keyframePending = (x.keyframePending || m.wants p) := by
  rcases h.holds.beat ha hb hreach with hgone | ⟨y, hholds, hstats, hpending⟩
  · exact .inl hgone
  · rw [m.beat.tuned_eq p q] at hholds ⊢
    exact .inr ⟨y, ⟨hholds, h.configured, h.destination, h.binding⟩, hstats, hpending⟩

/-- What a moment does to a pipeline at work and its encoder: a raw frame is a pull, and anything else leaves the
counts alone and at most has the pipeline want a keyframe. -/
inductive Turn (m : Moment) (p : Ref .pipeline) (b : Binding) (o : Ref .output) :
    Pipeline → Passthrough → Pipeline → Passthrough → Prop
  | pulled {x : Pipeline} {q : Passthrough} (raw : RawFrame) (offer : Option Offer)
      (hreach : m.reaches p = true)
      (hoffers : Offers m.before m.after o
        (if x.keyframePending then (m.before.resolve b raw).toList else []) offer) :
      Turn m p b o x q { x with keyframePending := false, stats := x.stats.pulled offer } (q.credited offer)
  | passed {x y : Pipeline} {q r : Passthrough} (hreach : m.reaches p = false) (hstats : y.stats = x.stats)
      (hpending : y.keyframePending = (x.keyframePending || m.wants p)) (hemitted : r.emitted = q.emitted) :
      Turn m p b o x q y r

/-- **A pipeline at work takes its turn** at each moment, until it is gone. -/
theorem Works.turn (h : m.before.Works p e b o x q) (ha : m.before.Attributed)
    (hb : m.beat.Does fun a => a.Spares e ∧ a.Uncounted) :
    m.after.Gone p ∨ ∃ y r, m.after.Works p e b o y r ∧ Turn m p b o x q y r := by
  by_cases hreach : m.reaches p = true
  · obtain ⟨raw, offer, hafter, hoffers⟩ := h.reached hreach
    exact .inr ⟨_, _, hafter, .pulled raw offer hreach hoffers⟩
  · have hnot : m.reaches p = false := by simpa using hreach
    rcases h.passed ha hb hnot with hgone | ⟨y, hworks, hstats, hpending⟩
    · exact .inl hgone
    · refine .inr ⟨y, _, hworks, .passed hnot hstats hpending ?_⟩
      rw [m.beat.tuned_eq p q]

/-- What is true of a pipeline at work at first, and stays true with every turn it takes, is true of it as long as
it is there; `J` may speak of all that has happened so far. -/
theorem Works.history {J : List Moment → Pipeline → Passthrough → Prop} {ms : List Moment}
    (hlinked : Linked s ms t) (hms : ∀ m ∈ ms, m.beat.Does fun a => a.Spares e ∧ a.Uncounted)
    (h : s.Works p e b o x q) (ha : s.Attributed) (h0 : J [] x q)
    (hturn : ∀ past m x q y r, J past x q → Turn m p b o x q y r → J (past ++ [m]) y r) :
    t.Gone p ∨ ∃ y r, t.Works p e b o y r ∧ J ms y r := by
  have hrun := hlinked.history
    (I := fun past u => u.Attributed ∧ (u.Gone p ∨ ∃ y r, u.Works p e b o y r ∧ J past y r)) []
    ⟨ha, .inr ⟨x, q, h, h0⟩⟩
  refine (hrun ?_).2
  rintro past m hm ⟨hattributed, hpast⟩
  have hb := hms m hm
  refine ⟨attributed_beat hattributed (hb.mono fun a ha => ha.2), ?_⟩
  rcases hpast with hgone | ⟨y, r, hworks, hJ⟩
  · exact .inl (hgone.beat (hb.mono fun _ _ => trivial))
  · rcases hworks.turn hattributed hb with hgone | ⟨z, w, hafter, hturned⟩
    · exact .inl hgone
    · exact .inr ⟨z, w, hafter, hturn past m y r z w hJ hturned⟩

/-- A pipeline that is made around a passthrough encoder that no pipeline drives is at work. -/
theorem works_addPipeline {q₀ : Passthrough} (ha : s.Attributed) (he : s.encoder? e = some (.passthrough q₀))
    (hfree : ∀ p' y, s.pipeline? p' = some y → y.encoder ≠ e) {settings : Settings}
    (h : s.addPipeline e settings o = (.ok p, t)) :
    t.Attributed ∧ ∃ q, t.Works p e q₀.binding o { encoder := e } q ∧ q.emitted = q₀.emitted := by
  obtain ⟨q, hholds, hattributed, hbinding, hemitted, hsettings, hdestination⟩ :=
    holds_addPipeline ha he hfree h
  have hconfigured : q.settings.isSome = true := by
    rw [hsettings]
    rfl
  exact ⟨hattributed, q, ⟨hholds, hconfigured, hdestination, hbinding⟩, hemitted⟩

end Session

end EncodedFeed
