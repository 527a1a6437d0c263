import EncodedFeed.Proofs.Encoder.Passthrough

/-!
# Routed and bound encoders

An encoder that looks up its source for every raw frame and one that is bound to a source differ in nothing else:
after the same calls, whatever happened to the sessions they were in, they are `Counterparts`.  A raw frame of a
source that is registered leads both to this source, and from then on their pulls are the same.  A raw frame that
leads nowhere leaves everything as it is but for a warning.
-/

namespace EncodedFeed

namespace Passthrough

/-- Both encoders are the same but for their bindings and counts. -/
def Counterparts (p q : Passthrough) : Prop := q = { p with binding := q.binding, emitted := q.emitted }

theorem counterparts_make (b b' : Binding) (codec : Codec) (config : EncoderConfig) (index : Option UInt32) :
    (make b codec config index).Counterparts (make b' codec config index) := rfl

namespace Counterparts

variable {p q : Passthrough}

/-- Two changes that look neither at the binding nor at the count. -/
theorem map (h : p.Counterparts q) {f : Passthrough → Passthrough}
    (hf : ∀ (p : Passthrough) b n, f { p with binding := b, emitted := n } = { f p with binding := b, emitted := n }) :
    (f p).Counterparts (f q) := by
  have hq : f q = { f p with binding := q.binding, emitted := q.emitted } := by
    rw [← hf p q.binding q.emitted, ← h]
  have hbinding : (f q).binding = q.binding := by rw [hq]
  have hemitted : (f q).emitted = q.emitted := by rw [hq]
  rw [Counterparts, hbinding, hemitted, hq]

theorem count (h : p.Counterparts q) (m n : Nat) :
    Counterparts { p with emitted := m } { q with emitted := n } := by
  rw [Counterparts] at h ⊢
  rw [h]

theorem image_eq (h : p.Counterparts q) (f : EncodedFrame) (raw : RawFrame) : p.image f raw = q.image f raw := by
  rw [h]
  rfl

end Counterparts

end Passthrough

namespace Session

/-- The same call makes counterparts of counterparts, in whatever sessions they are. -/
theorem counterparts_call {p q : Passthrough} (h : p.Counterparts q) (s t : Session) (c : Call) :
    (s.callPassthrough p c).2.1.Counterparts (t.callPassthrough q c).2.1 := by
  cases c with
  | init c =>
    have hinit : ∀ b n, ({ p with binding := b, emitted := n } : Passthrough).init c
        = (p.init c).map fun p => { p with binding := b, emitted := n } := by
      intro b n
      unfold Passthrough.init
      dsimp only
      split
      · rfl
      · split <;> rfl
    have hq := hinit q.binding q.emitted
    rw [← h] at hq
    unfold callPassthrough
    dsimp only
    rw [hq]
    cases hp : p.init c with
    | error e => exact h
    | ok p' => exact rfl
  | connect d =>
    refine h.map (f := fun p => p.connect d) ?_
    exact fun _ _ _ => rfl
  | release =>
    refine h.map (f := Passthrough.release) fun p b n => ?_
    unfold Passthrough.release
    dsimp only
    split <;> rfl
  | rate hint =>
    refine h.map (f := fun p => p.setRate hint) ?_
    exact fun _ _ _ => rfl
  | pull raw types =>
    obtain ⟨m, hm⟩ := s.pull_counts p raw types
    obtain ⟨n, hn⟩ := t.pull_counts q raw types
    show (s.pull p raw types).2.1.Counterparts (t.pull q raw types).2.1
    rw [hm, hn]
    exact h.count _ _

/-- Encoders that have had the same calls are counterparts. -/
theorem counterparts_after {turns turns' : List Turn} (hcalls : turns.map Turn.call = turns'.map Turn.call)
    {p q : Passthrough} (h : p.Counterparts q) (s t : Session) :
    (s.passthroughAfter p turns).Counterparts (t.passthroughAfter q turns') := by
  induction turns generalizing turns' p q s t with
  | nil =>
    cases turns' with
    | nil => exact h
    | cons u' rest' => cases hcalls
  | cons u rest ih =>
    cases turns' with
    | nil => cases hcalls
    | cons u' rest' =>
      obtain ⟨g, c⟩ := u
      obtain ⟨g', c'⟩ := u'
      obtain ⟨rfl, hrest⟩ : c = c' ∧ rest.map Turn.call = rest'.map Turn.call := List.cons.inj hcalls
      exact ih hrest (counterparts_call h (g s) (g' t) c) _ _

/-- **Where two counterparts are led to the same source, or nowhere, their pulls are the same.** -/
theorem pull_of_counterparts {p q : Passthrough} (h : p.Counterparts q) (s : Session) {raw : RawFrame}
    (hresolve : s.resolve p.binding raw = s.resolve q.binding raw) (types : List FrameType) :
    ∃ n, (s.pull p raw types).2.1 = { p with emitted := p.emitted + n } ∧
      s.pull q raw types
        = ((s.pull p raw types).1, { q with emitted := q.emitted + n }, (s.pull p raw types).2.2) := by
  have hsettings : q.settings = p.settings := by rw [h]
  have hdestination : q.destination = p.destination := by rw [h]
  have hsending : q.sending = p.sending := by rw [h]
  exact s.pull_alike hsettings hdestination hresolve.symm (fun _ _ => ⟨hsending, fun f => h.image_eq f raw⟩) types

/-- The registry leads to a source that is registered under its id. -/
theorem resolve_routed {s : Session} {r : Ref .registry} {id : RoutingId} {raw : RawFrame}
    (hraw : raw.source = some id) : s.resolve (.routed r) raw = (s.registry r).find? id := by
  show raw.source.bind _ = _
  rw [hraw, Option.bind_some]

/-- How an encoder is bound never changes. -/
theorem binding_passthroughAfter (s : Session) (b : Binding) (codec : Codec) (config : EncoderConfig)
    (index : Option UInt32) (turns : List Turn) :
    (s.passthroughAfter (.make b codec config index) turns).binding = b :=
  congrArg Passthrough.binding (made_passthroughAfter turns s (.make b codec config index))

variable {codec : Codec} {config : EncoderConfig} {index : Option UInt32} {turns turns' : List Turn}
  {r : Ref .registry} {id : RoutingId} {raw : RawFrame}

/-- **A raw frame of a registered source** is worth as much to an encoder that is routed as to one that is bound to
the source. -/
theorem pull_routed_eq_bound (hcalls : turns.map Turn.call = turns'.map Turn.call) (s₀ t₀ s : Session)
    (hraw : raw.source = some id) (hreg : (s.registry r).find? id = some id) (types : List FrameType) :
    let routed := s₀.passthroughAfter (.make (.routed r) codec config index) turns
    let bound := t₀.passthroughAfter (.make (.bound id) codec config index) turns'
    bound = { routed with binding := .bound id, emitted := bound.emitted } ∧
    ∃ n, s.pull bound raw types
        = ((s.pull routed raw types).1, { bound with emitted := bound.emitted + n }, (s.pull routed raw types).2.2) ∧
      (s.pull routed raw types).2.1 = { routed with emitted := routed.emitted + n } := by
  intro routed bound
  have hrouted : routed.binding = .routed r := binding_passthroughAfter ..
  have hbound : bound.binding = .bound id := binding_passthroughAfter ..
  have h : routed.Counterparts bound := counterparts_after hcalls (Passthrough.counterparts_make ..) s₀ t₀
  have hresolve : s.resolve routed.binding raw = s.resolve bound.binding raw := by
    rw [hrouted, hbound, resolve_routed hraw, hreg]
    rfl
  obtain ⟨n, hcounted, hpull⟩ := pull_of_counterparts h s hresolve types
  refine ⟨?_, n, hpull, hcounted⟩
  rw [Passthrough.Counterparts, hbound] at h
  exact h

/-- **A raw frame that leads nowhere** leaves everything as it was, but for a warning; and if the encoder is not set
up or not connected the pull fails as it does for one that is bound. -/
theorem pull_routed_of_unresolved (hcalls : turns.map Turn.call = turns'.map Turn.call) (s₀ t₀ s : Session)
    (hnone : raw.source.bind (s.registry r).find? = none) (types : List FrameType) :
    let routed := s₀.passthroughAfter (.make (.routed r) codec config index) turns
    let bound := t₀.passthroughAfter (.make (.bound id) codec config index) turns'
    s.pull routed raw types
      = if routed.settings.isSome && routed.destination.isSome
        then (.ok .noOutput, routed, s.warn (.unresolved raw.source))
        else ((s.pull bound raw types).1, routed, s) := by
  intro routed bound
  have hrouted : routed.binding = .routed r := binding_passthroughAfter ..
  have h : routed.Counterparts bound := counterparts_after hcalls (Passthrough.counterparts_make ..) s₀ t₀
  have hsettings : bound.settings = routed.settings := by rw [h]
  have hdestination : bound.destination = routed.destination := by rw [h]
  obtain hc | ⟨c, hc⟩ := Option.eq_none_or_eq_some routed.settings
  · rw [pull_of_unset hc, pull_of_unset (hsettings.trans hc), hc]
    rfl
  obtain hd | ⟨d, hd⟩ := Option.eq_none_or_eq_some routed.destination
  · rw [pull_of_unconnected hc hd, pull_of_unconnected (hsettings.trans hc) (hdestination.trans hd), hc, hd]
    rfl
  have hresolve : s.resolve routed.binding raw = none := by
    rw [hrouted]
    exact hnone
  rw [pull_of_unresolved hc hd hresolve, hc, hd]
  rfl

end Session

end EncodedFeed
