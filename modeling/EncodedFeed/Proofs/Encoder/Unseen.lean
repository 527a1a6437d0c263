import EncodedFeed.Session.Pipelines

/-!
# Changes that calls do not see

A lazy encoder makes many calls where one was made to it, but all that these do to a session is done by pulls
of passthrough encoders and by calls to fallbacks.  Two sessions that neither of these tells apart are told apart
by no call: the outcomes are the same, and what is left behind are again two such sessions (`Concordant`).  It may
be part of the difference that pulls ask for other frame types.

A change of the session that calls do not see is the case where one of the sessions is the other, changed
(`Unseen`).
-/

namespace EncodedFeed

theorem Call.retyped_id (c : Call) : c.retyped id = c := by
  cases c <;> rfl

theorem Lazy.kept_retyped (l : Lazy) (ψ : List FrameType → List FrameType) :
    l.kept.map (Call.retyped ψ) = l.kept := by
  simp only [Lazy.kept, List.map_append, List.map_map]
  rfl

/-! ### Two sessions -/

/-- Two results that are the same, with related remainders. -/
def Paired {α β : Type} (R : β → β → Prop) (x y : α × β) : Prop := y.1 = x.1 ∧ R x.2 y.2

theorem Paired.split {α β γ : Type} {R : γ → γ → Prop} {x y : α × β × γ} (h : Paired (Paired R) x y) :
    ∃ a b u v, x = (a, b, u) ∧ y = (a, b, v) ∧ R u v :=
  ⟨x.1, x.2.1, x.2.2, y.2.2, rfl, Prod.ext h.1 (Prod.ext h.2.1 rfl), h.2.2⟩

/-- Sessions in relation are told apart neither by pulls of passthrough encoders, which ask for the frame types `ψ`
in the second, nor by calls to fallbacks. -/
structure Concordant (R : Session → Session → Prop) (ψ : List FrameType → List FrameType) : Prop where
  pull {s t : Session} (h : R s t) (p : Passthrough) (raw : RawFrame) (types : List FrameType) :
    Paired (Paired R) (s.pull p raw types) (t.pull p raw (ψ types))
  registry {s t : Session} (h : R s t) (r : Ref .registry) : t.registry r = s.registry r
  able {s t : Session} (h : R s t) (f : Ref .fallback) : t.canFallBack f = s.canFallBack f
  ask {s t : Session} (h : R s t) (f : Ref .fallback) (format : SdpFormat) :
    R { s with fallbacks := s.fallbacks.modify f.number fun x => x.ask format }
      { t with fallbacks := t.fallbacks.modify f.number fun x => x.ask format }
  callFallback {s t : Session} (h : R s t) (f : Ref .fallback) (c : Call) :
    Paired R (s.callFallback f c) (t.callFallback f (c.retyped ψ))

namespace Concordant

variable {R : Session → Session → Prop} {ψ : List FrameType → List FrameType} (h : Concordant R ψ) {s t : Session}
  (hst : R s t)
include h hst

theorem callPassthrough (p : Passthrough) (c : Call) :
    Paired (Paired R) (s.callPassthrough p c) (t.callPassthrough p (c.retyped ψ)) := by
  cases c with
  | init settings =>
    unfold Call.retyped Session.callPassthrough
    dsimp only
    cases p.init settings <;> exact ⟨rfl, rfl, hst⟩
  | connect | release | rate => exact ⟨rfl, rfl, hst⟩
  | pull raw types => exact h.pull hst p raw types

theorem callChosen (l : Lazy) (chosen : Chosen) (c : Call) :
    Paired (Paired R) (s.callChosen l chosen c) (t.callChosen l chosen (c.retyped ψ)) := by
  cases chosen with
  | passthrough p =>
    obtain ⟨hresult, hencoder, hrest⟩ := h.callPassthrough hst p c
    exact ⟨hresult, congrArg Chosen.passthrough hencoder, hrest⟩
  | fallback =>
    obtain ⟨hresult, hrest⟩ := h.callFallback hst l.fallback c
    exact ⟨hresult, rfl, hrest⟩

theorem callAll (l : Lazy) (calls : List Call) (chosen : Chosen) :
    Paired (Paired R) (s.callAll l chosen calls) (t.callAll l chosen (calls.map (Call.retyped ψ))) := by
  induction calls generalizing s t chosen with
  | nil => exact ⟨rfl, rfl, hst⟩
  | cons c rest ih =>
    obtain ⟨result, after, s', t', hs', ht', hnext⟩ := (h.callChosen hst l chosen c).split
    rw [List.map_cons]
    unfold Session.callAll
    rw [hs', ht']
    cases result with
    | ok o => exact ih hnext after
    | error e => exact ⟨rfl, rfl, hnext⟩

theorem settle (l : Lazy) (chosen : Chosen) : Paired (Paired R) (s.settle l chosen) (t.settle l chosen) := by
  have hall := h.callAll hst l l.kept chosen
  rw [l.kept_retyped] at hall
  obtain ⟨result, after, s', t', hs', ht', hnext⟩ := hall.split
  unfold Session.settle
  rw [hs', ht']
  cases result <;> exact ⟨rfl, rfl, hnext⟩

theorem choose (l : Lazy) (raw : RawFrame) : Paired (Paired R) (s.choose l raw) (t.choose l raw) := by
  have hregistered : t.isRegistered l.registry raw = s.isRegistered l.registry raw := by
    unfold Session.isRegistered
    rw [h.registry hst]
  unfold Session.choose
  rw [hregistered]
  cases s.isRegistered l.registry raw with
  | true => exact h.settle hst _ _
  | false =>
    have hasked := h.ask hst l.fallback l.format
    dsimp only
    rw [h.able hst]
    cases s.canFallBack l.fallback with
    | true => exact h.settle hasked { l with mode := .fallback } .fallback
    | false => exact ⟨rfl, rfl, hasked⟩

theorem forward (l : Lazy) (c : Call) : Paired (Paired R) (s.forward l c) (t.forward l (c.retyped ψ)) := by
  unfold Session.forward
  cases l.chosen with
  | none => exact ⟨rfl, rfl, hst⟩
  | some chosen =>
    obtain ⟨hresult, hchosen, hrest⟩ := h.callChosen hst l chosen c
    exact ⟨hresult, congrArg (fun chosen => { l with chosen := some chosen }) hchosen, hrest⟩

theorem pullLazy (l : Lazy) (raw : RawFrame) (types : List FrameType) :
    Paired (Paired R) (s.pullLazy l raw types) (t.pullLazy l raw (ψ types)) := by
  unfold Session.pullLazy
  split
  · exact ⟨rfl, rfl, hst⟩
  · split
    · exact h.forward hst l (.pull raw types)
    · obtain ⟨result, after, s', t', hs', ht', hnext⟩ := (h.choose hst l raw).split
      rw [hs', ht']
      cases result with
      | ok o => exact h.forward hnext after (.pull raw types)
      | error e => exact ⟨rfl, rfl, hnext⟩

/-- **A call to a lazy encoder tells the sessions no more apart.** -/
theorem callLazy (l : Lazy) (c : Call) : Paired (Paired R) (s.callLazy l c) (t.callLazy l (c.retyped ψ)) := by
  cases c with
  | init settings => exact h.forward hst { l with settings := some settings } (.init settings)
  | connect d => exact h.forward hst { l with destination := some d } (.connect d)
  | rate hint => exact h.forward hst { l with rate := some hint } (.rate hint)
  | release =>
    obtain ⟨hresult, hlazy, hrest⟩ := h.forward hst l .release
    exact ⟨hresult, congrArg Lazy.reset hlazy, hrest⟩
  | pull raw types => exact h.pullLazy hst l raw types

end Concordant

/-! ### One session and a change -/

/-- The change `φ` of sessions is not seen by pulls of passthrough encoders, which ask for the frame types `ψ`
then, nor by calls to fallbacks. -/
structure Unseen (φ : Session → Session) (ψ : List FrameType → List FrameType) : Prop where
  pull (s : Session) (p : Passthrough) (raw : RawFrame) (types : List FrameType) :
    (φ s).pull p raw (ψ types)
      = ((s.pull p raw types).1, (s.pull p raw types).2.1, φ (s.pull p raw types).2.2)
  registry (s : Session) (r : Ref .registry) : (φ s).registry r = s.registry r
  able (s : Session) (f : Ref .fallback) : (φ s).canFallBack f = s.canFallBack f
  ask (s : Session) (f : Ref .fallback) (format : SdpFormat) :
    { φ s with fallbacks := (φ s).fallbacks.modify f.number fun x => x.ask format }
      = φ { s with fallbacks := s.fallbacks.modify f.number fun x => x.ask format }
  callFallback (s : Session) (f : Ref .fallback) (c : Call) :
    (φ s).callFallback f (c.retyped ψ) = ((s.callFallback f c).1, φ (s.callFallback f c).2)

namespace Unseen

variable {φ : Session → Session} {ψ : List FrameType → List FrameType} (h : Unseen φ ψ) (s : Session)
include h

theorem concordant : Concordant (fun s t => t = φ s) ψ where
  pull {s t} hst p raw types := by
    rw [hst, h.pull]
    exact ⟨rfl, rfl, rfl⟩
  registry {s t} hst r := by rw [hst, h.registry]
  able {s t} hst f := by rw [hst, h.able]
  ask {s t} hst f format := by rw [hst, h.ask]
  callFallback {s t} hst f c := by
    rw [hst, h.callFallback]
    exact ⟨rfl, rfl⟩

omit h in
theorem eq_of_paired {α β : Type} {x y : α × β × Session} (hxy : Paired (Paired fun s t => t = φ s) x y) :
    y = (x.1, x.2.1, φ x.2.2) := Prod.ext hxy.1 (Prod.ext hxy.2.1 hxy.2.2)

theorem callPassthrough (p : Passthrough) (c : Call) :
    (φ s).callPassthrough p (c.retyped ψ)
      = ((s.callPassthrough p c).1, (s.callPassthrough p c).2.1, φ (s.callPassthrough p c).2.2) :=
  eq_of_paired (h.concordant.callPassthrough rfl p c)

/-- **A call to a lazy encoder does not see the change.** -/
theorem callLazy (l : Lazy) (c : Call) :
    (φ s).callLazy l (c.retyped ψ)
      = ((s.callLazy l c).1, (s.callLazy l c).2.1, φ (s.callLazy l c).2.2) :=
  eq_of_paired (h.concordant.callLazy rfl l c)

end Unseen

end EncodedFeed
