import EncodedFeed.Proofs.Encoder.Blind
import EncodedFeed.Proofs.Session.Kept
import EncodedFeed.Proofs.Session.Run
import Mathlib.Tactic.Set

/-!
# Sessions with one encoder exchanged

A lazy encoder that is set up and connected stands for a passthrough encoder: the one it has chosen or, as
long as it has not, the one that it will make out of what it has kept.  Two sessions are twins if in the one
a passthrough encoder is in the place of a lazy encoder that stands for it, and nothing else differs.

What is done to twins has the same result and leaves twins, be it done to sources, outputs, pipelines or other
encoders.  Only when an undecided lazy encoder is pulled it matters where the raw frame comes from.
-/

namespace EncodedFeed

/-! ### What a lazy encoder stands for -/

namespace Lazy

/-- A lazy encoder in working order stands for a passthrough encoder; it has chosen it, if it may not be
undecided. -/
structure StandsFor (l : Lazy) (r : Ref .registry) (p : Passthrough) (undecided : Bool) : Prop where
  settings : l.settings.isSome = true
  destination : l.destination.isSome = true
  decision : l.chosen = some (.passthrough p) ∨
    undecided = true ∧ l.chosen = none ∧ l.registry = r ∧
      ∃ settings d q, l.settings = some settings ∧ l.destination = some d ∧
        l.passthrough.init settings = .ok q ∧
        p = (l.rate.map (q.connect d).setRate).getD (q.connect d)

variable {l : Lazy} {r : Ref .registry} {p : Passthrough} {undecided : Bool}

/-- A hint. -/
theorem StandsFor.rate (h : l.StandsFor r p undecided) (s : Session) (hint : RateHint) :
    ∃ l', s.callLazy l (.rate hint) = (.ok .noOutput, l', s) ∧ l'.StandsFor r (p.setRate hint) undecided := by
  rcases h.decision with hchosen | ⟨hu, hchosen, hr, settings, d, q, hset, hd, hq, hp⟩
  · refine ⟨{ l with rate := some hint, chosen := some (.passthrough (p.setRate hint)) }, ?_,
      h.settings, h.destination, .inl rfl⟩
    simp only [Session.callLazy, Session.forward, hchosen, Session.callChosen, Session.callPassthrough]
  · refine ⟨{ l with rate := some hint }, ?_, h.settings, h.destination,
      .inr ⟨hu, hchosen, hr, settings, d, q, hset, hd, hq, ?_⟩⟩
    · simp only [Session.callLazy, Session.forward, hchosen]
    · -- the later hint counts
      rw [hp]
      cases l.rate <;> rfl

/-- Deciding for passthrough. -/
theorem StandsFor.choose {settings : Settings} {d : Destination} {q : Passthrough}
    (hset : l.settings = some settings) (hd : l.destination = some d)
    (hq : l.passthrough.init settings = .ok q)
    (hp : p = (l.rate.map (q.connect d).setRate).getD (q.connect d)) (s : Session) {raw : RawFrame}
    (hraw : s.isRegistered l.registry raw = true) :
    s.choose l raw = (.ok .noOutput, { l with mode := .passthrough, chosen := some (.passthrough p) }, s) := by
  set m : Lazy := { l with mode := .passthrough } with hm
  have hinit (rest : List Call) : s.callAll m (.passthrough l.passthrough) (.init settings :: rest)
      = s.callAll m (.passthrough q) rest := by
    simp only [Session.callAll, Session.callChosen, Session.callPassthrough, hq]
  have hall : s.callAll m (.passthrough l.passthrough) m.kept = (.ok .noOutput, .passthrough p, s) := by
    have hkept : m.kept = .init settings :: .connect d :: l.rate.toList.map .rate := by
      simp only [Lazy.kept, hm, hset, hd, Option.toList_some, List.map_singleton, List.cons_append,
        List.nil_append]
    rw [hkept, hinit, hp]
    cases l.rate <;> rfl
  unfold Session.choose
  rw [hraw, if_pos rfl]
  show s.settle m (.passthrough l.passthrough) = _
  unfold Session.settle
  rw [hall]

/-- **A pull**, of a registered source unless it is already decided. -/
theorem StandsFor.pull (h : l.StandsFor r p undecided) (s : Session) {raw : RawFrame} (types : List FrameType)
    (hraw : undecided = true → s.isRegistered r raw = true) :
    ∃ l', s.callLazy l (.pull raw types)
        = ((s.pull p raw types).1, l', (s.pull p raw types).2.2) ∧
      l'.StandsFor r (s.pull p raw types).2.1 false := by
  have hready : (l.settings.isNone || l.destination.isNone) = false := by
    rw [Option.isNone_eq_false_iff.mpr h.settings, Option.isNone_eq_false_iff.mpr h.destination]
    rfl
  rcases h.decision with hchosen | ⟨hu, hchosen, hr, settings, d, q, hset, hd, hq, hp⟩
  · refine ⟨{ l with chosen := some (.passthrough (s.pull p raw types).2.1) }, ?_, h.settings, h.destination,
      .inl rfl⟩
    simp only [Session.callLazy, Session.pullLazy, hready, hchosen, Option.isSome_some, if_true,
      Session.forward, Session.callChosen, Session.callPassthrough, Bool.false_eq_true, if_false]
  · have hchoose := StandsFor.choose hset hd hq hp s (hr ▸ hraw hu)
    refine ⟨{ l with mode := .passthrough, chosen := some (.passthrough (s.pull p raw types).2.1) }, ?_,
      h.settings, h.destination, .inl rfl⟩
    simp only [Session.callLazy, Session.pullLazy, hready, hchosen, Option.isSome_none, hchoose,
      Session.forward, Session.callChosen, Session.callPassthrough, Bool.false_eq_true, if_false]

theorem StandsFor.release (h : l.StandsFor r p undecided) (s : Session) :
    ∃ l', s.callLazy l .release = (.ok .noOutput, l', s) := by
  rcases h.decision with hchosen | ⟨-, hchosen, -⟩
  · refine ⟨({ l with chosen := some (.passthrough p.release) } : Lazy).reset, ?_⟩
    simp only [Session.callLazy, Session.forward, hchosen, Session.callChosen, Session.callPassthrough]
  · refine ⟨l.reset, ?_⟩
    simp only [Session.callLazy, Session.forward, hchosen]

end Lazy

/-! ### Twins -/

/-- The session `t` is `s` with a passthrough encoder in the place of the lazy encoder `e` that stands for it,
unless that is gone. -/
structure Twins (e : Ref .encoder) (r : Ref .registry) (undecided : Bool) (s t : Session) : Prop where
  known : e.number < s.encoders.next
  twin : ∃ p, t = s.setEncoder e (.passthrough p) ∧
    ∀ x, s.encoder? e = some x → ∃ l, x = .lazy l ∧ l.StandsFor r p undecided

namespace Twins

variable {e e' : Ref .encoder} {r : Ref .registry} {undecided : Bool} {s t : Session}

/-- The encoder is gone. -/
theorem of_none (hknown : e.number < s.encoders.next) (h : s.encoder? e = none) (p : Passthrough) :
    Twins e r undecided s s where
  known := hknown
  twin := by
    refine ⟨p, ?_, fun x hx => ?_⟩
    · rw [Session.setEncoder, Table.modify_of_get?_eq_none _ h]
    · rw [h] at hx
      cases hx

/-! #### What does not look at encoders -/

/-- An operation that neither looks at encoders nor changes them. -/
def Blind {α : Type} (f : Session → α × Session) : Prop :=
  ∀ s x, f (s.withEncoders x) = ((f s).1, (f s).2.withEncoders x)

/-- A change of which the same is true. -/
def BlindChange (f : Session → Session) : Prop := ∀ s x, f (s.withEncoders x) = (f s).withEncoders x

/-- **A blind operation.** -/
theorem of_blind {α : Type} {f : Session → α × Session} (hf : Blind f) (h : Twins e r undecided s t) :
    (f s).1 = (f t).1 ∧ Twins e r undecided (f s).2 (f t).2 := by
  obtain ⟨p, ht, hl⟩ := h.twin
  have hsame : (f s).2.encoders = s.encoders := by
    have heq := congrArg (fun r => r.2.encoders) (hf s s.encoders)
    exact heq
  have hset : (f s).2.setEncoder e (.passthrough p)
      = (f s).2.withEncoders (s.encoders.modify e.number fun _ => .passthrough p) := by
    rw [Session.setEncoder, hsame]
    rfl
  have htwin : f t = ((f s).1, (f s).2.setEncoder e (.passthrough p)) := by
    rw [ht, hset]
    exact hf s _
  rw [htwin]
  refine ⟨rfl, by rw [hsame]; exact h.known, p, rfl, fun x hx => hl x ?_⟩
  rw [Session.encoder?, hsame] at hx
  exact hx

theorem of_blind_change {f : Session → Session} (hf : BlindChange f) (h : Twins e r undecided s t) :
    Twins e r undecided (f s) (f t) :=
  (of_blind (f := fun s => ((), f s)) (fun s x => congrArg (Prod.mk ()) (hf s x)) h).2

theorem blind_register (r' : Ref .registry) (id source : RoutingId) :
    Blind fun s => s.register r' id source := by
  intro s x
  have hcontains : ((s.withEncoders x).registry r').contains id = (s.registry r').contains id := rfl
  simp only [Session.register, hcontains]
  cases (s.registry r').contains id <;> rfl

theorem blind_addSource (r' : Ref .registry) (c : SourceConfig) : Blind fun s => s.addSource r' c := by
  intro s x
  have hregister := blind_register r' ⟨s.sources.next⟩ ⟨s.sources.next⟩
    { s with sources := s.sources.add (Source.ofConfig c r') } x
  exact congrArg (fun y => ((⟨s.sources.next⟩ : RoutingId), y.2)) hregister

theorem blind_dropHandle (id : RoutingId) : BlindChange fun s => s.dropHandle id := by
  intro s x
  show (s.withEncoders x).dropHandle id = (s.dropHandle id).withEncoders x
  have hsame : (s.withEncoders x).source? id = s.source? id := rfl
  unfold Session.dropHandle
  rw [hsame]
  cases s.source? id with
  | none => rfl
  | some src =>
    dsimp only
    split <;> rfl

theorem blind_removeTaps (taps : List (RoutingId × TapId)) :
    BlindChange fun s => taps.foldl (fun s a => (s.removeTap a.1 a.2).2) s := by
  intro s x
  induction taps generalizing s with
  | nil => rfl
  | cons a rest ih => exact ih (s.removeTap a.1 a.2).2

theorem blind_detach (p : Ref .pipeline) : BlindChange fun s => s.detach p := by
  intro s x
  show (s.withEncoders x).detach p = (s.detach p).withEncoders x
  have hsame : (s.withEncoders x).pipeline? p = s.pipeline? p := rfl
  unfold Session.detach
  rw [hsame]
  cases s.pipeline? p with
  | none => rfl
  | some y => exact blind_removeTaps _ (s.modifyPipeline p fun y => { y with attachments := [] }) x

theorem blind_checkDepth (id : RoutingId) : BlindChange fun s => s.checkDepth id := by
  intro s x
  show (s.withEncoders x).checkDepth id = (s.checkDepth id).withEncoders x
  have hsame : (s.withEncoders x).source? id = s.source? id := rfl
  unfold Session.checkDepth
  rw [hsame]
  cases s.source? id with
  | none => rfl
  | some src =>
    dsimp only
    split <;> rfl

theorem blind_tally (p : Ref .pipeline) (o : Except Error Outcome) : BlindChange fun s => s.tally p o := by
  intro s x
  cases o with
  | error e => rfl
  | ok o => cases o <;> rfl

theorem blind_checkRelease (o : Except Error Outcome) : BlindChange fun s => s.checkRelease o := by
  intro s x
  cases o <;> rfl

/-! #### Calls -/

/-- A call to another encoder. -/
theorem call_other (hne : e' ≠ e) (c : Call) (h : Twins e r undecided s t) :
    (s.call e' c).1 = (t.call e' c).1 ∧ Twins e r undecided (s.call e' c).2 (t.call e' c).2 := by
  obtain ⟨p, ht, hl⟩ := h.twin
  have hcall := s.call_setEncoder hne (.passthrough p) c
  obtain ⟨hnext, hget⟩ := s.encoder?_call_of_ne hne c
  rw [ht, hcall]
  refine ⟨rfl, by rw [hnext]; exact h.known, p, rfl, fun x hx => hl x ?_⟩
  rw [hget] at hx
  exact hx

/-- A call to the encoder itself, if lazy encoders answer it as the passthrough encoders they stand for. -/
theorem call_self {c : Call} {after : Bool} (h : Twins e r undecided s t)
    (hc : ∀ (l : Lazy) (p : Passthrough), l.StandsFor r p undecided →
      ∃ l', s.callLazy l c = ((s.callPassthrough p c).1, l', (s.callPassthrough p c).2.2) ∧
        l'.StandsFor r (s.callPassthrough p c).2.1 after) :
    (s.call e c).1 = (t.call e c).1 ∧ Twins e r after (s.call e c).2 (t.call e c).2 := by
  obtain ⟨p, ht, hl⟩ := h.twin
  cases hx : s.encoder? e with
  | none =>
    have hsame : t = s := by rw [ht, Session.setEncoder, Table.modify_of_get?_eq_none _ hx]
    have hcall : s.call e c = (.ok .noOutput, s) := by rw [Session.call, hx]
    rw [hsame, hcall]
    exact ⟨rfl, of_none h.known hx p⟩
  | some x =>
    obtain ⟨l, rfl, hstands⟩ := hl x hx
    obtain ⟨l', hcall, hstands'⟩ := hc l p hstands
    set q := (s.callPassthrough p c).2.1
    set u := (s.callPassthrough p c).2.2 with hu
    have hencoders : u.encoders = s.encoders := s.encoders_callPassthrough p c
    have hs : s.call e c = ((s.callPassthrough p c).1, u.setEncoder e (.lazy l')) := by
      simp only [Session.call, hx, hcall]
    have htget : t.encoder? e = some (.passthrough p) := by
      rw [ht, Session.encoder?_setEncoder, if_pos rfl, hx, Option.map_some]
    have htpass : t.callPassthrough p c = ((s.callPassthrough p c).1, q,
        u.withEncoders (s.encoders.modify e.number fun _ => .passthrough p)) := by
      rw [ht]
      exact s.callPassthrough_withEncoders _ p c
    have htcall : t.call e c = ((s.callPassthrough p c).1, u.setEncoder e (.passthrough q)) := by
      simp only [Session.call, htget, htpass, Session.setEncoder, Session.withEncoders, Table.modify_modify,
        hencoders]
    rw [hs, htcall]
    refine ⟨rfl, ?_, q, ?_, fun y hy => ?_⟩
    · rw [Session.setEncoder, Table.next_modify, hencoders]
      exact h.known
    · simp only [Session.setEncoder, Table.modify_modify]
    · rw [Session.encoder?_setEncoder, if_pos rfl, Session.encoder?, hencoders] at hy
      obtain ⟨z, -, rfl⟩ := Option.map_eq_some_iff.mp hy
      exact ⟨l', rfl, hstands'⟩

theorem hint (hint : RateHint) (h : Twins e r undecided s t) :
    (s.call e (.rate hint)).1 = (t.call e (.rate hint)).1 ∧
      Twins e r undecided (s.call e (.rate hint)).2 (t.call e (.rate hint)).2 :=
  h.call_self fun _ _ hl => hl.rate s hint

theorem pull {raw : RawFrame} (types : List FrameType) (h : Twins e r undecided s t)
    (hraw : undecided = true → s.isRegistered r raw = true) :
    (s.call e (.pull raw types)).1 = (t.call e (.pull raw types)).1 ∧
      Twins e r false (s.call e (.pull raw types)).2 (t.call e (.pull raw types)).2 :=
  h.call_self fun _ _ hl => hl.pull s types hraw

/-! #### Objects made and let go of -/

theorem addEncoder (x : Encoder) (h : Twins e r undecided s t) :
    (s.addEncoder x).1 = (t.addEncoder x).1 ∧ Twins e r undecided (s.addEncoder x).2 (t.addEncoder x).2 := by
  obtain ⟨p, rfl, hl⟩ := h.twin
  have hne : e.number ≠ s.encoders.next := Nat.ne_of_lt h.known
  refine ⟨?_, ?_, p, ?_, fun y hy => hl y ?_⟩
  · simp only [Session.addEncoder, Session.setEncoder, Table.next_modify]
  · simp only [Session.addEncoder, Table.next_add]
    exact Nat.lt_succ_of_lt h.known
  · simp only [Session.addEncoder, Session.setEncoder, Table.add_modify _ h.known]
  · rw [Session.encoder?, Session.addEncoder, Table.get?_add, if_neg hne] at hy
    exact hy

theorem dropEncoder (hne : e' ≠ e) (h : Twins e r undecided s t) :
    Twins e r undecided (s.dropEncoder e') (t.dropEncoder e') := by
  obtain ⟨p, rfl, hl⟩ := h.twin
  have hnumber : e.number ≠ e'.number := fun heq => hne (congrArg Ref.mk heq.symm)
  refine ⟨?_, p, ?_, fun y hy => hl y ?_⟩
  · rw [Session.dropEncoder, Table.next_erase]
    exact h.known
  · simp only [Session.dropEncoder, Session.setEncoder, Table.erase_modify_comm _ hnumber]
  · rw [Session.encoder?_dropEncoder, if_neg hne] at hy
    exact hy

/-- Without the encoder twins are one and the same. -/
theorem dropEncoder_self (h : Twins e r undecided s t) : s.dropEncoder e = t.dropEncoder e := by
  obtain ⟨p, rfl, -⟩ := h.twin
  simp only [Session.dropEncoder, Session.setEncoder, Table.erase_modify]

theorem pipeline? (h : Twins e r undecided s t) (p : Ref .pipeline) : t.pipeline? p = s.pipeline? p := by
  obtain ⟨_, rfl, -⟩ := h.twin
  rfl

theorem addPipeline (hne : e' ≠ e) (settings : Settings) (o : Ref .output) (h : Twins e r undecided s t) :
    (s.addPipeline e' settings o).1 = (t.addPipeline e' settings o).1 ∧
      Twins e r undecided (s.addPipeline e' settings o).2 (t.addPipeline e' settings o).2 := by
  have hnext : t.pipelines.next = s.pipelines.next := by
    obtain ⟨_, rfl, -⟩ := h.twin
    rfl
  obtain ⟨hinit, h₁⟩ := h.call_other hne (.init settings)
  unfold Session.addPipeline
  rw [hnext]
  cases hs : s.call e' (.init settings) with
  | mk result s₁ =>
  cases ht : t.call e' (.init settings) with
  | mk result' t₁ =>
  rw [hs, ht] at hinit h₁
  dsimp only at hinit h₁
  subst hinit
  cases result with
  | error err => exact ⟨rfl, h₁.dropEncoder hne⟩
  | ok _ =>
    obtain ⟨hconnect, h₂⟩ := h₁.call_other hne (.connect ⟨o, some ⟨s.pipelines.next⟩⟩)
    dsimp only
    cases hs₂ : s₁.call e' (.connect ⟨o, some ⟨s.pipelines.next⟩⟩) with
    | mk result s₂ =>
    cases ht₂ : t₁.call e' (.connect ⟨o, some ⟨s.pipelines.next⟩⟩) with
    | mk result' t₂ =>
    rw [hs₂, ht₂] at hconnect h₂
    dsimp only at hconnect h₂
    subst hconnect
    cases result with
    | error err => exact ⟨rfl, h₂.dropEncoder hne⟩
    | ok _ =>
      exact ⟨rfl, of_blind_change (f := fun s => { s with pipelines := s.pipelines.add { encoder := e' } })
        (fun _ _ => rfl) h₂⟩

theorem hintRate (p : Ref .pipeline) (hint : RateHint) (h : Twins e r undecided s t) :
    Twins e r undecided (s.hintRate p hint) (t.hintRate p hint) := by
  unfold Session.hintRate
  rw [h.pipeline?]
  cases s.pipeline? p with
  | none => exact h
  | some x =>
    by_cases hx : x.encoder = e
    · dsimp only
      rw [hx]
      exact (h.hint hint).2
    · exact (h.call_other hx _).2

/-- A released encoder that is let go of leaves nothing behind. -/
theorem release (h : Twins e r undecided s t) :
    ∃ s' t', s.call e .release = (.ok .noOutput, s') ∧ t.call e .release = (.ok .noOutput, t') ∧
      s'.dropEncoder e = t'.dropEncoder e ∧ s'.encoders.next = s.encoders.next := by
  obtain ⟨p, ht, hl⟩ := h.twin
  cases hx : s.encoder? e with
  | none =>
    have hsame : t = s := by rw [ht, Session.setEncoder, Table.modify_of_get?_eq_none _ hx]
    have hcall : s.call e .release = (.ok .noOutput, s) := by rw [Session.call, hx]
    exact ⟨s, s, hcall, by rw [hsame, hcall], rfl, rfl⟩
  | some x =>
    obtain ⟨l, rfl, hstands⟩ := hl x hx
    obtain ⟨l', hcall⟩ := hstands.release s
    have htget : t.encoder? e = some (.passthrough p) := by
      rw [ht, Session.encoder?_setEncoder, if_pos rfl, hx, Option.map_some]
    refine ⟨s.setEncoder e (.lazy l'), t.setEncoder e (.passthrough p.release), ?_, ?_, ?_, ?_⟩
    · simp only [Session.call, hx, hcall]
    · simp only [Session.call, htget, Session.callPassthrough]
    · rw [ht]
      simp only [Session.dropEncoder, Session.setEncoder, Table.erase_modify]
    · rw [Session.setEncoder, Table.next_modify]

/-- Whoever lets go of the pipeline around the encoder lets go of the encoder. -/
theorem dropPipeline (p : Ref .pipeline) (h : Twins e r undecided s t) :
    Twins e r undecided (s.dropPipeline p) (t.dropPipeline p) := by
  have hd : Twins e r undecided (s.detach p) (t.detach p) := h.of_blind_change (blind_detach p)
  set f : Session → Session := fun s => { s with pipelines := s.pipelines.erase p.number }
  unfold Session.dropPipeline
  rw [h.pipeline?]
  cases s.pipeline? p with
  | none => exact h
  | some x =>
    by_cases hx : x.encoder = e
    · obtain ⟨s', t', hs, ht, hdrop, hnext⟩ := hd.release
      obtain ⟨q, -, -⟩ := hd.twin
      have hknown : e.number < (s'.dropEncoder e).encoders.next := by
        rw [Session.dropEncoder, Table.next_erase, hnext]
        exact hd.known
      have hgone : (s'.dropEncoder e).encoder? e = none := by rw [Session.encoder?_dropEncoder, if_pos rfl]
      dsimp only
      rw [hx, hs, ht]
      show Twins e r undecided (f (s'.dropEncoder e)) (f (t'.dropEncoder e))
      rw [← hdrop]
      exact of_none hknown hgone q
    · obtain ⟨hresult, hcall⟩ := hd.call_other hx .release
      dsimp only
      rw [← hresult]
      have hchecked := hcall.of_blind_change (blind_checkRelease ((s.detach p).call x.encoder .release).1)
      exact (hchecked.dropEncoder hx).of_blind_change (f := f) fun _ _ => rfl

end Twins

end EncodedFeed
