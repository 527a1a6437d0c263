import EncodedFeed.Proofs.Encoder.Release

/-!
# Calls to a passthrough encoder

A pull of a passthrough encoder fails while the encoder is not set up and connected, finds nothing without a
source, and otherwise asks the source for a keyframe if one is wanted and passes on a frame unless it is paused.
How an encoder was made never changes; the count of images is never looked at.

Like lazy encoders, passthrough encoders are followed turn by turn, and anything may happen to the session
between two calls.
-/

namespace EncodedFeed

/-! ### Pulls -/

namespace Session

variable {s : Session} {p q : Passthrough} {c : Settings} {d : Destination} {id : RoutingId} {raw : RawFrame}
  {types : List FrameType}

theorem pull_of_unset (hc : p.settings = none) :
    s.pull p raw types = (.error (.uninitialized "init() has not been called"), p, s) := by
  unfold pull
  rw [hc]

theorem pull_of_unconnected (hc : p.settings = some c) (hd : p.destination = none) :
    s.pull p raw types = (.error (.uninitialized "no output sink registered"), p, s) := by
  unfold pull
  rw [hc, hd]

theorem pull_of_unresolved (hc : p.settings = some c) (hd : p.destination = some d)
    (hr : s.resolve p.binding raw = none) :
    s.pull p raw types = (.ok .noOutput, p, s.warn (.unresolved raw.source)) := by
  unfold pull
  rw [hc, hd]
  dsimp only
  rw [hr]

theorem pull_of_resolved (hc : p.settings = some c) (hd : p.destination = some d)
    (hr : s.resolve p.binding raw = some id) :
    s.pull p raw types
      = if p.sending then (if types.contains .key then s.requestKeyframe id else s).passOn p d id raw
        else (.ok .noOutput, p, if types.contains .key then s.requestKeyframe id else s) := by
  unfold pull
  rw [hc, hd]
  dsimp only
  rw [hr]

/-- Passing on a frame looks at the image only that the encoder makes of it, and then counts it. -/
theorem passOn_of_image (s : Session) (himage : ∀ f, p.image f raw = q.image f raw) (d : Destination)
    (id : RoutingId) :
    ∃ n, (s.passOn p d id raw).2.1 = { p with emitted := p.emitted + n } ∧
      s.passOn q d id raw
        = ((s.passOn p d id raw).1, { q with emitted := q.emitted + n }, (s.passOn p d id raw).2.2) := by
  unfold passOn
  cases s.take id with
  | mk f t =>
    cases f with
    | none => exact ⟨0, rfl, rfl⟩
    | some f =>
      dsimp only
      rw [himage f]
      cases t.present d (q.image f raw) with
      | mk refusal t =>
        cases refusal with
        | none => exact ⟨1, rfl, rfl⟩
        | some e => exact ⟨0, rfl, rfl⟩

/-- **Pulls of two encoders are the same** if they have the same settings and output and are led to the same source,
or nowhere, and if, while they are set up, both send or neither does and both make the same image of each frame. -/
theorem pull_alike (s : Session) (hsettings : q.settings = p.settings) (hdestination : q.destination = p.destination)
    (hresolve : s.resolve q.binding raw = s.resolve p.binding raw)
    (hactive : ∀ c, p.settings = some c → q.sending = p.sending ∧ ∀ f, p.image f raw = q.image f raw)
    (types : List FrameType) :
    ∃ n, (s.pull p raw types).2.1 = { p with emitted := p.emitted + n } ∧
      s.pull q raw types
        = ((s.pull p raw types).1, { q with emitted := q.emitted + n }, (s.pull p raw types).2.2) := by
  obtain hc | ⟨c, hc⟩ := Option.eq_none_or_eq_some p.settings
  · rw [pull_of_unset hc, pull_of_unset (hsettings.trans hc)]
    exact ⟨0, rfl, rfl⟩
  have hc' := hsettings.trans hc
  obtain hd | ⟨d, hd⟩ := Option.eq_none_or_eq_some p.destination
  · rw [pull_of_unconnected hc hd, pull_of_unconnected hc' (hdestination.trans hd)]
    exact ⟨0, rfl, rfl⟩
  have hd' := hdestination.trans hd
  obtain hr | ⟨id, hr⟩ := Option.eq_none_or_eq_some (s.resolve p.binding raw)
  · rw [pull_of_unresolved hc hd hr, pull_of_unresolved hc' hd' (hresolve.trans hr)]
    exact ⟨0, rfl, rfl⟩
  obtain ⟨hsending, himage⟩ := hactive c hc
  rw [pull_of_resolved hc hd hr, pull_of_resolved hc' hd' (hresolve.trans hr)]
  by_cases hs : p.sending = true
  · rw [if_pos hs, if_pos (hsending.trans hs)]
    exact passOn_of_image _ himage d id
  · rw [if_neg hs, if_neg fun hq => hs (hsending.symm.trans hq)]
    exact ⟨0, rfl, rfl⟩

/-- Of an encoder a pull changes the count only. -/
theorem pull_counts (s : Session) (p : Passthrough) (raw : RawFrame) (types : List FrameType) :
    ∃ n, (s.pull p raw types).2.1 = { p with emitted := p.emitted + n } := by
  have hresolve : s.resolve p.binding raw = s.resolve p.binding raw := rfl
  obtain ⟨n, hn, -⟩ := s.pull_alike rfl rfl hresolve (fun _ _ => ⟨rfl, fun _ => rfl⟩) types
  exact ⟨n, hn⟩

end Session

/-! ### How an encoder was made -/

namespace Passthrough

/-- The encoder as it was made. -/
def made (p : Passthrough) : Passthrough := make p.binding p.codec p.config p.pinned

/-- Setting up keeps nothing of an encoder but how it was made, its output and its count. -/
theorem init_eq (p : Passthrough) (c : Settings) :
    p.init c
      = (p.made.init c).map fun q => { q with destination := p.destination, emitted := p.emitted } := by
  unfold init
  have hcodec : p.made.codec = p.codec := rfl
  rw [hcodec]
  by_cases hzero : c.width = 0 ∨ c.height = 0
  · rw [if_pos hzero, if_pos hzero]
    rfl
  · rw [if_neg hzero, if_neg hzero]
    by_cases hne : c.codec ≠ p.codec
    · rw [if_pos hne, if_pos hne]
      rfl
    · rw [if_neg hne, if_neg hne]
      rfl

/-- What setting up gives. -/
theorem eq_of_init {p q : Passthrough} {c : Settings} (h : p.init c = .ok q) :
    c.codec = p.codec ∧
      q = { p with settings := some c, layer := p.pinned <|> c.matchingStream?, sending := true } := by
  unfold init at h
  split at h
  · cases h
  · split at h
    · cases h
    · next hcodec =>
      cases h
      exact ⟨Decidable.not_not.mp hcodec, rfl⟩

theorem made_of_init {p q : Passthrough} {c : Settings} (h : p.init c = .ok q) : q.made = p.made := by
  obtain ⟨-, rfl⟩ := eq_of_init h
  rfl

theorem made_release (p : Passthrough) : p.release.made = p.made := by
  unfold release
  split <;> rfl

end Passthrough

namespace Session

theorem made_pull (s : Session) (p : Passthrough) (raw : RawFrame) (types : List FrameType) :
    (s.pull p raw types).2.1.made = p.made := by
  obtain ⟨n, hn⟩ := s.pull_counts p raw types
  rw [hn]
  rfl

/-- No call changes how an encoder was made. -/
theorem made_callPassthrough (s : Session) (p : Passthrough) (c : Call) :
    (s.callPassthrough p c).2.1.made = p.made := by
  cases c with
  | init c =>
    unfold callPassthrough
    dsimp only
    split
    · next q hq => exact Passthrough.made_of_init hq
    · rfl
  | connect d => rfl
  | release => exact p.made_release
  | rate hint => rfl
  | pull raw types => exact s.made_pull p raw types

/-! ### Turn by turn -/

/-- A passthrough encoder after some turns. -/
def passthroughAfter (s : Session) (p : Passthrough) : List Turn → Passthrough
  | [] => p
  | t :: rest =>
    let (_, p, s) := (t.meanwhile s).callPassthrough p t.call
    s.passthroughAfter p rest

theorem passthroughAfter_append (past turns : List Turn) (s : Session) (p : Passthrough) :
    ∃ t : Session, s.passthroughAfter p (past ++ turns) = t.passthroughAfter (s.passthroughAfter p past) turns := by
  induction past generalizing s p with
  | nil => exact ⟨s, rfl⟩
  | cons t rest ih => exact ih _ _

theorem made_passthroughAfter (turns : List Turn) (s : Session) (p : Passthrough) :
    (s.passthroughAfter p turns).made = p.made := by
  induction turns generalizing s p with
  | nil => rfl
  | cons t rest ih => exact (ih _ _).trans (made_callPassthrough _ p t.call)

end Session

end EncodedFeed
