import EncodedFeed.Proofs.Encoder.Passthrough

/-!
# Releasing a passthrough encoder

A release leaves some things behind: the count of images, the layer they were marked with, and that the
encoder does not send.  The count is never looked at.  Layer and sending matter only while the encoder is set
up, and setting it up decides both anew.  So encoders that agree in everything else are `Interchangeable`:
they answer every call alike, do the same to the session, and are interchangeable afterwards.  A released
encoder is interchangeable with a new one.
-/

namespace EncodedFeed

namespace Passthrough

/-- Both were made in the same way and have the same settings and output; while they are set up, they also
mark images with the same layer, and both send or neither does. -/
structure Interchangeable (p q : Passthrough) : Prop where
  made : p.made = q.made
  settings : p.settings = q.settings
  destination : p.destination = q.destination
  active : ∀ c, p.settings = some c → p.layer = q.layer ∧ p.sending = q.sending

/-- The same outcome, the same session, and encoders that are interchangeable. -/
structure SameResult (r r' : Session.Result Passthrough) : Prop where
  outcome : r.1 = r'.1
  encoder : r.2.1.Interchangeable r'.2.1
  session : r.2.2 = r'.2.2

namespace Interchangeable

variable {p q : Passthrough} (h : p.Interchangeable q) (s : Session)
include h

theorem binding_eq : p.binding = q.binding := congrArg (·.binding) h.made

theorem codec_eq : p.codec = q.codec := congrArg (·.codec) h.made

theorem config_eq : p.config = q.config := congrArg (·.config) h.made

/-- The counts may be what they like. -/
theorem counting (m n : Nat) : Interchangeable { p with emitted := m } { q with emitted := n } :=
  ⟨h.made, h.settings, h.destination, h.active⟩

/-- While they are set up, both make the same image of a frame. -/
theorem image_eq {c : Settings} (hc : p.settings = some c) (f : EncodedFrame) (raw : RawFrame) :
    p.image f raw = q.image f raw := by
  unfold image
  rw [h.codec_eq, h.config_eq, (h.active c hc).1]

/-- Setting up looks at how the encoder was made, and decides anew on layer and sending. -/
theorem init (c : Settings) : SameResult (s.callPassthrough p (.init c)) (s.callPassthrough q (.init c)) := by
  unfold Session.callPassthrough
  dsimp only
  rw [p.init_eq c, q.init_eq c, h.made, h.destination]
  cases hq : q.made.init c with
  | error e => exact ⟨rfl, h, rfl⟩
  | ok new => exact ⟨rfl, ⟨rfl, rfl, rfl, fun _ _ => ⟨rfl, rfl⟩⟩, rfl⟩

theorem release : p.release.Interchangeable q.release := by
  unfold Passthrough.release
  rw [h.settings, h.destination]
  split
  · exact h
  · refine ⟨h.made, rfl, rfl, fun c hc => ?_⟩
    cases hc

theorem pull (raw : RawFrame) (types : List FrameType) :
    SameResult (s.pull p raw types) (s.pull q raw types) := by
  have hresolve : s.resolve q.binding raw = s.resolve p.binding raw := by rw [h.binding_eq]
  obtain ⟨n, hp, hq⟩ := s.pull_alike h.settings.symm h.destination.symm hresolve
    (fun c hc => ⟨(h.active c hc).2.symm, fun f => h.image_eq hc f raw⟩) types
  rw [hq]
  refine ⟨rfl, ?_, rfl⟩
  rw [hp]
  exact h.counting _ _

/-- **Interchangeable encoders answer every call alike.** -/
theorem call (c : Call) : SameResult (s.callPassthrough p c) (s.callPassthrough q c) := by
  cases c with
  | init c => exact h.init s c
  | connect d => exact ⟨rfl, ⟨h.made, h.settings, rfl, h.active⟩, rfl⟩
  | release => exact ⟨rfl, h.release, rfl⟩
  | rate hint => exact ⟨rfl, ⟨h.made, h.settings, h.destination, fun c hc => ⟨(h.active c hc).1, rfl⟩⟩, rfl⟩
  | pull raw types => exact h.pull s raw types

end Interchangeable

/-! ### What a release leaves -/

/-- Neither settings nor output survive a release. -/
theorem released (p : Passthrough) : p.release.settings = none ∧ p.release.destination = none := by
  unfold release
  split
  · next h => simpa only [Bool.and_eq_true, Option.isNone_iff_eq_none] using h
  · exact ⟨rfl, rfl⟩

theorem release_release (p : Passthrough) : p.release.release = p.release := by
  obtain ⟨hsettings, hdestination⟩ := p.released
  rw [release.eq_def p.release, hsettings, hdestination]
  rfl

/-- For all that matters a released encoder is as it was made. -/
theorem interchangeable_release (p : Passthrough) : p.release.Interchangeable p.made := by
  obtain ⟨hsettings, hdestination⟩ := p.released
  refine ⟨p.made_release, hsettings, hdestination, fun c hc => ?_⟩
  rw [hsettings] at hc
  cases hc

/-- What a host sees of a call, and of the encoder afterwards. -/
structure Sight where
  outcome : Except Error Outcome
  configured : Bool
  capabilities : Capabilities
  session : Session

end Passthrough

/-! ### Turn by turn -/

namespace Session

/-- What is seen of a passthrough encoder turn by turn. -/
def passthroughSights (s : Session) (p : Passthrough) : List Turn → List Passthrough.Sight
  | [] => []
  | t :: rest =>
    let (outcome, p, s) := (t.meanwhile s).callPassthrough p t.call
    ⟨outcome, p.isConfigured, Passthrough.capabilities p.config, s⟩ :: s.passthroughSights p rest

theorem passthroughSights_cons (s : Session) (p : Passthrough) (t : Turn) (rest : List Turn) :
    s.passthroughSights p (t :: rest)
      = ⟨((t.meanwhile s).callPassthrough p t.call).1, ((t.meanwhile s).callPassthrough p t.call).2.1.isConfigured,
          Passthrough.capabilities ((t.meanwhile s).callPassthrough p t.call).2.1.config,
          ((t.meanwhile s).callPassthrough p t.call).2.2⟩
        :: ((t.meanwhile s).callPassthrough p t.call).2.2.passthroughSights
            ((t.meanwhile s).callPassthrough p t.call).2.1 rest := rfl

theorem passthroughSights_eq (turns : List Turn) (s : Session) {p q : Passthrough}
    (h : p.Interchangeable q) : s.passthroughSights p turns = s.passthroughSights q turns := by
  induction turns generalizing s p q with
  | nil => rfl
  | cons t rest ih =>
    obtain ⟨houtcome, hencoder, hsession⟩ := h.call (t.meanwhile s) t.call
    have hconfigured : ((t.meanwhile s).callPassthrough p t.call).2.1.isConfigured
        = ((t.meanwhile s).callPassthrough q t.call).2.1.isConfigured :=
      congrArg Option.isSome hencoder.settings
    rw [passthroughSights_cons, passthroughSights_cons, houtcome, hsession, hconfigured, hencoder.config_eq,
      ih _ hencoder]

theorem passthroughAfter_release (past : List Turn) (g : Session → Session) (s : Session) (p : Passthrough) :
    s.passthroughAfter p (past ++ [⟨g, .release⟩]) = (s.passthroughAfter p past).release := by
  obtain ⟨t, ht⟩ := passthroughAfter_append past [⟨g, .release⟩] s p
  exact ht

end Session

/-- **A released passthrough encoder and a new one.**  Whatever calls an encoder has had, once it is released
nothing tells it from a new encoder with the same binding, codec, configuration and fixed layer: every later
turn ends alike and leaves the same session.  Settings and output are gone; setting the encoder up fails or
succeeds as with the new one and gives the same encoder but for the count, so that nothing is left of an
earlier layer or pause; and another release does nothing. -/
theorem released_as_new (b : Binding) (codec : Codec) (config : EncoderConfig) (index : Option UInt32)
    (s : Session) (past : List Turn) (g : Session → Session) :
    let new := Passthrough.make b codec config index
    let old := s.passthroughAfter new (past ++ [⟨g, .release⟩])
    (∀ (t : Session) future, t.passthroughSights old future = t.passthroughSights new future) ∧
    old.settings = none ∧ old.destination = none ∧
    (∀ c, old.init c = (new.init c).map fun p => { p with emitted := old.emitted }) ∧
    ∀ t : Session, t.callPassthrough old .release = (.ok .noOutput, old, t) := by
  intro new old
  have hold : old = (s.passthroughAfter new past).release := Session.passthroughAfter_release past g s new
  have hmade : (s.passthroughAfter new past).made = new := Session.made_passthroughAfter past s new
  have halike : old.Interchangeable new := by
    have hreleased := (s.passthroughAfter new past).interchangeable_release
    rwa [← hold, hmade] at hreleased
  have hagain : old.release = old := by rw [hold, Passthrough.release_release]
  refine ⟨fun t future => Session.passthroughSights_eq future t halike, halike.settings, halike.destination,
    fun c => ?_, fun t => ?_⟩
  · have hnone : old.destination = none := halike.destination
    rw [old.init_eq c, halike.made, hnone]
    show (new.init c).map _ = (new.init c).map _
    cases hnew : new.init c with
    | error e => rfl
    | ok q =>
      obtain ⟨-, rfl⟩ := Passthrough.eq_of_init hnew
      rfl
  · unfold Session.callPassthrough
    rw [hagain]

/-- What a release does leave: an encoder for the second layer that was paused still says so. -/
example :
    let old := ({} : Session).passthroughAfter (Passthrough.make (.bound ⟨1⟩) .vp8 {} none)
      [⟨id, .init ⟨.vp8, 640, 480, 30, [{ width := 320, height := 240 }, { width := 640, height := 480 }]⟩⟩,
        ⟨id, .rate ⟨0⟩⟩, ⟨id, .release⟩]
    old.layer = some 1 ∧ old.sending = false := by
  decide

end EncodedFeed
