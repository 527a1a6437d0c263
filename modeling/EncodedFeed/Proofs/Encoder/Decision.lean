import EncodedFeed.Proofs.Encoder.Release

/-!
# What a lazy encoder says it has decided

A lazy encoder names its choice when it begins to choose, and the choice can still fail: the fallback may make
no encoder, or the encoder refuses the settings or the output that were kept.  So the mode is undecided just
while no encoder is held, unless the latest choice since the last release failed: then a mode is named and no
encoder stands behind it.
-/

namespace EncodedFeed

/-- The mode of a lazy encoder that has chosen so. -/
def Chosen.mode : Chosen → LazyMode
  | passthrough _ => .passthrough
  | fallback => .fallback

theorem Chosen.mode_ne_undecided (x : Chosen) : x.mode ≠ .undecided := by
  cases x <;> simp [mode]

/-- The settings can be those of an encoder for a codec. -/
def Settings.suit (c : Settings) (codec : Codec) : Bool := c.resolution.isValid && c.codec == codec

/-- An encoder of the fallback lets these calls succeed, one after the other. -/
def Fallback.takes (x : Fallback) : List Call → Bool
  | [] => true
  | c :: rest => (x.answer c).isOk && (x.record c).takes rest

/-- The fallback makes an encoder, and this one lets these calls succeed. -/
def Fallback.provides (x : Fallback) (calls : List Call) : Bool := !x.absent && x.takes calls

/-- The formats that a fallback is asked for make no difference to what its encoders take. -/
theorem Fallback.takes_ask (x : Fallback) (format : SdpFormat) (calls : List Call) :
    (x.ask format).takes calls = x.takes calls := by
  induction calls generalizing x with
  | nil => rfl
  | cons c rest ih => exact congrArg ((x.answer c).isOk && ·) (ih (x.record c))

/-- The call makes a lazy encoder choose: a pull that finds settings and an output, but no encoder. -/
def Lazy.choosesAt (l : Lazy) : Call → Bool
  | .pull _ _ => l.settings.isSome && l.destination.isSome && l.chosen.isNone
  | _ => false

namespace Session

/-- The mode a lazy encoder names when it chooses for a raw frame. -/
def modeFor (s : Session) (l : Lazy) (raw : RawFrame) : LazyMode :=
  if s.isRegistered l.registry raw then .passthrough else .fallback

/-- The encoder that a lazy one chooses for a raw frame can be had and takes what was kept. -/
def canChoose (s : Session) (l : Lazy) (raw : RawFrame) : Bool :=
  if s.isRegistered l.registry raw then l.settings.all fun c => c.suit l.codec
  else (s.fallback? l.fallback).any fun x => x.provides l.kept

/-- Whether a lazy encoder is left without the encoder it named by a call, and by those before it. -/
def leftBy (s : Session) (l : Lazy) (without : Bool) : Call → Bool
  | .release => false
  | .pull raw types => if l.choosesAt (.pull raw types) then !s.canChoose l raw else without
  | _ => without

/-- A lazy encoder is left without the encoder it named: the latest choice in some turns failed, and no
release came after it. -/
def leftWithout (s : Session) (l : Lazy) (without : Bool) : List Turn → Bool
  | [] => without
  | t :: rest =>
    let (_, l', s') := (t.meanwhile s).callLazy l t.call
    s'.leftWithout l' ((t.meanwhile s).leftBy l without t.call) rest

/-! ### One choice -/

theorem isOk_init (p : Passthrough) (c : Settings) : (p.init c).isOk = c.suit p.codec := by
  have hvalid : c.resolution.isValid = true ↔ ¬(c.width = 0 ∨ c.height = 0) := by
    simp [Resolution.isValid, Settings.resolution, UInt32.pos_iff_ne_zero]
  unfold Passthrough.init Settings.suit
  by_cases hzero : c.width = 0 ∨ c.height = 0
  · rw [if_pos hzero, Bool.eq_false_iff.mpr fun h => hvalid.mp h hzero]
    rfl
  · rw [if_neg hzero, hvalid.mpr hzero]
    by_cases hcodec : c.codec = p.codec <;> simp [hcodec, Except.isOk, Except.toBool]

/-- A passthrough encoder takes what was kept if the settings suit it. -/
theorem settle_passthrough (s : Session) {l : Lazy} {c : Settings} {d : Destination}
    (hc : l.settings = some c) (hd : l.destination = some d) :
    (c.suit l.codec = true ∧ ∃ o p, s.settle l (.passthrough l.passthrough)
        = (.ok o, { l with chosen := some (.passthrough p) }, s)) ∨
      c.suit l.codec = false ∧ ∃ e, s.settle l (.passthrough l.passthrough) = (.error e, l, s) := by
  have hok := isOk_init l.passthrough c
  rw [show l.passthrough.codec = l.codec from rfl] at hok
  unfold settle Lazy.kept
  rw [hc, hd, ← hok]
  cases hinit : l.passthrough.init c with
  | error e =>
    refine .inr ⟨rfl, e, ?_⟩
    simp [callAll, callChosen, callPassthrough, hinit]
  | ok p =>
    refine .inl ⟨rfl, .noOutput, ?_⟩
    cases l.rate <;> simp [callAll, callChosen, callPassthrough, hinit]

/-- Calls to an encoder of a fallback all succeed if it takes them. -/
theorem callAll_fallback {s : Session} {l : Lazy} {x : Fallback} (hx : s.fallback? l.fallback = some x)
    (calls : List Call) :
    (s.callAll l .fallback calls).1.isOk = x.takes calls ∧ (s.callAll l .fallback calls).2.1 = .fallback := by
  induction calls generalizing s x with
  | nil => exact ⟨rfl, rfl⟩
  | cons c rest ih =>
    have hrecord := s.fallback?_modify l.fallback fun x => x.record c
    rw [hx, Option.map_some] at hrecord
    obtain ⟨hrest, hchosen⟩ := ih hrecord
    rw [callAll, callChosen, callFallback, hx, Fallback.takes]
    dsimp only [Option.map_some, Option.getD_some]
    cases x.answer c with
    | error e => exact ⟨rfl, rfl⟩
    | ok o => exact ⟨hrest, hchosen⟩

/-- An encoder of a fallback is held if it takes what was kept. -/
theorem settle_fallback {s : Session} {l : Lazy} {x : Fallback} (hx : s.fallback? l.fallback = some x) :
    (x.takes l.kept = true ∧ ∃ o t, s.settle l .fallback = (.ok o, { l with chosen := some .fallback }, t)) ∨
      x.takes l.kept = false ∧ ∃ e t, s.settle l .fallback = (.error e, l, t) := by
  obtain ⟨hok, hchosen⟩ := callAll_fallback hx l.kept
  unfold settle
  cases hall : s.callAll l .fallback l.kept with
  | mk result rest =>
    obtain ⟨y, t⟩ := rest
    rw [hall] at hok hchosen
    cases (show y = .fallback from hchosen)
    cases result with
    | ok o => exact .inl ⟨hok.symm, o, t, rfl⟩
    | error e => exact .inr ⟨hok.symm, e, t, rfl⟩

/-- **One choice**: the mode is named in any case, and the encoder is held if it can be had and takes all. -/
theorem choose_spec (s : Session) {l : Lazy} {c : Settings} {d : Destination} (hc : l.settings = some c)
    (hd : l.destination = some d) (raw : RawFrame) :
    (s.canChoose l raw = true ∧ ∃ o x t, x.mode = s.modeFor l raw ∧
        s.choose l raw = (.ok o, { l with mode := s.modeFor l raw, chosen := some x }, t)) ∨
      s.canChoose l raw = false ∧ ∃ e t, s.choose l raw = (.error e, { l with mode := s.modeFor l raw }, t) := by
  unfold choose canChoose modeFor
  by_cases hregistered : s.isRegistered l.registry raw = true
  · have hkept : (l.settings.all fun c => c.suit l.codec) = c.suit l.codec := by rw [hc]; rfl
    rw [if_pos hregistered, if_pos hregistered, if_pos hregistered, hkept]
    obtain ⟨hsuit, o, p, hsettle⟩ | ⟨hsuit, e, hsettle⟩ :=
      s.settle_passthrough (l := { l with mode := .passthrough }) hc hd
    · exact .inl ⟨hsuit, o, .passthrough p, s, rfl, hsettle⟩
    · exact .inr ⟨hsuit, e, s, hsettle⟩
  · have hasked := s.fallback?_modify l.fallback fun x => x.ask l.format
    have hable : s.canFallBack l.fallback = (s.fallback? l.fallback).any fun x => !x.absent := rfl
    rw [if_neg hregistered, if_neg hregistered, if_neg hregistered]
    dsimp only
    rw [hable]
    cases hx : s.fallback? l.fallback with
    | none => exact .inr ⟨rfl, _, _, rfl⟩
    | some x =>
      rw [hx] at hasked
      rw [Option.any_some, Option.any_some]
      cases habsent : x.absent with
      | true => exact .inr ⟨by simp [Fallback.provides, habsent], _, _, rfl⟩
      | false =>
        have hprovides : x.provides l.kept = (x.ask l.format).takes l.kept := by
          rw [Fallback.provides, habsent, Fallback.takes_ask, Bool.not_false, Bool.true_and]
        rw [hprovides]
        obtain ⟨hok, o, t, hsettle⟩ | ⟨hok, e, t, hsettle⟩ :=
          settle_fallback (l := { l with mode := .fallback }) hasked
        · exact .inl ⟨hok, o, .fallback, t, rfl, hsettle⟩
        · exact .inr ⟨hok, e, t, hsettle⟩

/-! ### One call -/

theorem forward_mode (s : Session) (l : Lazy) (c : Call) :
    (s.forward l c).2.1.mode = l.mode ∧
      (s.forward l c).2.1.chosen.map Chosen.mode = l.chosen.map Chosen.mode := by
  unfold forward
  cases hchosen : l.chosen with
  | none => exact ⟨rfl, by rw [hchosen]⟩
  | some x => cases x <;> exact ⟨rfl, rfl⟩

theorem pullLazy_of_choosesAt {s : Session} {l : Lazy} {raw : RawFrame} {types : List FrameType}
    (h : l.choosesAt (.pull raw types) = true) :
    (s.pullLazy l raw types).2.1.mode = s.modeFor l raw ∧
      (s.pullLazy l raw types).2.1.chosen.map Chosen.mode
        = if s.canChoose l raw then some (s.modeFor l raw) else none := by
  simp only [Lazy.choosesAt, Bool.and_eq_true] at h
  obtain ⟨⟨hset, hdest⟩, hnone⟩ := h
  obtain ⟨c, hc⟩ := Option.isSome_iff_exists.mp hset
  obtain ⟨d, hd⟩ := Option.isSome_iff_exists.mp hdest
  have hchosen : l.chosen = none := Option.isNone_iff_eq_none.mp hnone
  have hready : (l.settings.isNone || l.destination.isNone) = false := by rw [hc, hd]; rfl
  have hsome : l.chosen.isSome = false := by rw [hchosen]; rfl
  unfold pullLazy
  rw [hready, hsome, if_neg (by decide), if_neg (by decide)]
  obtain ⟨hcan, o, x, t, hx, hchoose⟩ | ⟨hcan, e, t, hchoose⟩ := s.choose_spec hc hd raw
  · obtain ⟨hmode, hheld⟩ := t.forward_mode
      { l with mode := s.modeFor l raw, chosen := some x } (.pull raw types)
    rw [hchoose, hcan, if_pos rfl, ← hx]
    rw [← hx] at hmode hheld
    exact ⟨hmode, hheld⟩
  · rw [hchoose, hcan]
    exact ⟨rfl, by rw [hchosen]; rfl⟩

theorem pullLazy_of_not_choosesAt {s : Session} {l : Lazy} {raw : RawFrame} {types : List FrameType}
    (h : l.choosesAt (.pull raw types) = false) :
    (s.pullLazy l raw types).2.1.mode = l.mode ∧
      (s.pullLazy l raw types).2.1.chosen.map Chosen.mode = l.chosen.map Chosen.mode := by
  unfold pullLazy
  by_cases hready : (l.settings.isNone || l.destination.isNone) = true
  · rw [if_pos hready]
    exact ⟨rfl, rfl⟩
  · rw [if_neg hready]
    by_cases hsome : l.chosen.isSome = true
    · rw [if_pos hsome]
      exact s.forward_mode l _
    · refine absurd h ?_
      cases hc : l.settings <;> cases hd : l.destination <;> simp_all [Lazy.choosesAt]

/-! ### All calls -/

/-- What the mode says of the encoder held: it names that encoder, and with none it is undecided unless the
lazy encoder is left without the one it named. -/
structure Tells (l : Lazy) (without : Bool) : Prop where
  held : ∀ x, l.chosen = some x → l.mode = x.mode ∧ without = false
  bare : l.chosen = none → (l.mode = .undecided ↔ without = false)

theorem tells_undecided {l : Lazy} (hmode : l.mode = .undecided) (hchosen : l.chosen = none) :
    Tells l false where
  held x hx := by
    rw [hchosen] at hx
    cases hx
  bare _ := ⟨fun _ => rfl, fun _ => hmode⟩

theorem Tells.congr {l l' : Lazy} {without : Bool} (h : Tells l without) (hmode : l'.mode = l.mode)
    (hheld : l'.chosen.map Chosen.mode = l.chosen.map Chosen.mode) : Tells l' without where
  held x hx := by
    have hmap : l.chosen.map Chosen.mode = some x.mode := by rw [← hheld, hx, Option.map_some]
    obtain ⟨y, hy, hyx⟩ := Option.map_eq_some_iff.mp hmap
    obtain ⟨hmode', hwithout⟩ := h.held y hy
    exact ⟨hmode.trans (hmode'.trans hyx), hwithout⟩
  bare hnone := by
    rw [hnone, Option.map_none] at hheld
    rw [hmode]
    exact h.bare (Option.map_eq_none_iff.mp hheld.symm)

/-- What a choice leaves tells of itself. -/
theorem tells_of_choice {l : Lazy} {m : LazyMode} {can : Bool} (hm : m ≠ .undecided) (hmode : l.mode = m)
    (hheld : l.chosen.map Chosen.mode = if can then some m else none) : Tells l (!can) where
  held x hx := by
    rw [hx, Option.map_some] at hheld
    cases can with
    | false => cases hheld
    | true => exact ⟨hmode.trans (Option.some.inj hheld).symm, rfl⟩
  bare hnone := by
    rw [hnone, Option.map_none] at hheld
    cases can with
    | false => simp [hmode, hm]
    | true => cases hheld

theorem modeFor_ne_undecided (s : Session) (l : Lazy) (raw : RawFrame) : s.modeFor l raw ≠ .undecided := by
  unfold modeFor
  split <;> decide

theorem Tells.callLazy {l : Lazy} {without : Bool} (h : Tells l without) (s : Session) (c : Call) :
    Tells (s.callLazy l c).2.1 (s.leftBy l without c) := by
  cases c with
  | init c =>
    obtain ⟨hmode, hheld⟩ := s.forward_mode { l with settings := some c } (.init c)
    exact h.congr hmode hheld
  | connect d =>
    obtain ⟨hmode, hheld⟩ := s.forward_mode { l with destination := some d } (.connect d)
    exact h.congr hmode hheld
  | rate hint =>
    obtain ⟨hmode, hheld⟩ := s.forward_mode { l with rate := some hint } (.rate hint)
    exact h.congr hmode hheld
  | release => exact tells_undecided rfl rfl
  | pull raw types =>
    rw [leftBy]
    cases hchooses : l.choosesAt (.pull raw types) with
    | true =>
      obtain ⟨hmode, hheld⟩ := pullLazy_of_choosesAt (s := s) hchooses
      exact tells_of_choice (s.modeFor_ne_undecided l raw) hmode hheld
    | false =>
      obtain ⟨hmode, hheld⟩ := pullLazy_of_not_choosesAt (s := s) hchooses
      exact h.congr hmode hheld

theorem Tells.lazyAfter (turns : List Turn) {l : Lazy} {without : Bool} (h : Tells l without) (s : Session) :
    Tells (s.lazyAfter l turns) (s.leftWithout l without turns) := by
  induction turns generalizing s l without with
  | nil => exact h
  | cons t rest ih => exact ih (h.callLazy (t.meanwhile s) t.call) _

end Session

/-- **The mode is undecided just while no encoder is held, unless a choice failed.**  After any calls to a lazy
encoder the two go together if the latest choice since the last release did not fail, and if it did, a mode is
named and no encoder is held.  A pull that chooses sets the mode to what it chooses, whether that can be
had or not; any other pull leaves the mode. -/
theorem mode_undecided_unless_choice_failed {format : SdpFormat} {registry : Ref .registry}
    {fallback : Ref .fallback} {config : EncoderConfig} {l : Lazy}
    (h : Lazy.make format registry fallback config = .ok l) (s : Session) (turns : List Turn) :
    (s.leftWithout l false turns = false →
      ((s.lazyAfter l turns).mode = .undecided ↔ (s.lazyAfter l turns).chosen = none)) ∧
    (s.leftWithout l false turns = true →
      (s.lazyAfter l turns).mode ≠ .undecided ∧ (s.lazyAfter l turns).chosen = none) ∧
    ∀ (t : Session) (raw : RawFrame) (types : List FrameType),
      (t.callLazy (s.lazyAfter l turns) (.pull raw types)).2.1.mode
        = if (s.lazyAfter l turns).choosesAt (.pull raw types) then t.modeFor (s.lazyAfter l turns) raw
          else (s.lazyAfter l turns).mode := by
  obtain ⟨codec, -, rfl⟩ := Lazy.make_ok h
  have hnew : Session.Tells { format, codec, registry, fallback, config } false :=
    Session.tells_undecided rfl rfl
  have htells := hnew.lazyAfter turns s
  generalize s.lazyAfter _ turns = l' at htells
  generalize s.leftWithout _ false turns = without at htells
  refine ⟨?_, ?_, fun t raw types => ?_⟩
  · rintro rfl
    refine ⟨fun hmode => ?_, fun hnone => (htells.bare hnone).mpr rfl⟩
    cases hchosen : l'.chosen with
    | none => rfl
    | some x => exact absurd ((htells.held x hchosen).1.symm.trans hmode) x.mode_ne_undecided
  · rintro rfl
    cases hchosen : l'.chosen with
    | none => exact ⟨fun hmode => Bool.noConfusion ((htells.bare hchosen).mp hmode), rfl⟩
    | some x => cases (htells.held x hchosen).2
  · cases hchooses : l'.choosesAt (.pull raw types) with
    | true => exact (Session.pullLazy_of_choosesAt hchooses).1
    | false => exact (Session.pullLazy_of_not_choosesAt hchooses).1

/-- A fallback that makes no encoders, and an output. -/
def noEncoders : Session :=
  ({} : Session).run [.addRegistry, .addOutput (.collector #[]),
    .addFallback ⟨Lazy.undecidedCapabilities, true, fun _ _ => .ok .emitted, #[], #[]⟩]

/-- Set up for another codec, connect, and pull for a frame of the first source. -/
def pullForOther : List Turn :=
  [{ call := .init ⟨.vp8, 640, 480, 30, []⟩ }, { call := .connect ⟨⟨1⟩, none⟩ },
    { call := .pull { picture := Picture.black 2 2, timestamp := ⟨1, false⟩, source := some ⟨1⟩ } [] }]

theorem mode_undecided_unless_choice_failed_probe :
    Lazy.make (.forCodec .h264 .nonInterleaved) ⟨1⟩ ⟨1⟩ {} = .ok newLazy ∧
    oneWaiting.leftWithout newLazy false pullFirst = false ∧
    ((oneWaiting.lazyAfter newLazy pullFirst).mode = .undecided
      ↔ (oneWaiting.lazyAfter newLazy pullFirst).chosen = none) ∧
    noEncoders.leftWithout newLazy false probe = true ∧
    (noEncoders.lazyAfter newLazy probe).mode ≠ .undecided ∧
    (noEncoders.lazyAfter newLazy probe).chosen = none := by
  have hheld : oneWaiting.leftWithout newLazy false pullFirst = false := rfl
  have hleft : noEncoders.leftWithout newLazy false probe = true := rfl
  exact ⟨make_newLazy, hheld, (mode_undecided_unless_choice_failed make_newLazy oneWaiting pullFirst).1 hheld,
    hleft, (mode_undecided_unless_choice_failed make_newLazy noEncoders probe).2.1 hleft⟩

/-- A pull for which no encoder can be made, and one whose encoder refuses the settings that were kept, fail
while deciding, and leave a mode behind but no encoder. -/
theorem failed_choice_keeps_mode :
    Lazy.make (.forCodec .h264 .nonInterleaved) ⟨1⟩ ⟨1⟩ {} = .ok newLazy ∧
    (noEncoders.sights newLazy probe).map (fun v => (v.outcome.toOption, v.mode))
      = [(some .noOutput, .undecided), (some .noOutput, .undecided), (none, .fallback)] ∧
    ¬ ((noEncoders.lazyAfter newLazy probe).mode = .undecided
      ↔ (noEncoders.lazyAfter newLazy probe).chosen = none) ∧
    (oneWaiting.sights newLazy pullForOther).map (fun v => (v.outcome.toOption, v.mode))
      = [(some .noOutput, .undecided), (some .noOutput, .undecided), (none, .passthrough)] ∧
    ¬ ((oneWaiting.lazyAfter newLazy pullForOther).mode = .undecided
      ↔ (oneWaiting.lazyAfter newLazy pullForOther).chosen = none) := by
  have hbare : (noEncoders.lazyAfter newLazy probe).mode = .fallback
      ∧ (noEncoders.lazyAfter newLazy probe).chosen = none := ⟨rfl, rfl⟩
  have hbare' : (oneWaiting.lazyAfter newLazy pullForOther).mode = .passthrough
      ∧ (oneWaiting.lazyAfter newLazy pullForOther).chosen = none := ⟨rfl, rfl⟩
  refine ⟨make_newLazy, rfl, fun h => ?_, rfl, fun h => ?_⟩
  · have hmode := h.mpr hbare.2
    rw [hbare.1] at hmode
    cases hmode
  · have hmode := h.mpr hbare'.2
    rw [hbare'.1] at hmode
    cases hmode

end EncodedFeed
