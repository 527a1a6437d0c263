import EncodedFeed.Proofs.Session.Run
import Mathlib.Tactic.Set

/-!
# Releasing a lazy encoder

A released lazy encoder has lost its settings, its output and its choice, but not the last rate hint: that
is passed on to the next encoder it chooses.  So it is a new encoder that has been given this hint, and
nobody can tell it from a new one just if no hint was ever given.

A host that follows a lazy encoder sees the outcome of each call, the mode after it, and the session with
all outputs, sources and fallbacks.  Between two calls anything may happen to the session.
-/

namespace EncodedFeed

/-- A call to a lazy encoder, and what happens to the session before it. -/
structure Turn where
  meanwhile : Session → Session := id
  call : Call

/-- What a host sees of a turn. -/
structure Sight where
  outcome : Except Error Outcome
  mode : LazyMode
  session : Session

namespace Fallback

/-- All calls to its encoders succeed. -/
def Willing (x : Fallback) : Prop := ∀ heard c, ∃ o, x.answers heard c = .ok o

theorem answer_of_willing {x : Fallback} (h : x.Willing) (c : Call) : ∃ o, x.answer c = .ok o := by
  obtain ⟨o, ho⟩ := h (x.calls.toList.map Call.hushed) c.hushed
  unfold answer
  rw [ho]
  cases c <;> exact ⟨_, rfl⟩

end Fallback

namespace Session

/-- What is seen of a lazy encoder turn by turn. -/
def sights (s : Session) (l : Lazy) : List Turn → List Sight
  | [] => []
  | t :: rest =>
    let (outcome, l, s) := (t.meanwhile s).callLazy l t.call
    ⟨outcome, l.mode, s⟩ :: s.sights l rest

/-- A lazy encoder after some turns. -/
def lazyAfter (s : Session) (l : Lazy) : List Turn → Lazy
  | [] => l
  | t :: rest =>
    let (_, l, s) := (t.meanwhile s).callLazy l t.call
    s.lazyAfter l rest

end Session

/-- The hint that a call gives. -/
def Call.hint? : Call → Option RateHint
  | rate hint => some hint
  | _ => none

/-- The last hint given in some turns. -/
def lastHint : List Turn → Option RateHint
  | [] => none
  | t :: rest => (lastHint rest).or t.call.hint?

/-! ### What a call leaves alone -/

namespace Lazy

/-- The encoder as it was made, but for its hint. -/
def made (l : Lazy) : Lazy := { l.reset with rate := none }

/-- Both were made in the same way and have the same hint. -/
def Alike (l l' : Lazy) : Prop := l'.made = l.made ∧ l'.rate = l.rate

theorem Alike.refl (l : Lazy) : l.Alike l := ⟨rfl, rfl⟩

theorem Alike.trans {l l' l'' : Lazy} (h : l.Alike l') (h' : l'.Alike l'') : l.Alike l'' :=
  ⟨h'.1.trans h.1, h'.2.trans h.2⟩

theorem reset_eq (l : Lazy) : l.reset = { l.made with rate := l.rate } := rfl

theorem make_ok {format : SdpFormat} {registry : Ref .registry} {fallback : Ref .fallback}
    {config : EncoderConfig} {l : Lazy} (h : Lazy.make format registry fallback config = .ok l) :
    ∃ codec, format.codec? = some codec ∧ l = { format, codec, registry, fallback, config } := by
  unfold Lazy.make at h
  split at h
  · cases h
  · next codec hcodec =>
    cases h
    exact ⟨codec, hcodec, rfl⟩

theorem made_of_make {format : SdpFormat} {registry : Ref .registry} {fallback : Ref .fallback}
    {config : EncoderConfig} {l : Lazy} (h : Lazy.make format registry fallback config = .ok l) :
    l.made = l ∧ l.rate = none ∧ l.fallback = fallback := by
  obtain ⟨codec, -, rfl⟩ := make_ok h
  exact ⟨rfl, rfl, rfl⟩

end Lazy

namespace Session

theorem alike_settle (s : Session) (l : Lazy) (chosen : Chosen) : l.Alike (s.settle l chosen).2.1 := by
  unfold settle
  split <;> exact ⟨rfl, rfl⟩

theorem alike_choose (s : Session) (l : Lazy) (raw : RawFrame) : l.Alike (s.choose l raw).2.1 := by
  unfold choose
  split
  · exact Lazy.Alike.trans ⟨rfl, rfl⟩ (alike_settle _ _ _)
  · dsimp only
    split
    · exact Lazy.Alike.trans ⟨rfl, rfl⟩ (alike_settle _ _ _)
    · exact ⟨rfl, rfl⟩

theorem alike_forward (s : Session) (l : Lazy) (c : Call) : l.Alike (s.forward l c).2.1 := by
  unfold forward
  split <;> exact ⟨rfl, rfl⟩

theorem alike_pullLazy (s : Session) (l : Lazy) (raw : RawFrame) (types : List FrameType) :
    l.Alike (s.pullLazy l raw types).2.1 := by
  have hc := alike_choose s l raw
  unfold pullLazy
  split
  · exact .refl l
  · split
    · exact alike_forward s l _
    · split
      · next heq =>
        rw [heq] at hc
        exact hc.trans (alike_forward _ _ _)
      · next heq =>
        rw [heq] at hc
        exact hc

/-- A call changes neither how a lazy encoder was made nor, unless it is a hint, the hint. -/
theorem callLazy_keeps (s : Session) (l : Lazy) (c : Call) :
    (s.callLazy l c).2.1.made = l.made ∧ (s.callLazy l c).2.1.rate = c.hint?.or l.rate := by
  cases c with
  | init settings => exact alike_forward s { l with settings := some settings } _
  | connect d => exact alike_forward s { l with destination := some d } _
  | rate hint => exact alike_forward s { l with rate := some hint } _
  | release =>
    obtain ⟨hm, hr⟩ := alike_forward s l .release
    exact ⟨hm, hr⟩
  | pull raw types => exact alike_pullLazy s l raw types

theorem lazyAfter_keeps (turns : List Turn) (s : Session) (l : Lazy) :
    (s.lazyAfter l turns).made = l.made ∧ (s.lazyAfter l turns).rate = (lastHint turns).or l.rate := by
  induction turns generalizing s l with
  | nil => exact ⟨rfl, rfl⟩
  | cons t rest ih =>
    obtain ⟨hm, hr⟩ := callLazy_keeps (t.meanwhile s) l t.call
    obtain ⟨hm', hr'⟩ := ih ((t.meanwhile s).callLazy l t.call).2.2 ((t.meanwhile s).callLazy l t.call).2.1
    -- a hint of the first turn counts only if no later turn gives one
    refine ⟨hm'.trans hm, hr'.trans ?_⟩
    rw [hr, lastHint, Option.or_assoc]

theorem lazyAfter_append (past turns : List Turn) (s : Session) (l : Lazy) :
    ∃ t : Session, s.lazyAfter l (past ++ turns) = t.lazyAfter (s.lazyAfter l past) turns := by
  induction past generalizing s l with
  | nil => exact ⟨s, rfl⟩
  | cons t rest ih => exact ih _ _

/-- **What a release leaves**: the encoder as it was made, with the last hint. -/
theorem lazyAfter_release {l : Lazy} (hl : l.made = l) (hr : l.rate = none) (s : Session)
    (past : List Turn) (g : Session → Session) :
    s.lazyAfter l (past ++ [⟨g, .release⟩]) = { l with rate := lastHint past } := by
  obtain ⟨t, ht⟩ := lazyAfter_append past [⟨g, .release⟩] s l
  obtain ⟨hm, hrate⟩ := lazyAfter_keeps past s l
  rw [hr, Option.or_none] at hrate
  generalize s.lazyAfter l past = l' at ht hm hrate
  have hreset : t.lazyAfter l' [⟨g, .release⟩] = ((g t).forward l' .release).2.1.reset := rfl
  obtain ⟨hm', hr'⟩ := alike_forward (g t) l' .release
  rw [ht, hreset, Lazy.reset_eq, hm', hr', hm, hrate, hl]

/-! ### A fallback that accepts everything -/

theorem fallback?_modify (s : Session) (f : Ref .fallback) (g : Fallback → Fallback) :
    Session.fallback? { s with fallbacks := s.fallbacks.modify f.number g } f = (s.fallback? f).map g := by
  simp only [fallback?, Table.get?_modify, if_true]

theorem callFallback_of_willing {s : Session} {f : Ref .fallback} {x : Fallback}
    (hx : s.fallback? f = some x) (hok : x.Willing) (c : Call) :
    ∃ o t, s.callFallback f c = (.ok o, t) ∧ t.fallback? f = some (x.record c) := by
  obtain ⟨o, ho⟩ := Fallback.answer_of_willing hok c
  have hrec := s.fallback?_modify f fun x => x.record c
  rw [hx, Option.map_some] at hrec
  refine ⟨o, _, ?_, hrec⟩
  rw [callFallback, hx, Option.map_some, Option.getD_some, ho]

theorem callAll_of_willing {l : Lazy} (calls : List Call) {s : Session} {x : Fallback}
    (hx : s.fallback? l.fallback = some x) (hok : x.Willing) :
    ∃ o t y, s.callAll l .fallback calls = (.ok o, .fallback, t) ∧ t.fallback? l.fallback = some y ∧
      y.Willing ∧ y.calls = x.calls ++ calls := by
  induction calls generalizing s x with
  | nil => exact ⟨_, s, x, rfl, hx, hok, by simp⟩
  | cons c rest ih =>
    obtain ⟨o, t, hcall, ht⟩ := callFallback_of_willing hx hok c
    have hchosen : s.callChosen l .fallback c = (.ok o, .fallback, t) := by
      simp only [callChosen, hcall]
    obtain ⟨o', u, y, hall, hu, hy, hcalls⟩ := ih ht hok
    refine ⟨o', u, y, ?_, hu, hy, ?_⟩
    · rw [callAll, hchosen]
      exact hall
    · rw [hcalls]
      simp [Fallback.record]

/-- The first pull that finds no registered source goes to the fallback, after all that was kept. -/
theorem pullLazy_of_willing {s : Session} {l : Lazy} {x : Fallback} (raw : RawFrame)
    (hx : s.fallback? l.fallback = some x) (hable : x.absent = false) (hok : x.Willing)
    (hset : l.settings.isSome = true) (hdest : l.destination.isSome = true) (hnone : l.chosen = none)
    (hraw : s.isRegistered l.registry raw = false) (types : List FrameType) :
    ∃ o l' t y, s.pullLazy l raw types = (.ok o, l', t) ∧ t.fallback? l.fallback = some y ∧
      y.calls = x.calls ++ (l.kept ++ [.pull raw types]) := by
  set l₁ : Lazy := { l with mode := .fallback } with hl₁
  set s₁ : Session :=
    { s with fallbacks := s.fallbacks.modify l.fallback.number fun x => x.ask l.format } with hs₁
  have hx₁ : s₁.fallback? l₁.fallback = some (x.ask l.format) := by
    rw [hs₁, hl₁, fallback?_modify, hx, Option.map_some]
  -- what was kept is passed on first, and only then comes the pull itself
  obtain ⟨o, t, y, hall, ht, hy, hcalls⟩ := callAll_of_willing l₁.kept hx₁ hok
  have hchoose : s.choose l raw = (.ok o, { l₁ with chosen := some .fallback }, t) := by
    have hcan : s.canFallBack l.fallback = true := by simp [canFallBack, hx, hable]
    simp only [choose, hraw, hcan, settle, ← hl₁, ← hs₁, hall]
    rfl
  obtain ⟨o', u, hpull, hu⟩ := callFallback_of_willing ht hy (.pull raw types)
  refine ⟨o', { l₁ with chosen := some .fallback }, u, _, ?_, hu, ?_⟩
  · have hn : (l.settings.isNone || l.destination.isNone) = false := by
      simp [Option.isNone_eq_false_iff.mpr hset, Option.isNone_eq_false_iff.mpr hdest]
    simp only [pullLazy, hn, hnone, hchoose, forward, callChosen, hpull]
    rfl
  · apply Array.ext'
    simp [Fallback.record, hcalls, Fallback.ask, Lazy.kept, hl₁]

end Session

/-! ### Telling two encoders apart -/

/-- The calls that encoders of a fallback had received at this point. -/
def Sight.calls? (x : Sight) (fallback : Ref .fallback) : Option (Array Call) :=
  (x.session.fallback? fallback).map Fallback.calls

/-- Set up, connect, and pull for a frame that no source stands behind. -/
def probe : List Turn :=
  [{ call := .init ⟨.h264, 640, 480, 30, []⟩ }, { call := .connect ⟨⟨1⟩, none⟩ },
    { call := .pull { picture := Picture.black 2 2, timestamp := ⟨1, false⟩ } [] }]

/-- With nothing chosen, the fallback hears of the probe all at once, and of the hint if there is one. -/
theorem length_calls_probe {t : Session} {l : Lazy} {x : Fallback} (hx : t.fallback? l.fallback = some x)
    (hable : x.absent = false) (hok : x.Willing) (hnone : l.chosen = none) :
    ((t.sights l probe).map fun v => (v.calls? l.fallback).map Array.size)
      = [some x.calls.size, some x.calls.size, some (x.calls.size + (3 + l.rate.toList.length))] := by
  have hinit : t.callLazy l (.init ⟨.h264, 640, 480, 30, []⟩)
      = (.ok .noOutput, { l with settings := some ⟨.h264, 640, 480, 30, []⟩ }, t) := by
    simp only [Session.callLazy, Session.forward, hnone]
  set l₁ : Lazy := { l with settings := some ⟨.h264, 640, 480, 30, []⟩ } with hl₁
  have hconnect : t.callLazy l₁ (.connect ⟨⟨1⟩, none⟩)
      = (.ok .noOutput, { l₁ with destination := some ⟨⟨1⟩, none⟩ }, t) := by
    simp only [Session.callLazy, Session.forward, hl₁, hnone]
  set l₂ : Lazy := { l₁ with destination := some ⟨⟨1⟩, none⟩ } with hl₂
  obtain ⟨o, l₃, u, y, hpull, hy, hcalls⟩ :=
    Session.pullLazy_of_willing (l := l₂) { picture := Picture.black 2 2, timestamp := ⟨1, false⟩ }
      hx hable hok rfl rfl hnone rfl []
  have hsize : y.calls.size = x.calls.size + (3 + l.rate.toList.length) := by
    rw [← Array.length_toList, hcalls, Array.toList_appendList]
    simp [Lazy.kept, hl₂, hl₁]
    omega
  have hpull' : t.callLazy l₂ (.pull { picture := Picture.black 2 2, timestamp := ⟨1, false⟩ } [])
      = (.ok o, l₃, u) := hpull
  have hy' : u.fallback? l.fallback = some y := hy
  simp only [probe, Session.sights, id, hinit, hconnect, hpull', List.map_cons, List.map_nil, Sight.calls?,
    hx, hy', Option.map_some, hsize]

/-- **A released lazy encoder and a new one.**  If no hint was given before the release, nothing tells them
apart.  If one was, any fallback that makes encoders and lets their calls succeed can be led to receive
other calls from the one than from the other. -/
theorem released_as_new_unless_hinted {format : SdpFormat} {registry : Ref .registry}
    {fallback : Ref .fallback} {config : EncoderConfig} {l : Lazy} (h : Lazy.make format registry fallback config = .ok l)
    (s : Session) (past : List Turn) (g : Session → Session) :
    (lastHint past = none →
      ∀ (t : Session) future,
        t.sights (s.lazyAfter l (past ++ [⟨g, .release⟩])) future = t.sights l future) ∧
    (lastHint past ≠ none →
      ∀ (t : Session) x, t.fallback? fallback = some x → x.absent = false → x.Willing →
        ∃ future, (t.sights (s.lazyAfter l (past ++ [⟨g, .release⟩])) future).map (·.calls? fallback)
          ≠ (t.sights l future).map (·.calls? fallback)) := by
  obtain ⟨hmade, hrate, hfallback⟩ := Lazy.made_of_make h
  rw [Session.lazyAfter_release hmade hrate]
  constructor
  · intro hnone t future
    rw [hnone, ← hrate]
  · intro hsome t x hx hable hok
    refine ⟨probe, fun heq => hsome ?_⟩
    have hchosen : l.chosen = none := by rw [← hmade]; rfl
    rw [← hfallback] at hx heq
    -- the probe leads to three calls, and to one more if a hint was kept
    have hnew := length_calls_probe hx hable hok hchosen
    have hreleased := length_calls_probe (l := { l with rate := lastHint past }) hx hable hok hchosen
    have hsizes := congrArg (List.map (Option.map Array.size)) heq
    rw [List.map_map, List.map_map] at hsizes
    have hlists := hreleased.symm.trans (hsizes.trans hnew)
    rw [hrate] at hlists
    cases hlast : lastHint past with
    | none => rfl
    | some hint => simp [hlast] at hlists

/-- A new lazy encoder for H.264. -/
def newLazy : Lazy :=
  { format := .forCodec .h264 .nonInterleaved, codec := .h264, registry := ⟨1⟩, fallback := ⟨1⟩,
    config := {} }

/-- One source with a key frame waiting, a fallback that lets everything succeed, and an output. -/
def oneWaiting : Session :=
  ({} : Session).run [.addRegistry, .addOutput (.collector #[]), .addSource ⟨1⟩ {},
    .addFallback ⟨Lazy.undecidedCapabilities, false, fun _ _ => .ok .emitted, #[], #[]⟩,
    .capture ⟨1⟩ { width := 640, height := 480, isKey := true } [0x65] 1]

/-- Set up, connect, and pull for a frame of the first source. -/
def pullFirst : List Turn :=
  [{ call := .init ⟨.h264, 640, 480, 30, []⟩ }, { call := .connect ⟨⟨1⟩, none⟩ },
    { call := .pull { picture := Picture.black 2 2, timestamp := ⟨1, false⟩, source := some ⟨1⟩ } [.key] }]

theorem make_newLazy : Lazy.make (.forCodec .h264 .nonInterleaved) ⟨1⟩ ⟨1⟩ {} = .ok newLazy := by
  have hcodec : (SdpFormat.forCodec .h264 .nonInterleaved).codec? = some .h264 := by decide +kernel
  unfold Lazy.make
  rw [hcodec]
  rfl

theorem released_as_new_unless_hinted_newLazy :
    Lazy.make (.forCodec .h264 .nonInterleaved) ⟨1⟩ ⟨1⟩ {} = .ok newLazy ∧
    (∀ (t : Session) future,
      t.sights (oneWaiting.lazyAfter newLazy (pullFirst ++ [⟨id, .release⟩])) future
        = t.sights newLazy future) ∧
    ∃ future,
      (oneWaiting.sights (oneWaiting.lazyAfter newLazy ([⟨id, .rate ⟨7⟩⟩] ++ [⟨id, .release⟩])) future).map
        (·.calls? ⟨1⟩) ≠ (oneWaiting.sights newLazy future).map (·.calls? ⟨1⟩) := by
  refine ⟨make_newLazy, ?_, ?_⟩
  · exact (released_as_new_unless_hinted make_newLazy oneWaiting pullFirst id).1 rfl
  · exact (released_as_new_unless_hinted make_newLazy oneWaiting [⟨id, .rate ⟨7⟩⟩] id).2 (by decide)
      oneWaiting _ rfl rfl fun _ _ => ⟨.emitted, rfl⟩

/-- A lazy encoder that was paused before its release stays paused: it leaves the frame where a new encoder
takes it. -/
theorem released_paused_differs :
    Lazy.make (.forCodec .h264 .nonInterleaved) ⟨1⟩ ⟨1⟩ {} = .ok newLazy ∧
    (oneWaiting.sights (oneWaiting.lazyAfter newLazy ([⟨id, .rate ⟨0⟩⟩] ++ [⟨id, .release⟩])) pullFirst).map
        (fun v => v.outcome.toOption) = [some .noOutput, some .noOutput, some .noOutput] ∧
    (oneWaiting.sights newLazy pullFirst).map (fun v => v.outcome.toOption)
      = [some .noOutput, some .noOutput, some .emitted] :=
  ⟨make_newLazy, rfl, rfl⟩

end EncodedFeed
