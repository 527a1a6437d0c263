import EncodedFeed.Proofs.Encoder.Decision
import EncodedFeed.Proofs.Table
import Mathlib.Data.List.Induction

/-!
# A fallback hears everything

A lazy encoder that has chosen its fallback hands on every call.  Before that it hears of settings, an output and
hints and keeps the last of each (`Lazy.keeping`); with its first pull that finds both settings and an output it asks
the fallback for an encoder, tells it what it has kept, and pulls it.  What a fallback has been told is a `Hearing`;
a call that does nothing else than let it hear so leaves `Session.inform` behind.

Between two calls anything may happen to the session.  So the calls are followed one by one, each with the session it
finds and the one it leaves (`Exchange`).
-/

namespace EncodedFeed

/-! ### What a fallback hears -/

/-- Formats a fallback is asked for, and calls to its encoders. -/
structure Hearing where
  formats : List SdpFormat := []
  calls : List Call := []

/-- One after the other. -/
def Hearing.append (h h' : Hearing) : Hearing := ⟨h.formats ++ h'.formats, h.calls ++ h'.calls⟩

namespace Fallback

/-- The fallback when it has heard so. -/
def hear (x : Fallback) (h : Hearing) : Fallback :=
  { x with formats := x.formats ++ h.formats, calls := x.calls ++ h.calls }

theorem hear_nothing (x : Fallback) : x.hear {} = x := by
  simp [hear]

theorem hear_hear (x : Fallback) (h h' : Hearing) : (x.hear h).hear h' = x.hear (h.append h') := by
  have happend : ∀ {α : Type} (a : Array α) (b c : List α), a ++ b ++ c = a ++ (b ++ c) := by
    intro α a b c
    apply Array.ext'
    simp
  simp only [hear, Hearing.append, happend]

theorem record_eq (x : Fallback) (c : Call) : x.record c = x.hear ⟨[], [c]⟩ := by
  simp [record, hear]

theorem ask_eq (x : Fallback) (format : SdpFormat) : x.ask format = x.hear ⟨[format], []⟩ := by
  simp [ask, hear]

end Fallback

namespace Session

variable {s : Session} {f : Ref .fallback} {x : Fallback} {l : Lazy}

/-- A fallback hears so, and nothing else happens. -/
def inform (s : Session) (f : Ref .fallback) (h : Hearing) : Session :=
  { s with fallbacks := s.fallbacks.modify f.number fun x => x.hear h }

theorem fallback?_inform (s : Session) (f : Ref .fallback) (h : Hearing) :
    (s.inform f h).fallback? f = (s.fallback? f).map fun x => x.hear h :=
  s.fallback?_modify f fun x => x.hear h

theorem inform_nothing (s : Session) (f : Ref .fallback) : s.inform f {} = s := by
  have hid : (fun x : Fallback => x.hear {}) = id := funext Fallback.hear_nothing
  rw [inform, hid, Table.modify_id]

theorem inform_inform (s : Session) (f : Ref .fallback) (h h' : Hearing) :
    (s.inform f h).inform f h' = s.inform f (h.append h') := by
  simp only [inform, Table.modify_modify, Fallback.hear_hear]

/-! ### Calls to its encoders -/

theorem callFallback_snd (s : Session) (f : Ref .fallback) (c : Call) :
    (s.callFallback f c).2 = s.inform f ⟨[], [c]⟩ := by
  have hrecord : (fun x : Fallback => x.record c) = fun x => x.hear ⟨[], [c]⟩ :=
    funext fun x => x.record_eq c
  rw [callFallback, hrecord]
  rfl

/-- Calls that an encoder takes are all heard. -/
theorem callAll_of_takes (l : Lazy) (calls : List Call) {s : Session} {x : Fallback}
    (hx : s.fallback? l.fallback = some x) (htakes : x.takes calls = true) :
    s.callAll l .fallback calls = (.ok .noOutput, .fallback, s.inform l.fallback ⟨[], calls⟩) := by
  induction calls generalizing s x with
  | nil => rw [callAll, inform_nothing]
  | cons c rest ih =>
    obtain ⟨hfirst, hothers⟩ := Bool.and_eq_true_iff.mp htakes
    have hheard : (s.inform l.fallback ⟨[], [c]⟩).fallback? l.fallback = some (x.record c) := by
      rw [fallback?_inform, hx, Option.map_some, x.record_eq c]
    have hrest := ih hheard hothers
    have hanswer : (s.callFallback l.fallback c).1 = x.answer c := by
      rw [callFallback, hx, Option.map_some, Option.getD_some]
    rw [callAll, callChosen]
    dsimp only
    rw [hanswer, callFallback_snd]
    cases hok : x.answer c with
    | error e =>
      rw [hok] at hfirst
      cases hfirst
    | ok o =>
      dsimp only
      rw [hrest, inform_inform]
      rfl

/-- Hints are always taken, so what counts of the things kept are settings and an output. -/
theorem provides_kept {c : Settings} {d : Destination} (x : Fallback) (hc : l.settings = some c)
    (hd : l.destination = some d) : x.provides l.kept = x.provides [.init c, .connect d] := by
  have hkept : l.kept = [.init c, .connect d] ++ l.rate.toList.map .rate := by
    rw [Lazy.kept, hc, hd]
    rfl
  rw [hkept]
  cases l.rate with
  | none => rfl
  | some hint =>
    simp only [Fallback.provides, Fallback.takes, Option.toList_some, List.map_singleton, List.cons_append,
      List.nil_append, Fallback.answer]
    rfl

end Session

/-! ### One call to a lazy encoder -/

/-- The call is a pull. -/
def Call.isPull : Call → Bool
  | pull _ _ => true
  | _ => false

/-- The settings that a call gives. -/
def Call.settings? : Call → Option Settings
  | init c => some c
  | _ => none

/-- The output that a call gives. -/
def Call.destination? : Call → Option Destination
  | connect d => some d
  | _ => none

/-- A lazy encoder notes what a call gives. -/
def Lazy.noting (l : Lazy) (c : Call) : Lazy :=
  { l with
    settings := c.settings?.or l.settings
    destination := c.destination?.or l.destination
    rate := c.hint?.or l.rate }

/-- How a call ends that decides nothing. -/
def Call.unheard : Call → Except Error Outcome
  | pull _ _ => .error (.uninitialized "lazy encoder needs init() and an output sink before the first pull")
  | _ => .ok .noOutput

/-- The fallback is chosen, and what it takes to pull it is known. -/
structure Lazy.Delegating (l : Lazy) : Prop where
  chosen : l.chosen = some .fallback
  mode : l.mode = .fallback
  settings : l.settings.isSome = true
  destination : l.destination.isSome = true

theorem Lazy.Delegating.noting {l : Lazy} (h : l.Delegating) (c : Call) : (l.noting c).Delegating where
  chosen := h.chosen
  mode := h.mode
  settings := by
    rw [Lazy.noting, Option.isSome_or, h.settings, Bool.or_true]
  destination := by
    rw [Lazy.noting, Option.isSome_or, h.destination, Bool.or_true]

namespace Session

variable {s : Session} {l : Lazy} {c : Call} {x : Fallback} {raw : RawFrame}

theorem forward_unchosen (hchosen : l.chosen = none) (c : Call) : s.forward l c = (.ok .noOutput, l, s) := by
  rw [forward, hchosen]

/-- **Before the choice** a call is noted, and nobody hears of it. -/
theorem callLazy_unchosen (hchosen : l.chosen = none) (hc : c ≠ .release) (hwaits : l.choosesAt c = false) :
    s.callLazy l c = (c.unheard, l.noting c, s) := by
  have hnoted : ∀ c : Call, s.forward (l.noting c) c = (.ok .noOutput, l.noting c, s) := by
    intro c
    apply forward_unchosen
    exact hchosen
  cases c with
  | release => exact absurd rfl hc
  | pull raw types =>
    have hunready : (l.settings.isNone || l.destination.isNone) = true := by
      rw [Lazy.choosesAt, hchosen] at hwaits
      cases hset : l.settings <;> cases hdest : l.destination <;> simp_all
    rw [callLazy, pullLazy, if_pos hunready]
    rfl
  | init settings => exact hnoted (.init settings)
  | connect d => exact hnoted (.connect d)
  | rate hint => exact hnoted (.rate hint)

/-- **After the choice** a call is noted, and an encoder of the fallback hears of it. -/
theorem callLazy_delegating (h : l.Delegating) (hc : c ≠ .release) :
    s.callLazy l c = ((s.callFallback l.fallback c).1, l.noting c, s.inform l.fallback ⟨[], [c]⟩) := by
  have hforward : ∀ l' : Lazy, l'.chosen = some .fallback → l'.fallback = l.fallback →
      s.forward l' c = ((s.callFallback l.fallback c).1, l', s.inform l.fallback ⟨[], [c]⟩) := by
    intro l' hl' hfallback
    have hsame : ({ l' with chosen := some .fallback } : Lazy) = l' := by
      rw [← hl']
    rw [forward, hl']
    dsimp only [callChosen]
    rw [hsame, hfallback, callFallback_snd]
  cases c with
  | release => exact absurd rfl hc
  | pull raw types =>
    have hready : (l.settings.isNone || l.destination.isNone) = false := by
      simp [Option.isNone_eq_false_iff.mpr h.settings, Option.isNone_eq_false_iff.mpr h.destination]
    have hsome : l.chosen.isSome = true := by
      rw [h.chosen]
      rfl
    rw [callLazy, pullLazy, hready, if_neg (by decide), if_pos hsome]
    exact hforward l h.chosen rfl
  | init _ | connect _ | rate _ => exact hforward _ h.chosen rfl

/-- A frame without a registered id makes a lazy encoder choose its fallback, and tell it what was kept. -/
theorem choose_fallback (hx : s.fallback? l.fallback = some x) (hprovides : x.provides l.kept = true)
    (hraw : s.isRegistered l.registry raw = false) :
    s.choose l raw = (.ok .noOutput, { l with mode := .fallback, chosen := some .fallback },
      s.inform l.fallback ⟨[l.format], l.kept⟩) := by
  obtain ⟨hmakes, htakes⟩ := Bool.and_eq_true_iff.mp hprovides
  have hable : s.canFallBack l.fallback = true := by
    rw [canFallBack, hx, Option.any_some]
    exact hmakes
  have hask : (fun x : Fallback => x.ask l.format) = fun x => x.hear ⟨[l.format], []⟩ :=
    funext fun x => x.ask_eq l.format
  have hasked : { s with fallbacks := s.fallbacks.modify l.fallback.number fun x => x.ask l.format }
      = s.inform l.fallback ⟨[l.format], []⟩ := by
    rw [hask]
    rfl
  have hall : (s.inform l.fallback ⟨[l.format], []⟩).callAll { l with mode := .fallback } .fallback l.kept
      = (.ok .noOutput, .fallback, s.inform l.fallback ⟨[l.format], l.kept⟩) := by
    have hheard : (s.inform l.fallback ⟨[l.format], []⟩).fallback? l.fallback = some (x.ask l.format) := by
      rw [fallback?_inform, hx, Option.map_some, x.ask_eq l.format]
    rw [callAll_of_takes { l with mode := .fallback } l.kept hheard (by rw [Fallback.takes_ask, htakes]), inform_inform]
    rfl
  have hkept : ({ l with mode := .fallback } : Lazy).kept = l.kept := rfl
  rw [choose, hraw, if_neg (by decide)]
  dsimp only
  rw [hable, if_pos rfl, hasked, settle, hkept, hall]

/-- **The choice**: the fallback hears of the format, of what was kept, and of the pull. -/
theorem pullLazy_fallback (hchosen : l.chosen = none) (hset : l.settings.isSome = true)
    (hdest : l.destination.isSome = true) (hx : s.fallback? l.fallback = some x)
    (hprovides : x.provides l.kept = true) (hraw : s.isRegistered l.registry raw = false) (types : List FrameType) :
    s.pullLazy l raw types = (((s.inform l.fallback ⟨[l.format], l.kept⟩).callFallback l.fallback (.pull raw types)).1,
      { l with mode := .fallback, chosen := some .fallback },
      s.inform l.fallback ⟨[l.format], l.kept ++ [.pull raw types]⟩) := by
  have hready : (l.settings.isNone || l.destination.isNone) = false := by
    simp [Option.isNone_eq_false_iff.mpr hset, Option.isNone_eq_false_iff.mpr hdest]
  have hnone : l.chosen.isSome = false := by
    rw [hchosen]
    rfl
  rw [pullLazy, hready, if_neg (by decide), hnone, if_neg (by decide), choose_fallback hx hprovides hraw]
  simp only [forward, callChosen, callFallback_snd, inform_inform]
  rfl

end Session

/-! ### Call by call -/

/-- A call to a lazy encoder, with the session it finds and the encoder. -/
structure Exchange where
  before : Session
  encoder : Lazy
  call : Call

namespace Exchange

variable (y : Exchange)

def result : Session.Result Lazy := y.before.callLazy y.encoder y.call

/-- How the call ends. -/
def outcome : Except Error Outcome := y.result.1

/-- The encoder after the call. -/
def next : Lazy := y.result.2.1

/-- The call lets the fallback hear so and does nothing else to the session. -/
def Tells (f : Ref .fallback) (h : Hearing) : Prop := y.result.2.2 = y.before.inform f h

variable {y}

theorem of_callLazy {f : Ref .fallback} {h : Hearing} {o : Except Error Outcome} {l : Lazy}
    (hcall : y.before.callLazy y.encoder y.call = (o, l, y.before.inform f h)) :
    y.Tells f h ∧ y.outcome = o ∧ y.next = l := by
  unfold Tells outcome next result
  rw [hcall]
  exact ⟨rfl, rfl, rfl⟩

end Exchange

namespace Session

/-- A lazy encoder is called turn by turn. -/
def exchanges (s : Session) (l : Lazy) : List Turn → List Exchange
  | [] => []
  | t :: rest =>
    let (_, l', s') := (t.meanwhile s).callLazy l t.call
    ⟨t.meanwhile s, l, t.call⟩ :: s'.exchanges l' rest

/-- The session after some turns. -/
def afterTurns (s : Session) (l : Lazy) : List Turn → Session
  | [] => s
  | t :: rest =>
    let (_, l', s') := (t.meanwhile s).callLazy l t.call
    s'.afterTurns l' rest

theorem turns_append (as bs : List Turn) (s : Session) (l : Lazy) :
    s.exchanges l (as ++ bs) = s.exchanges l as ++ (s.afterTurns l as).exchanges (s.lazyAfter l as) bs ∧
    s.afterTurns l (as ++ bs) = (s.afterTurns l as).afterTurns (s.lazyAfter l as) bs ∧
    s.lazyAfter l (as ++ bs) = (s.afterTurns l as).lazyAfter (s.lazyAfter l as) bs := by
  induction as generalizing s l with
  | nil => exact ⟨rfl, rfl, rfl⟩
  | cons t rest ih =>
    obtain ⟨hexchanges, hafter, hlazy⟩ :=
      ih ((t.meanwhile s).callLazy l t.call).2.2 ((t.meanwhile s).callLazy l t.call).2.1
    exact ⟨congrArg (_ :: ·) hexchanges, hafter, hlazy⟩

theorem calls_exchanges (turns : List Turn) (s : Session) (l : Lazy) :
    (s.exchanges l turns).map Exchange.call = turns.map Turn.call := by
  induction turns generalizing s l with
  | nil => rfl
  | cons t rest ih => exact congrArg (t.call :: ·) (ih _ _)

end Session

/-- The last thing of a kind that is given in some turns. -/
def lastGiven {α : Type} (given : Call → Option α) (turns : List Turn) : Option α :=
  (turns.filterMap fun t => given t.call).getLast?

theorem lastGiven_snoc {α : Type} (given : Call → Option α) (turns : List Turn) (t : Turn) :
    lastGiven given (turns ++ [t]) = (given t.call).or (lastGiven given turns) := by
  rw [lastGiven, List.filterMap_append, List.getLast?_append]
  cases hgiven : given t.call with
  | none =>
    rw [List.filterMap_cons, hgiven]
    rfl
  | some a =>
    rw [List.filterMap_cons, hgiven]
    rfl

/-- A lazy encoder that has kept what it was given in some turns. -/
def Lazy.keeping (l : Lazy) (turns : List Turn) : Lazy :=
  { l with
    settings := (lastGiven Call.settings? turns).or l.settings
    destination := (lastGiven Call.destination? turns).or l.destination
    rate := (lastGiven Call.hint? turns).or l.rate }

theorem Lazy.keeping_snoc (l : Lazy) (turns : List Turn) (t : Turn) :
    l.keeping (turns ++ [t]) = (l.keeping turns).noting t.call := by
  simp only [keeping, noting, lastGiven_snoc, Option.or_assoc]

namespace Session

variable {l : Lazy} {f : Ref .fallback}

/-- No pull of these turns finds both settings and an output. -/
def WaitsIn (turns : List Turn) : Prop :=
  ∀ n (hn : n < turns.length), turns[n].call.isPull = true →
    lastGiven Call.settings? (turns.take n) = none ∨ lastGiven Call.destination? (turns.take n) = none

instance (turns : List Turn) : Decidable (WaitsIn turns) :=
  inferInstanceAs (Decidable (∀ n (hn : n < turns.length), turns[n].call.isPull = true →
    lastGiven Call.settings? (turns.take n) = none ∨ lastGiven Call.destination? (turns.take n) = none))

/-- What waits in some turns and one more waits in the former, and in the last if that is a pull. -/
theorem WaitsIn.of_snoc {turns : List Turn} {t : Turn} (h : WaitsIn (turns ++ [t])) :
    WaitsIn turns ∧ (t.call.isPull = true →
      lastGiven Call.settings? turns = none ∨ lastGiven Call.destination? turns = none) := by
  constructor
  · intro n hn hpull
    have hbefore := h n (by rw [List.length_append]; omega)
    rw [List.getElem_append_left hn, List.take_append_of_le_length (Nat.le_of_lt hn)] at hbefore
    exact hbefore hpull
  · intro hpull
    have hlast := h turns.length (by rw [List.length_append, List.length_singleton]; omega)
    rw [List.getElem_concat_length rfl, List.take_append_of_le_length (Nat.le_refl _), List.take_length] at hlast
    exact hlast hpull

/-- The session never changes on its own what the fallback has heard. -/
def SparesFallback (f : Ref .fallback) (turns : List Turn) : Prop :=
  ∀ t ∈ turns, ∀ s : Session, (t.meanwhile s).fallback? f = s.fallback? f

/-- **While a lazy encoder waits** it keeps what it is given, and no call has any effect. -/
theorem waiting_turns (hmode : l.mode = .undecided) (hchosen : l.chosen = none) (hset : l.settings = none)
    (hdest : l.destination = none) (s : Session) (turns : List Turn) (hkept : ∀ t ∈ turns, t.call ≠ .release)
    (hwaits : WaitsIn turns) :
    s.lazyAfter l turns = l.keeping turns ∧
    (∀ y ∈ s.exchanges l turns, y.Tells f {} ∧ y.outcome = y.call.unheard ∧ y.next.mode = .undecided ∧
      y.next.chosen = none) ∧
    (SparesFallback f turns → (s.afterTurns l turns).fallback? f = s.fallback? f) := by
  induction turns using List.reverseRecOn with
  | nil =>
    refine ⟨?_, fun y hy => ?_, fun _ => rfl⟩
    · cases l
      rfl
    · cases hy
  | append_singleton turns t ih =>
    obtain ⟨hwaits', hlast⟩ := hwaits.of_snoc
    obtain ⟨hlazy, hbefore, hspared⟩ := ih (fun t' ht' => hkept t' (List.mem_append_left _ ht')) hwaits'
    obtain ⟨hexchanges, hafter, hlater⟩ := turns_append turns [t] s l
    -- a pull finds no settings or no output, so that the call is noted only
    have hwait : (l.keeping turns).choosesAt t.call = false := by
      cases hcall : t.call with
      | pull raw types =>
        rw [hcall] at hlast
        rcases hlast rfl with hnone | hnone <;> simp [Lazy.choosesAt, Lazy.keeping, hnone, hset, hdest]
      | _ => rfl
    have hcall : (t.meanwhile (s.afterTurns l turns)).callLazy (l.keeping turns) t.call
        = (t.call.unheard, (l.keeping turns).noting t.call, t.meanwhile (s.afterTurns l turns)) :=
      callLazy_unchosen hchosen (hkept t (List.mem_append_right _ List.mem_cons_self)) hwait
    refine ⟨?_, fun y hy => ?_, fun hspares => ?_⟩
    · rw [hlater, hlazy, Lazy.keeping_snoc, lazyAfter, hcall]
      rfl
    · rw [hexchanges, List.mem_append] at hy
      rcases hy with hy | hy
      · exact hbefore y hy
      · obtain rfl : y = ⟨t.meanwhile (s.afterTurns l turns), l.keeping turns, t.call⟩ := by
          rw [hlazy] at hy
          exact List.mem_singleton.mp hy
        obtain ⟨htells, houtcome, hnext⟩ := Exchange.of_callLazy
          (y := ⟨t.meanwhile (s.afterTurns l turns), l.keeping turns, t.call⟩) (f := f) (h := {})
          (hcall.trans (by rw [inform_nothing]))
        rw [hnext]
        exact ⟨htells, houtcome, hmode, hchosen⟩
    · rw [hafter, hlazy, afterTurns, hcall]
      have hmeanwhile := hspares t (List.mem_append_right _ List.mem_cons_self) (s.afterTurns l turns)
      exact hmeanwhile.trans (hspared fun t' ht' => hspares t' (List.mem_append_left _ ht'))

/-- **Once a lazy encoder delegates** its fallback hears of each call, and the choice stays. -/
theorem delegating_turns (turns : List Turn) {l : Lazy} (h : l.Delegating) (s : Session)
    (hkept : ∀ t ∈ turns, t.call ≠ .release) :
    (∀ y ∈ s.exchanges l turns, y.Tells l.fallback ⟨[], [y.call]⟩ ∧
      y.outcome = (y.before.callFallback l.fallback y.call).1 ∧ y.next.mode = .fallback ∧
      y.next.chosen = some .fallback) ∧
    (SparesFallback l.fallback turns → (s.afterTurns l turns).fallback? l.fallback
      = (s.fallback? l.fallback).map fun x => x.hear ⟨[], turns.map Turn.call⟩) := by
  induction turns generalizing s l with
  | nil =>
    refine ⟨fun y hy => (nomatch hy), fun _ => ?_⟩
    have hid : (fun x : Fallback => x.hear ⟨[], List.map Turn.call []⟩) = id := funext Fallback.hear_nothing
    rw [hid, Option.map_id]
    rfl
  | cons t rest ih =>
    have hcall := callLazy_delegating (s := t.meanwhile s) h (hkept t List.mem_cons_self)
    obtain ⟨hrest, hspared⟩ := ih (h.noting t.call) ((t.meanwhile s).inform l.fallback ⟨[], [t.call]⟩)
      fun t' ht' => hkept t' (List.mem_cons_of_mem _ ht')
    have hexchanges : s.exchanges l (t :: rest) = ⟨t.meanwhile s, l, t.call⟩
        :: ((t.meanwhile s).inform l.fallback ⟨[], [t.call]⟩).exchanges (l.noting t.call) rest := by
      rw [exchanges, hcall]
    have hafter : s.afterTurns l (t :: rest)
        = ((t.meanwhile s).inform l.fallback ⟨[], [t.call]⟩).afterTurns (l.noting t.call) rest := by
      rw [afterTurns, hcall]
    refine ⟨fun y hy => ?_, fun hspares => ?_⟩
    · rw [hexchanges] at hy
      rcases List.mem_cons.mp hy with rfl | hy
      · obtain ⟨htells, houtcome, hnext⟩ := Exchange.of_callLazy (y := ⟨t.meanwhile s, l, t.call⟩) hcall
        rw [hnext]
        exact ⟨htells, houtcome, h.mode, h.chosen⟩
      · exact hrest y hy
    · have hmeanwhile := hspares t List.mem_cons_self s
      have hlater := hspared fun t' ht' => hspares t' (List.mem_cons_of_mem _ ht')
      have hsame : (l.noting t.call).fallback = l.fallback := rfl
      rw [hsame, fallback?_inform, hmeanwhile, Option.map_map] at hlater
      rw [hafter, hlater]
      refine congrArg (Option.map · _) (funext fun x => ?_)
      exact x.hear_hear _ _

end Session

/-- **A fallback hears everything that a lazy encoder is told, once it is chosen.**  Let the first pull that finds both
settings and an output carry no registered id, and let the fallback provide an encoder then.  Calls before that pull
have no effect, and pulls among them fail.  With that pull the fallback is asked for an encoder for the format, and
this one hears of the last settings, the last output and the last hint, if there was one, and of the pull.  From then
on it hears of each call, whatever frames come, and the lazy encoder stays with it.  If nobody else lets the fallback
hear anything, that is all it has heard in the end. -/
theorem fallback_hears_all {format : SdpFormat} {registry : Ref .registry} {fallback : Ref .fallback}
    {config : EncoderConfig} {l : Lazy} (h : Lazy.make format registry fallback config = .ok l) (s : Session)
    {early later : List Turn} {g : Session → Session} {raw : RawFrame} (types : List FrameType) {c : Settings}
    {d : Destination} {x : Fallback} (hkept : ∀ t ∈ early ++ later, t.call ≠ .release)
    (hwaits : Session.WaitsIn early) (hc : lastGiven Call.settings? early = some c)
    (hd : lastGiven Call.destination? early = some d) (hx : (g (s.afterTurns l early)).fallback? fallback = some x)
    (hprovides : x.provides [.init c, .connect d] = true)
    (hraw : (g (s.afterTurns l early)).isRegistered registry raw = false) :
    let turns := early ++ ⟨g, .pull raw types⟩ :: later
    let kept := [.init c, .connect d] ++ (lastGiven Call.hint? early).toList.map .rate
    let told := kept ++ [.pull raw types]
    ∃ waiting first rest, s.exchanges l turns = waiting ++ first :: rest ∧
      waiting.map Exchange.call = early.map Turn.call ∧ first.call = .pull raw types ∧
      rest.map Exchange.call = later.map Turn.call ∧
      (∀ y ∈ waiting, y.Tells fallback {} ∧ y.outcome = y.call.unheard ∧ y.next.mode = .undecided ∧
        y.next.chosen = none) ∧
      (first.Tells fallback ⟨[format], told⟩ ∧
        first.outcome = ((first.before.inform fallback ⟨[format], kept⟩).callFallback fallback first.call).1 ∧
        first.next.mode = .fallback ∧ first.next.chosen = some .fallback) ∧
      (∀ y ∈ rest, y.Tells fallback ⟨[], [y.call]⟩ ∧ y.outcome = (y.before.callFallback fallback y.call).1 ∧
        y.next.mode = .fallback ∧ y.next.chosen = some .fallback) ∧
      (Session.SparesFallback fallback turns → (s.afterTurns l turns).fallback? fallback
        = (s.fallback? fallback).map fun z => z.hear ⟨[format], told ++ later.map Turn.call⟩) := by
  intro turns kept told
  obtain ⟨codec, -, rfl⟩ := Lazy.make_ok h
  set l : Lazy := { format, codec, registry, fallback, config } with hl
  obtain ⟨hlazy, hwaiting, hspared⟩ := Session.waiting_turns (l := l) (f := fallback) rfl rfl rfl rfl s early
    (fun t ht => hkept t (List.mem_append_left _ ht)) hwaits
  set u := g (s.afterTurns l early) with hu
  -- the pull that decides finds what was given last
  have hsettings : (l.keeping early).settings = some c := by
    rw [Lazy.keeping, hc]
    rfl
  have hdestination : (l.keeping early).destination = some d := by
    rw [Lazy.keeping, hd]
    rfl
  have hrate : (l.keeping early).rate = lastGiven Call.hint? early := Option.or_none
  have hkeeps : (l.keeping early).kept = kept := by
    rw [Lazy.kept, hsettings, hdestination, hrate]
    rfl
  have hpull : u.callLazy (l.keeping early) (.pull raw types)
      = (((u.inform fallback ⟨[format], kept⟩).callFallback fallback (.pull raw types)).1,
        { l.keeping early with mode := .fallback, chosen := some .fallback },
        u.inform fallback ⟨[format], told⟩) := by
    have hable := (Session.provides_kept x hsettings hdestination).trans hprovides
    have htold : told = (l.keeping early).kept ++ [.pull raw types] := by rw [hkeeps]
    rw [htold, ← hkeeps]
    exact Session.pullLazy_fallback rfl (by rw [hsettings]; rfl) (by rw [hdestination]; rfl) hx hable hraw types
  have hdelegating : ({ l.keeping early with mode := .fallback, chosen := some .fallback } : Lazy).Delegating :=
    ⟨rfl, rfl, by rw [hsettings]; rfl, by rw [hdestination]; rfl⟩
  obtain ⟨hrest, hlater⟩ := Session.delegating_turns later hdelegating (u.inform fallback ⟨[format], told⟩)
    fun t ht => hkept t (List.mem_append_right _ ht)
  obtain ⟨hexchanges, hafter, -⟩ := Session.turns_append early (⟨g, .pull raw types⟩ :: later) s l
  obtain ⟨htells, houtcome, hnext⟩ := Exchange.of_callLazy (y := ⟨u, l.keeping early, .pull raw types⟩) hpull
  refine ⟨s.exchanges l early, ⟨u, l.keeping early, .pull raw types⟩, _, ?_, s.calls_exchanges early l, rfl,
    Session.calls_exchanges later _ _, hwaiting, ⟨htells, houtcome, ?_, ?_⟩, hrest, fun hspares => ?_⟩
  · rw [hexchanges, hlazy, Session.exchanges, hpull]
  · rw [hnext]
  · rw [hnext]
  · have hfirst := hspares ⟨g, .pull raw types⟩ (List.mem_append_right _ List.mem_cons_self) (s.afterTurns l early)
    have hquiet := hspared fun t ht => hspares t (List.mem_append_left _ ht)
    have hend := hlater fun t ht => hspares t (List.mem_append_right _ (List.mem_cons_of_mem _ ht))
    rw [hafter, hlazy, Session.afterTurns, hpull]
    refine hend.trans ?_
    have hheard : (u.inform fallback ⟨[format], told⟩).fallback? fallback
        = (s.fallback? fallback).map fun z => z.hear ⟨[format], told⟩ := by
      rw [Session.fallback?_inform, hu, hfirst, hquiet]
    have hsame : ({ l.keeping early with mode := .fallback, chosen := some .fallback } : Lazy).fallback = fallback :=
      rfl
    rw [hsame, hheard, Option.map_map]
    refine congrArg (Option.map · _) (funext fun z => ?_)
    exact z.hear_hear _ _

/-- Give a hint and settings, pull too early, connect, and give other settings and another hint. -/
def prepared : List Turn :=
  [{ call := .rate ⟨7⟩ }, { call := .init ⟨.vp8, 320, 240, 30, []⟩ },
    { call := .pull { picture := Picture.black 2 2, timestamp := ⟨1, false⟩, source := some ⟨1⟩ } [] },
    { call := .connect ⟨⟨1⟩, none⟩ }, { call := .init ⟨.h264, 640, 480, 30, []⟩ }, { call := .rate ⟨9⟩ }]

/-- Pull for a frame of the first source, pause, and set up anew. -/
def carriedOn : List Turn :=
  [{ call := .pull { picture := Picture.black 2 2, timestamp := ⟨2, false⟩, source := some ⟨1⟩ } [.key] },
    { call := .rate ⟨0⟩ }, { call := .init ⟨.vp9, 640, 480, 30, []⟩ }]

theorem fallback_hears_all_carriedOn :
    let raw : RawFrame := { picture := Picture.black 2 2, timestamp := ⟨1, false⟩ }
    let turns := prepared ++ ⟨id, .pull raw []⟩ :: carriedOn
    (prepared.any fun t => t.call.isPull) = true ∧
    ((oneWaiting.afterTurns newLazy turns).fallback? ⟨1⟩).map (fun z => (z.formats.toList, z.calls.toList))
      = some ([.forCodec .h264 .nonInterleaved],
        [.init ⟨.h264, 640, 480, 30, []⟩, .connect ⟨⟨1⟩, none⟩, .rate ⟨9⟩, .pull raw []]
          ++ carriedOn.map Turn.call) := by
  intro raw turns
  have hkept : ∀ t ∈ prepared ++ carriedOn, t.call ≠ .release := by
    decide
  have hwaits : Session.WaitsIn prepared := by
    decide
  have hraw : (oneWaiting.afterTurns newLazy prepared).isRegistered ⟨1⟩ raw = false := rfl
  obtain ⟨-, -, -, -, -, -, -, -, -, -, hheard⟩ := fallback_hears_all make_newLazy oneWaiting (g := id) []
    hkept hwaits rfl rfl rfl rfl hraw
  refine ⟨rfl, ?_⟩
  rw [hheard]
  · rfl
  · intro t ht u
    have hid : t.meanwhile = id := by
      revert t
      simp [prepared, carriedOn]
    rw [hid]
    rfl

end EncodedFeed
