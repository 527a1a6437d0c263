import EncodedFeed.Proofs.Session.Lookup
import EncodedFeed.Proofs.Session.Run

/-!
# Moments of a run

One action can hand raw frames to many taps.  Where it matters which of them saw what, a step is taken apart
into beats: a frame enters a queue, the pump gives a stamp, and one tap after the other gets the raw frame.
Every other action is a beat of its own.  `perform_eq_beats` says that nothing is lost; a property of whole
runs is carried from moment to moment by `Linked.history`.
-/

namespace EncodedFeed

namespace Action

/-- The action has a source hand out a raw frame. -/
def handsOut : Action → Bool
  | capture .. | push .. | emit .. | pushRaw .. => true
  | _ => false

end Action

/-- The smallest thing that happens in a run. -/
inductive Beat
  /-- An action that hands out nothing. -/
  | act (a : Action)
  | warn (w : Warning)
  /-- A source accepts a frame. -/
  | enter (source : RoutingId) (frame : EncodedFrame)
  /-- The pump of a source gives a stamp. -/
  | stamp (source : RoutingId) (capture now : Int64)
  /-- A tap gets a raw frame. -/
  | hand (raw : RawFrame) (tap : Tap)

/-- If the beat is an action, it is one of a kind, and hands out nothing. -/
def Beat.Does (P : Action → Prop) : Beat → Prop
  | act a => a.handsOut = false ∧ P a
  | _ => True

theorem Beat.Does.mono {P P' : Action → Prop} {b : Beat} (h : b.Does P) (hP : ∀ a, P a → P' a) : b.Does P' := by
  cases b with
  | act a => exact ⟨h.1, hP a h.2⟩
  | _ => trivial

namespace Session

/-- The session after a beat. -/
def beat (s : Session) : Beat → Session
  | .act a => (s.perform a).2
  | .warn w => s.warn w
  | .enter id f => ((s.modifySource id fun src => src.enqueue f).note (.pushed id f)).checkDepth id
  | .stamp id capture now => s.modifyPump id fun p => (p.stamp capture now).2
  | .hand raw tap => s.deliver raw tap

/-! ### Actions as beats -/

/-- A raw frame goes to each tap of a source. -/
def handings (src : Source) (id : RoutingId) (picture : Picture) (t : Stamped Int64) : List Beat :=
  if src.pump.ended then []
  else src.pump.taps.map fun tap => .hand { picture, timestamp := t, source := some id } tap.2

/-- A source stamps its placeholder and hands it out. -/
def emission (s : Session) (id : RoutingId) (capture now : Int64) : List Beat :=
  match s.source? id with
  | none => []
  | some src =>
    .stamp id capture now :: handings src id src.pump.placeholder (src.pump.stamp capture now).1

/-- A source accepts a frame and hands out the placeholder that goes with it. -/
def entry (s : Session) (id : RoutingId) (f : EncodedFrame) (now : Int64) : List Beat :=
  match s.source? id with
  | none => []
  | some src => if src.closed then [] else .enter id f :: s.emission id f.captureUs now

/-- The beats of an action. -/
def beats (s : Session) : Action → List Beat
  | .capture id tags payload now =>
    match EncodedFrame.make tags payload with
    | .error _ => [.warn (.emptyFrame id)]
    | .ok f => s.entry id f now
  | .push id f now => s.entry id f now
  | .emit id capture now => s.emission id capture now
  | .pushRaw id picture t =>
    match s.source? id with
    | none => []
    | some src => handings src id picture t
  | a => [.act a]

variable (s : Session)

theorem deliverAll_eq_beats (raw : RawFrame) (taps : List Tap) :
    s.deliverAll raw taps = (taps.map (Beat.hand raw)).foldl beat s := by
  rw [deliverAll, List.foldl_map]
  rfl

theorem pushRaw_eq_beats {id : RoutingId} {src : Source} (h : s.source? id = some src) (picture : Picture)
    (t : Stamped Int64) : s.pushRaw id picture t = (handings src id picture t).foldl beat s := by
  rw [pushRaw, h, handings]
  dsimp only
  split
  · rfl
  · rw [deliverAll_eq_beats, List.map_map]
    rfl

theorem emit_eq_beats (id : RoutingId) (capture now : Int64) :
    (s.emit id capture now).2 = (s.emission id capture now).foldl beat s := by
  unfold emit emission
  cases hs : s.source? id with
  | none => rfl
  | some src =>
    dsimp only
    have hstamp : s.modifyPump id (fun _ => (src.pump.stamp capture now).2)
        = s.beat (.stamp id capture now) := modifyPump_stamp hs capture now
    have hsource : (s.beat (.stamp id capture now)).source? id
        = some { src with pump := (src.pump.stamp capture now).2 } := by
      rw [beat, modifyPump, source?_modifySource, if_pos rfl, hs, Option.map_some]
    rw [hstamp, pushRaw_eq_beats _ hsource, List.foldl_cons]
    rfl

theorem source?_enter {id : RoutingId} {src : Source} (h : s.source? id = some src) (f : EncodedFrame) :
    (s.beat (.enter id f)).source? id = some (src.enqueue f) := by
  have hin : ((s.modifySource id fun src => src.enqueue f).note (.pushed id f)).source? id
      = some (src.enqueue f) := by
    show (s.modifySource id fun src => src.enqueue f).source? id = _
    rw [source?_modifySource, if_pos rfl, h, Option.map_some]
  unfold beat checkDepth
  dsimp only
  rw [hin]
  dsimp only
  split <;> exact hin

/-- A frame that enters changes nothing about what is handed out. -/
theorem emission_enter {id : RoutingId} {src : Source} (h : s.source? id = some src) (f : EncodedFrame)
    (capture now : Int64) : (s.beat (.enter id f)).emission id capture now = s.emission id capture now := by
  rw [emission, source?_enter s h, emission, h]
  rfl

theorem push_eq_beats (id : RoutingId) (f : EncodedFrame) (now : Int64) :
    (s.push id f now).2 = (s.entry id f now).foldl beat s := by
  unfold push entry
  cases hs : s.source? id with
  | none => rfl
  | some src =>
    dsimp only
    split
    · rfl
    · dsimp only
      rw [List.foldl_cons, ← emission_enter s hs, ← emit_eq_beats]
      rfl

/-- **An action is what its beats are.** -/
theorem perform_eq_beats (a : Action) : (s.perform a).2 = (s.beats a).foldl beat s := by
  cases a with
  | capture id tags payload now =>
    simp only [perform, capture, beats]
    cases EncodedFrame.make tags payload with
    | error e => rfl
    | ok f => exact s.push_eq_beats id f now
  | push id f now => exact s.push_eq_beats id f now
  | emit id capture now => exact s.emit_eq_beats id capture now
  | pushRaw id picture t =>
    simp only [perform, beats]
    cases hs : s.source? id with
    | none => rw [pushRaw, hs]; rfl
    | some src => exact s.pushRaw_eq_beats hs picture t
  | _ => rfl

end Session

/-! ### Moments -/

/-- A beat of a run and the session it began in. -/
structure Moment where
  before : Session
  beat : Beat

namespace Moment

/-- The session afterwards. -/
def after (m : Moment) : Session := m.before.beat m.beat

/-- What happened meanwhile, oldest first. -/
def events (m : Moment) : List Event := m.before.eventsSince m.after

/-- A raw frame reaches the pipeline. -/
def reaches (m : Moment) (p : Ref .pipeline) : Bool :=
  match m.beat with
  | .hand _ (.pipeline p') => p' = p && (m.before.pipeline? p).isSome
  | _ => false

/-- The pipeline is asked for a keyframe. -/
def wants (m : Moment) (p : Ref .pipeline) : Bool :=
  match m.beat with
  | .act (.wantKeyframe p') => p' = p
  | _ => false

end Moment

namespace Session

/-- The moments of some beats. -/
def play (s : Session) : List Beat → List Moment
  | [] => []
  | b :: rest => ⟨s, b⟩ :: (s.beat b).play rest

/-- The moments of a run. -/
def moments (s : Session) : List Action → List Moment
  | [] => []
  | a :: rest => s.play (s.beats a) ++ (s.perform a).2.moments rest

end Session

/-- Each moment begins where the one before it ended. -/
inductive Linked : Session → List Moment → Session → Prop
  | nil (s : Session) : Linked s [] s
  | cons {s t : Session} {b : Beat} {ms : List Moment} : Linked (s.beat b) ms t → Linked s (⟨s, b⟩ :: ms) t

namespace Linked

variable {s t u : Session} {ms ms' : List Moment}

theorem append (h : Linked s ms t) (h' : Linked t ms' u) : Linked s (ms ++ ms') u := by
  induction h with
  | nil s => exact h'
  | cons _ ih => exact .cons (ih h')

/-- What leads to a moment. -/
theorem until_moment {m : Moment} (h : Linked s (ms ++ m :: ms') t) : Linked s ms m.before := by
  induction ms generalizing s with
  | nil =>
    cases h
    exact .nil _
  | cons _ rest ih =>
    cases h with
    | cons h => exact .cons (ih h)

/-- What holds at first, and goes on holding from moment to moment, holds in the end; `I` may speak of all
that has happened so far. -/
theorem history {I : List Moment → Session → Prop} (h : Linked s ms t) (past : List Moment) (h0 : I past s)
    (hstep : ∀ past m, m ∈ ms → I past m.before → I (past ++ [m]) m.after) : I (past ++ ms) t := by
  induction h generalizing past with
  | nil s => rwa [List.append_nil]
  | @cons s t b ms _ ih =>
    have hfirst := hstep past ⟨s, b⟩ List.mem_cons_self h0
    have hrest := ih (past ++ [⟨s, b⟩]) hfirst fun past m hm => hstep past m (List.mem_cons_of_mem _ hm)
    rwa [List.append_assoc, List.singleton_append] at hrest

end Linked

namespace Session

theorem linked_play (s : Session) (bs : List Beat) : Linked s (s.play bs) (bs.foldl beat s) := by
  induction bs generalizing s with
  | nil => exact .nil s
  | cons b rest ih => exact .cons (ih (s.beat b))

/-- **The moments of a run lead from its beginning to its end.** -/
theorem linked_moments (actions : List Action) (s : Session) :
    Linked s (s.moments actions) (s.run actions) := by
  induction actions generalizing s with
  | nil => exact .nil s
  | cons a rest ih =>
    have hfirst := s.linked_play (s.beats a)
    rw [← perform_eq_beats] at hfirst
    exact hfirst.append (ih _)

theorem mem_play {s : Session} {bs : List Beat} {m : Moment} (h : m ∈ s.play bs) : m.beat ∈ bs := by
  induction bs generalizing s with
  | nil => cases h
  | cons b rest ih =>
    rcases List.mem_cons.mp h with rfl | h
    · exact List.mem_cons_self
    · exact List.mem_cons_of_mem _ (ih h)

/-- Each moment is a beat of one of the actions. -/
theorem mem_moments {actions : List Action} {s : Session} {m : Moment} (h : m ∈ s.moments actions) :
    ∃ a ∈ actions, ∃ t : Session, m.beat ∈ t.beats a := by
  induction actions generalizing s with
  | nil => cases h
  | cons a rest ih =>
    rcases List.mem_append.mp h with h | h
    · exact ⟨a, List.mem_cons_self, s, mem_play h⟩
    · obtain ⟨a', ha', t, ht⟩ := ih h
      exact ⟨a', List.mem_cons_of_mem _ ha', t, ht⟩

theorem mem_emission {s : Session} {id : RoutingId} {capture now : Int64} {b : Beat}
    (h : b ∈ s.emission id capture now) :
    b = .stamp id capture now ∨ ∃ raw tap, b = .hand raw tap := by
  unfold emission at h
  split at h
  · cases h
  · rcases List.mem_cons.mp h with rfl | h
    · exact .inl rfl
    · unfold handings at h
      split at h
      · cases h
      · obtain ⟨tap, _, rfl⟩ := List.mem_map.mp h
        exact .inr ⟨_, _, rfl⟩

/-- An action is done in a beat only if it hands out nothing. -/
theorem act_of_mem_beats {s : Session} {a a' : Action} (h : .act a' ∈ s.beats a) :
    a' = a ∧ a.handsOut = false := by
  have hentry : ∀ id f now, Beat.act a' ∉ s.entry id f now := by
    intro id f now hin
    unfold entry at hin
    split at hin
    · cases hin
    · split at hin
      · cases hin
      · rcases List.mem_cons.mp hin with hin | hin
        · cases hin
        · rcases mem_emission hin with hin | ⟨_, _, hin⟩ <;> cases hin
  cases a with
  | capture id tags payload now =>
    simp only [beats] at h
    split at h
    · rcases List.mem_singleton.mp h with h
      cases h
    · exact absurd h (hentry id _ now)
  | push id f now => exact absurd h (hentry id f now)
  | emit id capture now =>
    rcases mem_emission h with h | ⟨_, _, h⟩ <;> cases h
  | pushRaw id picture t =>
    simp only [beats] at h
    split at h
    · cases h
    · unfold handings at h
      split at h
      · cases h
      · obtain ⟨_, _, h⟩ := List.mem_map.mp h
        cases h
  | _ =>
    cases List.mem_singleton.mp h
    exact ⟨rfl, rfl⟩

/-- What is true of all actions is true of those among the moments. -/
theorem does_of_mem_moments {P : Action → Prop} {actions : List Action} (hP : ∀ a ∈ actions, P a)
    {s : Session} {m : Moment} (h : m ∈ s.moments actions) : m.beat.Does P := by
  obtain ⟨a, ha, t, hb⟩ := mem_moments h
  generalize m.beat = b at hb ⊢
  cases b with
  | act a' =>
    obtain ⟨rfl, hout⟩ := act_of_mem_beats hb
    exact ⟨hout, hP _ ha⟩
  | _ => trivial

end Session

end EncodedFeed
