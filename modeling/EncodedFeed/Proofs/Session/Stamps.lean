import EncodedFeed.Proofs.Session.Checked
import EncodedFeed.Proofs.Session.Conservation
import EncodedFeed.Proofs.Session.Lasting

/-!
# How far a producer gets

On its way from a producer to the taps of its source a frame makes the program add one twice, to the depth at which the
source warns and to the last stamp.  The depth never changes once a source is made, and the stamps of a source are
those of one aligner (`stamps_eq`), whatever else is done in between.  So whether a call of the producer is cut short
can be read off the depth and the last stamp, and for a whole run of calls off its candidates.  No tap ever gets a time
that goes back, as long as the run goes on.
-/

namespace EncodedFeed

/-! ### At most one stamp -/

namespace Aligner

variable {a : Aligner} {c : Option (Int64 × Int64)} {rest : List (Int64 × Int64)}

/-- The aligner after a call for a stamp, if there is one. -/
def advance (a : Aligner) : Option (Int64 × Int64) → Aligner
  | some (capture, now) => (a.align capture now).2
  | none => a

/-- The aligner after some calls for stamps. -/
def after (a : Aligner) (calls : List (Int64 × Int64)) : Aligner := calls.foldl (fun a x => (a.align x.1 x.2).2) a

theorem after_toList_append : a.after (c.toList ++ rest) = (a.advance c).after rest := by
  cases c <;> rfl

/-- An aligner goes by its last stamp. -/
theorem last_after (a : Aligner) (calls : List (Int64 × Int64)) :
    (a.after calls).last = (a.alignAll calls).getLast?.or a.last := by
  induction calls generalizing a with
  | nil => rfl
  | cons x rest ih =>
    obtain ⟨capture, now⟩ := x
    rw [alignAll_cons, List.getLast?_cons]
    show ((a.align capture now).2.after rest).last = _
    rw [ih, last_align]
    cases ((a.align capture now).2.alignAll rest).getLast? <;> rfl

theorem alignAll_toList_append : a.alignAll (c.toList ++ rest)
    = (c.map fun x => (a.align x.1 x.2).1).toList ++ (a.advance c).alignAll rest := by
  cases c <;> rfl

theorem fits_toList_append : a.Fits (c.toList ++ rest)
    ↔ (∀ x, c = some x → a.align? x.1 x.2 = some (a.align x.1 x.2)) ∧ (a.advance c).Fits rest := by
  cases c with
  | none => exact ⟨fun h => ⟨fun _ hx => (nomatch hx), h⟩, And.right⟩
  | some x =>
    obtain ⟨capture, now⟩ := x
    refine and_congr_left fun _ => ⟨fun h y hy => ?_, fun h => ?_⟩
    · cases hy
      exact align?_of_open (isSome_align?.mp h) capture now
    · rw [h _ rfl]
      rfl

end Aligner

/-! ### Beats of a source -/

namespace Beat

/-- The capture time and the reading of the clock for which the pump of the source gives a stamp. -/
def asked? (id : RoutingId) : Beat → Option (Int64 × Int64)
  | stamp i capture now => if i = id then some (capture, now) else none
  | _ => none

/-- The stamp on a raw frame of the source that reaches a tap. -/
def handed? (id : RoutingId) : Beat → Option (Stamped Int64)
  | hand raw _ => if raw.source = some id then some raw.timestamp else none
  | _ => none

end Beat

namespace Moment

/-- The stamp that the pump of the source gives. -/
def stamped? (id : RoutingId) (m : Moment) : Option (Stamped Int64) :=
  (m.beat.asked? id).bind fun c => (m.before.source? id).map fun src => (src.pump.stamp c.1 c.2).1

/-- The calls for stamps of a source among some moments. -/
def stampCallsIn (id : RoutingId) (ms : List Moment) : List (Int64 × Int64) :=
  ms.filterMap fun m => m.beat.asked? id

/-- What the source would stamp with in some moments if it gave no other stamps. -/
def candidatesIn (id : RoutingId) (ms : List Moment) : List Int := Aligner.wanted (stampCallsIn id ms)

/-- The stamps that a source gives in some moments. -/
def stampsIn (id : RoutingId) (ms : List Moment) : List (Stamped Int64) := ms.filterMap (stamped? id)

/-- The stamps that reach taps of a source in some moments. -/
def handedIn (id : RoutingId) (ms : List Moment) : List (Stamped Int64) := ms.filterMap fun m => m.beat.handed? id

variable (id : RoutingId) (m : Moment) (ms : List Moment)

theorem stampCallsIn_cons : stampCallsIn id (m :: ms) = (m.beat.asked? id).toList ++ stampCallsIn id ms := by
  simp only [stampCallsIn, List.filterMap_eq_flatMap_toList, List.flatMap_cons]

theorem stampsIn_cons : stampsIn id (m :: ms) = (m.stamped? id).toList ++ stampsIn id ms := by
  simp only [stampsIn, List.filterMap_eq_flatMap_toList, List.flatMap_cons]

theorem handedIn_cons : handedIn id (m :: ms) = (m.beat.handed? id).toList ++ handedIn id ms := by
  simp only [handedIn, List.filterMap_eq_flatMap_toList, List.flatMap_cons]

end Moment

/-! ### The dial of a source -/

namespace Session

variable {s t : Session} {id : RoutingId} {depth : UInt64} {a : Aligner} {b : Beat}

/-- What a source goes by when it warns and stamps. -/
def dial? (s : Session) (id : RoutingId) : Option (UInt64 × Aligner) := (s.source? id).map Source.dial

theorem exists_source_of_dial? (h : s.dial? id = some (depth, a)) :
    ∃ src, s.source? id = some src ∧ src.warnDepth = depth ∧ src.pump.aligner = a := by
  obtain ⟨src, hsrc, hdial⟩ := Option.map_eq_some_iff.mp h
  exact ⟨src, hsrc, Prod.mk.inj hdial⟩

theorem dial?_addSource (s : Session) (r : Ref .registry) (c : SourceConfig) :
    (s.addSource r c).2.dial? (s.addSource r c).1 = some (c.warnDepth, {}) := by
  rw [dial?, source?_addSource, if_pos rfl, Option.map_some]
  rfl

theorem dial?_of_lasting (h : LastingUnstamped s t) (hs : s.dial? id = some (depth, a)) :
    t.dial? id = some (depth, a) := by
  obtain ⟨src, hsrc, hdial⟩ := Option.map_eq_some_iff.mp hs
  obtain ⟨src', ht, -, hsame⟩ := h.source id src hsrc
  rw [dial?, ht, Option.map_some, hsame, hdial]

/-- **The dial of a source is moved by its own stamps only.** -/
theorem dial?_beat (hb : b.Does fun _ => True) (hs : s.dial? id = some (depth, a)) :
    (s.beat b).dial? id = some (depth, a.advance (b.asked? id)) := by
  cases b with
  | stamp i capture now =>
    obtain ⟨src, hsrc, rfl, rfl⟩ := exists_source_of_dial? hs
    rw [beat, dial?, modifyPump, source?_modifySource, hsrc, Beat.asked?]
    split <;> rfl
  | _ => exact dial?_of_lasting (LastingUnstamped.beat s hb rfl) hs

theorem stamped?_eq (hs : s.dial? id = some (depth, a)) :
    Moment.stamped? id ⟨s, b⟩ = (b.asked? id).map fun c => (a.align c.1 c.2).1 := by
  obtain ⟨src, hsrc, -, rfl⟩ := exists_source_of_dial? hs
  rw [Moment.stamped?, hsrc]
  cases b.asked? id <;> rfl

/-- If the numbers of a moment fit, so does its stamp. -/
theorem align?_of_fits (hs : s.dial? id = some (depth, a)) (hfits : Moment.fits ⟨s, b⟩ = true) :
    ∀ x, b.asked? id = some x → a.align? x.1 x.2 = some (a.align x.1 x.2) := by
  obtain ⟨src, hsrc, -, rfl⟩ := exists_source_of_dial? hs
  intro x hx
  cases b with
  | stamp i capture now =>
    obtain ⟨rfl, -⟩ := Option.ite_none_right_eq_some.mp hx
    rw [Moment.fits_stamp, hsrc] at hfits
    exact Aligner.align?_of_open (decide_eq_true_iff.mp hfits) x.1 x.2
  | _ => cases hx

end Session

/-! ### Runs -/

section Runs

variable {s : Session} {id : RoutingId} {depth : UInt64} {a : Aligner}

/-- **Induction along the moments of a run**, with the aligner that a source has at each. -/
theorem moments_induction {C : Aligner → List Moment → Session → Prop} (hs : s.dial? id = some (depth, a))
    (nil : ∀ (s : Session) (a : Aligner), s.dial? id = some (depth, a) → C a [] s)
    (cons : ∀ (s t : Session) (b : Beat) (ms : List Moment) (a : Aligner),
      s.dial? id = some (depth, a) → C (a.advance (b.asked? id)) ms t → C a (⟨s, b⟩ :: ms) t)
    (actions : List Action) : C a (s.moments actions) (s.run actions) := by
  have hlinked := s.linked_moments actions
  have hdoes : ∀ m ∈ s.moments actions, m.beat.Does fun _ => True :=
    fun _ hm => Session.does_of_mem_moments (fun _ _ => trivial) hm
  generalize s.moments actions = ms, s.run actions = t at hlinked hdoes
  induction hlinked generalizing a with
  | nil s => exact nil s a hs
  | @cons s t b ms _ ih =>
    have hnext := Session.dial?_beat (hdoes _ List.mem_cons_self) hs
    exact cons s t b ms a hs (ih hnext fun m hm => hdoes m (List.mem_cons_of_mem _ hm))

/-- **The stamps of a source are those of one aligner**, whatever else happens in between. -/
theorem stamps_eq (hs : s.dial? id = some (depth, a)) (actions : List Action) :
    Moment.stampsIn id (s.moments actions) = a.alignAll (Moment.stampCallsIn id (s.moments actions)) := by
  refine moments_induction
    (C := fun a ms _ => Moment.stampsIn id ms = a.alignAll (Moment.stampCallsIn id ms)) hs
    (fun _ _ _ => rfl) (fun s t b ms a hs hrest => ?_) actions
  rw [Moment.stampsIn_cons, Moment.stampCallsIn_cons, Session.stamped?_eq hs, hrest, Aligner.alignAll_toList_append]

theorem dial?_run (hs : s.dial? id = some (depth, a)) (actions : List Action) :
    (s.run actions).dial? id = some (depth, a.after (Moment.stampCallsIn id (s.moments actions))) := by
  refine moments_induction
    (C := fun a ms t => t.dial? id = some (depth, a.after (Moment.stampCallsIn id ms))) hs
    (fun _ _ hs => hs) (fun s t b ms a hs hrest => ?_) actions
  rw [Moment.stampCallsIn_cons, Aligner.after_toList_append, hrest]

/-- In a run that goes on all stamps fit. -/
theorem fits_stampCalls (hs : s.dial? id = some (depth, a)) {actions : List Action}
    (hfits : ∀ m ∈ s.moments actions, m.fits = true) : a.Fits (Moment.stampCallsIn id (s.moments actions)) := by
  refine moments_induction
    (C := fun a ms _ => (∀ m ∈ ms, m.fits = true) → a.Fits (Moment.stampCallsIn id ms)) hs
    (fun _ _ _ _ => trivial) (fun s t b ms a hs ih hfits => ?_) actions hfits
  rw [Moment.stampCallsIn_cons, Aligner.fits_toList_append]
  exact ⟨Session.align?_of_fits hs (hfits _ List.mem_cons_self), ih fun m hm => hfits m (List.mem_cons_of_mem _ hm)⟩

/-- The last stamp that the source has given is `t`. -/
def Session.HasStamped (s : Session) (id : RoutingId) (t : Stamped Int64) : Prop :=
  ∃ depth a, s.dial? id = some (depth, a) ∧ a.last = some t

/-- A raw frame of the source that reaches a tap carries the last stamp of the source. -/
def Moment.Current (id : RoutingId) (m : Moment) : Prop :=
  ∀ t, m.beat.handed? id = some t → m.before.HasStamped id t

/-- Taps get a raw frame one after the other, and no stamp is given meanwhile. -/
theorem current_hands {raw : RawFrame} (taps : List Tap)
    (h : raw.source = some id → s.HasStamped id raw.timestamp) :
    ∀ m ∈ s.play (taps.map (Beat.hand raw)), m.Current id := by
  induction taps generalizing s with
  | nil => exact fun _ hm => (nomatch hm)
  | cons tap rest ih =>
    intro m hm
    rcases List.mem_cons.mp hm with rfl | hm
    · intro t ht
      obtain ⟨hof, ht⟩ := Option.ite_none_right_eq_some.mp ht
      cases ht
      exact h hof
    · refine ih (fun hof => ?_) m hm
      obtain ⟨depth, a, hs, hlast⟩ := h hof
      exact ⟨depth, a, Session.dial?_beat (b := .hand raw tap) trivial hs, hlast⟩

theorem current_handings {i : RoutingId} {t : Stamped Int64} (src : Source) (picture : Picture)
    (h : i = id → s.HasStamped id t) : ∀ m ∈ s.play (Session.handings src i picture t), m.Current id := by
  unfold Session.handings
  split
  · exact fun _ hm => (nomatch hm)
  · have hmap : (src.pump.taps.map fun tap => Beat.hand { picture, timestamp := t, source := some i } tap.2)
        = (src.pump.taps.map Prod.snd).map (Beat.hand { picture, timestamp := t, source := some i }) := by
      rw [List.map_map]
      rfl
    rw [hmap]
    exact current_hands _ fun hof => h (Option.some.inj hof)

theorem current_emission (s : Session) (id i : RoutingId) (capture now : Int64) :
    ∀ m ∈ s.play (s.emission i capture now), m.Current id := by
  unfold Session.emission
  split
  · exact fun _ hm => (nomatch hm)
  · next src hsrc =>
    intro m hm
    rcases List.mem_cons.mp hm with rfl | hm
    · exact fun _ ht => (nomatch ht)
    · refine current_handings src _ ?_ m hm
      rintro rfl
      have hdial : s.dial? i = some src.dial := by rw [Session.dial?, hsrc, Option.map_some]
      have hstamp := Session.dial?_beat (b := .stamp i capture now) trivial hdial
      rw [Beat.asked?, if_pos rfl] at hstamp
      exact ⟨_, _, hstamp, rfl⟩

theorem current_entry (s : Session) (id i : RoutingId) (f : EncodedFrame) (now : Int64) :
    ∀ m ∈ s.play (s.entry i f now), m.Current id := by
  unfold Session.entry
  split
  · exact fun _ hm => (nomatch hm)
  · next src hsrc =>
    split
    · exact fun _ hm => (nomatch hm)
    · intro m hm
      rcases List.mem_cons.mp hm with rfl | hm
      · exact fun _ ht => (nomatch ht)
      · rw [← s.emission_enter hsrc f] at hm
        exact current_emission _ id i _ now m hm

/-- **Raw frames carry the last stamp**, unless somebody else hands them to the pump. -/
theorem current_moments {actions : List Action} (hraw : ∀ picture t, Action.pushRaw id picture t ∉ actions)
    (s : Session) : ∀ m ∈ s.moments actions, m.Current id := by
  induction actions generalizing s with
  | nil => exact fun _ hm => (nomatch hm)
  | cons a rest ih =>
    intro m hm
    rcases List.mem_append.mp hm with hm | hm
    · cases a with
      | capture i tags payload now =>
        unfold Session.beats at hm
        dsimp only at hm
        split at hm
        · cases List.mem_singleton.mp hm
          exact fun _ ht => (nomatch ht)
        · exact current_entry s id i _ now m hm
      | push i f now => exact current_entry s id i f now m hm
      | emit i capture now => exact current_emission s id i capture now m hm
      | pushRaw i picture t =>
        unfold Session.beats at hm
        dsimp only at hm
        split at hm
        · cases hm
        · refine current_handings _ picture ?_ m hm
          rintro rfl
          exact absurd List.mem_cons_self (hraw picture t)
      | _ =>
        cases List.mem_singleton.mp hm
        exact fun _ ht => (nomatch ht)
    · exact ih (fun picture t hin => hraw picture t (List.mem_cons_of_mem _ hin)) _ m hm

/-- What reaches taps in some moments does not go back, nor behind the last stamp. -/
def NeverBack (id : RoutingId) (a : Aligner) (ms : List Moment) : Prop :=
  (∀ last ∈ a.last, ∀ u ∈ Moment.handedIn id ms, last.time ≤ u.time) ∧
    (Moment.handedIn id ms).Pairwise fun t u => t.time ≤ u.time

/-- A stamp moves the last stamp on. -/
theorem NeverBack.of_advance {c : Option (Int64 × Int64)} {ms : List Moment} (h : NeverBack id (a.advance c) ms)
    (hstamp : ∀ x, c = some x → a.align? x.1 x.2 = some (a.align x.1 x.2)) : NeverBack id a ms := by
  cases c with
  | none => exact h
  | some x =>
    obtain ⟨hlater, hsorted⟩ := h
    have hopen : a.Open := Aligner.isSome_align?.mp (by rw [hstamp x rfl]; rfl)
    obtain ⟨⟨hafter, -⟩, -⟩ := Aligner.isLeast_align hopen x.1 x.2
    exact ⟨fun last hin u hu => (hafter last hin).le.trans (hlater _ rfl u hu), hsorted⟩

/-- A raw frame that carries the last stamp does not go behind it. -/
theorem NeverBack.cons {m : Moment} {ms : List Moment} (h : NeverBack id a ms) (hm : m.Current id)
    (hs : m.before.dial? id = some (depth, a)) : NeverBack id a (m :: ms) := by
  obtain ⟨hlater, hsorted⟩ := h
  unfold NeverBack
  rw [Moment.handedIn_cons]
  cases hhanded : m.beat.handed? id with
  | none => exact ⟨hlater, hsorted⟩
  | some u =>
    obtain ⟨_, _, hdial, hu⟩ := hm u hhanded
    rw [hs] at hdial
    cases hdial
    refine ⟨fun last hin v hv => ?_, List.pairwise_cons.mpr ⟨hlater u hu, hsorted⟩⟩
    rcases List.mem_cons.mp hv with rfl | hv
    · rw [Option.mem_def.mp hin] at hu
      cases hu
      exact le_rfl
    · exact hlater last hin v hv

/-- **What reaches taps never goes back**, as long as stamps fit. -/
theorem neverBack_moments (hs : s.dial? id = some (depth, a)) {actions : List Action}
    (hraw : ∀ picture t, Action.pushRaw id picture t ∉ actions)
    (hfits : a.Fits (Moment.stampCallsIn id (s.moments actions))) : NeverBack id a (s.moments actions) := by
  refine moments_induction (C := fun a ms _ => (∀ m ∈ ms, m.Current id) → a.Fits (Moment.stampCallsIn id ms) →
    NeverBack id a ms) hs (fun _ _ _ _ _ => ⟨fun _ _ _ hu => (nomatch hu), .nil⟩)
    (fun s t b ms a hs ih hcurrent hfits => ?_) actions (current_moments hraw s) hfits
  rw [Moment.stampCallsIn_cons, Aligner.fits_toList_append] at hfits
  obtain ⟨hstamp, hfits⟩ := hfits
  have hrest := ih (fun m hm => hcurrent m (List.mem_cons_of_mem _ hm)) hfits
  exact (hrest.of_advance hstamp).cons (hcurrent _ List.mem_cons_self) hs

end Runs

/-! ### Captures -/

/-- What a producer hands in: a payload with its tags, while the clock shows a time. -/
structure Capture where
  tags : FrameTags
  payload : Octets
  now : Int64

namespace Capture

/-- It is handed in to a source. -/
def action (id : RoutingId) (c : Capture) : Action := .capture id c.tags c.payload c.now

/-- The call for a stamp that it leads to, unless the payload is empty. -/
def call? (c : Capture) : Option (Int64 × Int64) :=
  if c.payload = [] then none else some (c.tags.captureUs, c.now)

end Capture

section Captures

variable {s : Session} {id : RoutingId} {depth : UInt64} {a : Aligner} {src : Source}

theorem stampCallsIn_handings (s : Session) (src : Source) (i : RoutingId) (picture : Picture) (t : Stamped Int64) :
    Moment.stampCallsIn id (s.play (Session.handings src i picture t)) = [] := by
  refine List.filterMap_eq_nil_iff.mpr fun m hm => ?_
  have hbeat := Session.mem_play hm
  unfold Session.handings at hbeat
  split at hbeat
  · cases hbeat
  · obtain ⟨tap, -, htap⟩ := List.mem_map.mp hbeat
    rw [← htap]
    rfl

/-- An open source asks for the stamp of a frame it accepts. -/
theorem stampCallsIn_entry (hs : s.source? id = some src) (hopen : src.closed = false) (f : EncodedFrame)
    (now : Int64) : Moment.stampCallsIn id (s.play (s.entry id f now)) = [(f.captureUs, now)] := by
  have hask : (Beat.stamp id f.captureUs now).asked? id = some (f.captureUs, now) := if_pos rfl
  rw [Session.entry, hs]
  dsimp only
  rw [if_neg (by simp [hopen]), Session.emission, hs, Session.play, Session.play, Moment.stampCallsIn_cons,
    Moment.stampCallsIn_cons, stampCallsIn_handings, hask]
  rfl

theorem fits_entry (hs : s.source? id = some src) (hopen : src.closed = false) (f : EncodedFrame) (now : Int64) :
    (s.play (s.entry id f now)).all Moment.fits
      = (decide (src.warnDepth.toNat + 1 < 2 ^ 64) && decide src.pump.aligner.Open) := by
  rw [Session.entry, hs]
  dsimp only
  rw [if_neg (by simp [hopen]), Session.play, List.all_cons, Moment.fits_enter, hs, ← s.emission_enter hs f,
    Session.fits_emission, Session.source?_enter s hs]
  rfl

theorem isClosed_capture (s : Session) (id : RoutingId) (tags : FrameTags) (payload : Octets) (now : Int64)
    (i : RoutingId) : (s.capture id tags payload now).2.isClosed i = s.isClosed i := by
  unfold Session.capture
  split
  · rfl
  · next f _ =>
    rcases s.push_cases id f now with hno | ⟨-, -, es, hes⟩
    · rw [hno]
    · rw [hes.closed]
      exact Session.isClosed_modifySource_of_eq s id (fun src => src.enqueue f) (fun _ => rfl) i

/-- **Which captures are cut short**: those that bring in a frame when one past the depth is no word, or no time is
left after the last stamp. -/
theorem capture?_eq_none_iff (hs : s.dial? id = some (depth, a)) (tags : FrameTags) (payload : Octets) (now : Int64) :
    s.capture? id tags payload now = none
      ↔ payload ≠ [] ∧ s.isClosed id = false ∧ (depth.toNat + 1 = 2 ^ 64 ∨ ¬a.Open) := by
  obtain ⟨src, hsrc, rfl, rfl⟩ := Session.exists_source_of_dial? hs
  have hdepth : src.warnDepth.toNat < 2 ^ 64 := src.warnDepth.toNat_lt
  by_cases hempty : payload = []
  · have hmake : EncodedFrame.make tags payload = .error .emptyPayload := dif_pos hempty
    simp only [Session.capture?, hmake]
    simp [hempty]
  have hmake : EncodedFrame.make tags payload = .ok { tags with payload, payload_ne := hempty } := dif_neg hempty
  have hclosed : s.isClosed id = src.closed := by rw [Session.isClosed, hsrc, Option.any_some]
  simp only [Session.capture?, hmake, hclosed]
  by_cases hopen : src.closed = false
  · rw [Session.push?_eq, fits_entry hsrc hopen]
    simp only [Bool.and_eq_true, decide_eq_true_eq, ite_eq_right_iff, reduceCtorEq, imp_false, not_and_or, ne_eq,
      hempty, not_false_eq_true, hopen, true_and]
    exact or_congr_left ⟨fun h => by omega, fun h => by omega⟩
  · simp [Session.push?, hsrc, Bool.not_eq_false _ ▸ hopen]

/-- The dial of an open source after a capture that is not cut short. -/
theorem dial?_capture (hs : s.dial? id = some (depth, a)) (hopen : s.isClosed id = false) (c : Capture) :
    (s.perform (c.action id)).2.dial? id = some (depth, a.advance c.call?) := by
  have hrun := dial?_run hs [c.action id]
  have hcalls : Moment.stampCallsIn id (s.moments [c.action id]) = c.call?.toList := by
    obtain ⟨src, hsrc, -, -⟩ := Session.exists_source_of_dial? hs
    rw [Session.moments, Session.moments, List.append_nil, Capture.call?, Capture.action]
    by_cases hempty : c.payload = []
    · have hmake : EncodedFrame.make c.tags c.payload = .error .emptyPayload := dif_pos hempty
      simp only [Session.beats, hmake, if_pos hempty]
      rfl
    · have hmake : EncodedFrame.make c.tags c.payload
          = .ok { c.tags with payload := c.payload, payload_ne := hempty } := dif_neg hempty
      simp only [Session.beats, hmake, if_neg hempty]
      refine stampCallsIn_entry hsrc ?_ _ _
      rwa [Session.isClosed, hsrc, Option.any_some] at hopen
  have hafter : a.after c.call?.toList = a.advance c.call? := by
    cases c.call? <;> rfl
  rw [hcalls, hafter] at hrun
  exact hrun

/-- **How far a run of captures gets**: to its end, if the depth allows of a frame at all and every stamp fits. -/
theorem isSome_run?_captures (hs : s.dial? id = some (depth, a)) (hopen : s.isClosed id = false)
    (captures : List Capture) :
    (s.run? (captures.map (Capture.action id))).isSome
      ↔ (captures.filterMap Capture.call? = [] ∨ depth.toNat + 1 < 2 ^ 64) ∧
        a.Fits (captures.filterMap Capture.call?) := by
  induction captures generalizing s a with
  | nil => exact iff_of_true rfl ⟨.inl rfl, trivial⟩
  | cons c rest ih =>
    have hnext := ih (dial?_capture hs hopen c)
      ((isClosed_capture s id c.tags c.payload c.now id).trans hopen)
    have hcalls : (c :: rest).filterMap Capture.call? = c.call?.toList ++ rest.filterMap Capture.call? := by
      simp only [List.filterMap_eq_flatMap_toList, List.flatMap_cons]
    have hone := capture?_eq_none_iff hs c.tags c.payload c.now
    have hdepth : depth.toNat < 2 ^ 64 := depth.toNat_lt
    rw [List.map_cons, Session.run?, hcalls, Aligner.fits_toList_append]
    by_cases hcut : s.capture? id c.tags c.payload c.now = none
    · -- the frame comes in, so either the depth forbids it or its stamp does not fit
      obtain ⟨hempty, -, hwhy⟩ := hone.mp hcut
      have hcall : c.call? = some (c.tags.captureUs, c.now) := if_neg hempty
      have hnone : s.perform? (c.action id) = none := by
        rw [Capture.action, Session.perform?, hcut, Option.map_none]
      rw [hnone, Option.bind_none, hcall]
      refine iff_of_false (by decide) ?_
      rintro ⟨hallowed, hstamp, -⟩
      rcases hwhy with hend | hend
      · rcases hallowed with hnil | hlt
        · cases hnil
        · omega
      · exact hend (Aligner.isSome_align?.mp (by rw [hstamp _ rfl]; rfl))
    · have hsome : s.perform? (c.action id) = some (s.perform (c.action id)) := by
        have hcap := s.capture?_eq id c.tags c.payload c.now
        rw [Session.perform?_eq]
        refine if_pos (Classical.byContradiction fun hno => hcut ?_)
        rw [hcap]
        exact if_neg hno
      rw [hsome, Option.bind_some, hnext]
      by_cases hempty : c.payload = []
      · have hcall : c.call? = none := if_pos hempty
        rw [hcall]
        simp
      · have hcall : c.call? = some (c.tags.captureUs, c.now) := if_neg hempty
        have hfine : depth.toNat + 1 < 2 ^ 64 ∧ a.Open := by
          have hnot := hone.not.mp hcut
          simp only [ne_eq, hempty, not_false_eq_true, hopen, true_and, not_or, not_not] at hnot
          exact ⟨by omega, hnot.2⟩
        have hstamp : ∀ x, c.call? = some x → a.align? x.1 x.2 = some (a.align x.1 x.2) :=
          fun x _ => Aligner.align?_of_open hfine.2 x.1 x.2
        exact and_congr (iff_of_true (.inr hfine.1) (.inr hfine.1)) (iff_and_self.mpr fun _ => hstamp)

end Captures

/-- **How far a producer gets.**  A call is cut short exactly if it brings in a frame and either one past the depth of
the source is no word or its last stamp is the last time there is.  A run of calls gets to its end exactly if one past
the depth is a word, should a frame come in at all, and after each candidate there is a time for every call that
follows.  As long as the run goes on, stamps go up and no tap gets a time that goes back; without checks stamps go up
exactly as long as there is a time for each. -/
theorem captures_cut_short_iff {s t : Session} {r : Ref .registry} {c : SourceConfig} {id : RoutingId}
    (hmade : s.addSource? r c = some (id, t)) :
    (∀ actions u, t.run? actions = some u → ∀ tags payload now,
      (u.capture? id tags payload now = none ↔ payload ≠ [] ∧ u.isClosed id = false ∧
        (c.warnDepth.toNat + 1 = 2 ^ 64 ∨
          ∃ last ∈ (Moment.stampsIn id (t.moments actions)).getLast?, last.time + 1 = 2 ^ 63))) ∧
    (∀ actions u, t.run? actions = some u → Moment.stampsIn id (t.moments actions) = [] → u.isClosed id = false →
      ∀ captures : List Capture, ((u.run? (captures.map (Capture.action id))).isSome ↔
        (captures.filterMap Capture.call? = [] ∨ c.warnDepth.toNat + 1 < 2 ^ 64) ∧
          Aligner.HasRoom (Aligner.wanted (captures.filterMap Capture.call?)))) ∧
    (∀ actions u, t.run? actions = some u →
      (Moment.stampsIn id (t.moments actions)).Pairwise (fun t u => t.time < u.time) ∧
      ((∀ picture time, Action.pushRaw id picture time ∉ actions) →
        (Moment.handedIn id (t.moments actions)).Pairwise fun t u => t.time ≤ u.time)) ∧
    ∀ actions, ((Moment.stampsIn id (t.moments actions)).Pairwise (fun t u => t.time < u.time) ↔
      Aligner.HasRoom (Moment.candidatesIn id (t.moments actions))) := by
  rw [Session.addSource?_eq] at hmade
  obtain ⟨-, hmade⟩ := Option.ite_none_right_eq_some.mp hmade
  have hdial : t.dial? id = some (c.warnDepth, {}) := by
    have hnew := s.dial?_addSource r c
    rwa [Option.some.inj hmade] at hnew
  have hlast : ∀ actions, (Aligner.after {} (Moment.stampCallsIn id (t.moments actions))).last
      = (Moment.stampsIn id (t.moments actions)).getLast? := by
    intro actions
    rw [Aligner.last_after, stamps_eq hdial, Option.or_none]
  have hroom : ∀ calls, Aligner.Fits {} calls ↔ Aligner.HasRoom (Aligner.wanted calls) :=
    fun calls => Aligner.fits_iff.trans (and_iff_right fun _ hin => (nomatch hin))
  have hup : ∀ actions, (Moment.stampsIn id (t.moments actions)).Pairwise (fun t u => t.time < u.time) ↔
      Aligner.Fits {} (Moment.stampCallsIn id (t.moments actions)) := by
    intro actions
    rw [stamps_eq hdial, ← Aligner.pairwise_iff_fits]
    rfl
  refine ⟨fun actions u hu tags payload now => ?_, fun actions u hu hnone hopen captures => ?_,
    fun actions u hu => ?_, fun actions => (hup actions).trans (hroom _)⟩
  · obtain ⟨-, rfl⟩ := Session.run?_eq_some_iff.mp hu
    rw [capture?_eq_none_iff (dial?_run hdial actions), Aligner.Open, hlast]
    refine and_congr_right fun _ => and_congr_right fun _ => or_congr_right ?_
    simp only [not_forall, exists_prop]
    refine exists_congr fun last => and_congr_right fun _ => ?_
    have hlt := last.time_lt
    omega
  · obtain ⟨-, rfl⟩ := Session.run?_eq_some_iff.mp hu
    have hfresh : Aligner.after {} (Moment.stampCallsIn id (t.moments actions)) = {} := by
      have hlast := hlast actions
      rw [hnone] at hlast
      generalize Aligner.after {} (Moment.stampCallsIn id (t.moments actions)) = a at hlast ⊢
      cases a
      cases hlast
      rfl
    have hdial' := dial?_run hdial actions
    rw [hfresh] at hdial'
    rw [isSome_run?_captures hdial' hopen, hroom]
  · obtain ⟨hfits, -⟩ := Session.run?_eq_some_iff.mp hu
    have hstamps := fits_stampCalls hdial hfits
    exact ⟨(hup actions).mpr hstamps, fun hraw => (neverBack_moments hdial hraw hstamps).2⟩

/-- Frames for a source with a recorder, captured at these times. -/
def recordedAt (times : List Int64) : List Action :=
  .addRecorder :: .addTap ⟨1⟩ (.recorder ⟨1⟩) ::
    times.map fun us => .capture ⟨1⟩ { captureUs := us, width := 640, height := 480 } [0x65] 7

/-- A session with one source. -/
def oneSource (depth : UInt64) : Session := (({} : Session).addRegistry.2.addSource ⟨1⟩ { warnDepth := depth }).2

/-- The last three times there are; the queue grows past its depth on the way.  Whatever comes next is cut short. -/
theorem captures_cut_short_iff_lastTimes :
    let actions := recordedAt [0x7ffffffffffffffd, 5, 0]
    ({} : Session).addRegistry.2.addSource? ⟨1⟩ { warnDepth := 1 } = some (⟨1⟩, oneSource 1) ∧
    ∃ u, (oneSource 1).run? actions = some u ∧
      (Moment.handedIn ⟨1⟩ ((oneSource 1).moments actions)).map Stamped.time = [2 ^ 63 - 3, 2 ^ 63 - 2, 2 ^ 63 - 1] ∧
      ((Moment.handedIn ⟨1⟩ ((oneSource 1).moments actions)).Pairwise fun t u => t.time ≤ u.time) ∧
      u.capture? ⟨1⟩ { width := 640, height := 480 } [0x65] 7 = none := by
  intro actions
  have hmade : ({} : Session).addRegistry.2.addSource? ⟨1⟩ { warnDepth := 1 } = some (⟨1⟩, oneSource 1) := by
    rw [Session.addSource?_eq]
    exact if_pos (by decide)
  have hrun : (oneSource 1).run? actions = some ((oneSource 1).run actions) := by
    rw [Session.run?_eq]
    exact if_pos (by decide)
  obtain ⟨hcut, -, hgoes, -⟩ := captures_cut_short_iff hmade
  refine ⟨hmade, _, hrun, by decide, (hgoes actions _ hrun).2 fun _ _ hin => ?_, ?_⟩
  · simp [actions, recordedAt] at hin
  · exact (hcut actions _ hrun _ _ _).mpr
      ⟨by decide, by decide, .inr ⟨⟨0x7fffffffffffffff, false⟩, by decide, by decide⟩⟩

/-- **A producer can cut the program short**: after the last time there is, any capture does, and any at all if the
depth is the largest there is.  Without checks the source stamps with the first time of all, and that is handed on. -/
theorem lastTime_overflows :
    (oneSource 60).run? (recordedAt [0x7fffffffffffffff]) ≠ none ∧
    (oneSource 60).run? (recordedAt [0x7fffffffffffffff, 0x7fffffffffffffff]) = none ∧
    Aligner.alignAll? {} [(0x7fffffffffffffff, 7), (1, 7)] = none ∧
    (oneSource 0xffffffffffffffff).run? (recordedAt [1]) = none ∧
    (Moment.handedIn ⟨1⟩ ((oneSource 60).moments (recordedAt [0x7fffffffffffffff, 0x7fffffffffffffff]))).map
      Stamped.time = [2 ^ 63 - 1, -2 ^ 63] := by
  have hcut : ∀ depth times, ((oneSource depth).moments (recordedAt times)).all Moment.fits = false →
      (oneSource depth).run? (recordedAt times) = none := by
    intro depth times hfits
    rw [Session.run?_eq, hfits]
    exact if_neg Bool.false_ne_true
  refine ⟨?_, hcut _ _ (by decide), by decide, hcut _ _ (by decide), by decide⟩
  rw [Session.run?_eq]
  exact ne_of_eq_of_ne (if_pos (by decide)) (Option.some_ne_none _)

end EncodedFeed
