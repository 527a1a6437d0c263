import EncodedFeed.Pacing
import EncodedFeed.Proofs.Session.Stamps

/-!
# Runs with room

If the sources of a run are there from the beginning and one past each of their depths is a word, the run is cut short
only by stamps, and for that a source has to come near the end of all times.  A producer who counts capture times from
zero never does (`run?_of_early`, `run?_of_counted`).
-/

namespace EncodedFeed

/-- There is room after times that are early enough for all of them. -/
theorem Aligner.hasRoom_of_le {ws : List Int} (bound : Int) (hle : ∀ w ∈ ws, w ≤ bound)
    (hroom : bound + ws.length ≤ 2 ^ 63) : HasRoom ws := by
  induction ws with
  | nil => trivial
  | cons w rest ih =>
    obtain ⟨hw, hrest⟩ := List.forall_mem_cons.mp hle
    rw [List.length_cons, Nat.cast_succ] at hroom
    exact ⟨by omega, ih hrest (by omega)⟩

theorem EncodedFrame.captureUs_of_make {tags : FrameTags} {payload : Octets} {f : EncodedFrame}
    (h : make tags payload = .ok f) : f.captureUs = tags.captureUs := by
  unfold make at h
  split at h
  · cases h
  · cases h
    rfl

/-- The source whose depth or last stamp a beat makes the program reckon with. -/
def Beat.reckons? : Beat → Option RoutingId
  | enter id _ => some id
  | stamp id _ _ => some id
  | _ => none

/-- The capture time and the reading of the clock for which an action may ask the source for a stamp. -/
def Action.asked? (id : RoutingId) : Action → Option (Int64 × Int64)
  | capture i tags _ now => if i = id then some (tags.captureUs, now) else none
  | push i f now => if i = id then some (f.captureUs, now) else none
  | emit i time now => if i = id then some (time, now) else none
  | _ => none

namespace Moment

theorem sublist_emission (s : Session) (id i : RoutingId) (capture now : Int64) :
    (stampCallsIn id (s.play (s.emission i capture now))).Sublist
      (if i = id then some (capture, now) else none).toList := by
  unfold Session.emission
  split
  · exact List.nil_sublist _
  · rw [Session.play, stampCallsIn_cons, stampCallsIn_handings, List.append_nil]
    exact List.Sublist.refl _

theorem sublist_entry (s : Session) (id i : RoutingId) (f : EncodedFrame) (now : Int64) :
    (stampCallsIn id (s.play (s.entry i f now))).Sublist
      (if i = id then some (f.captureUs, now) else none).toList := by
  unfold Session.entry
  split
  · exact List.nil_sublist _
  · next src hsrc =>
    split
    · exact List.nil_sublist _
    · rw [Session.play, stampCallsIn_cons, ← s.emission_enter hsrc f]
      exact sublist_emission _ id i f.captureUs now

/-- An action asks a source for a stamp once at most. -/
theorem sublist_beats (s : Session) (id : RoutingId) (a : Action) :
    (stampCallsIn id (s.play (s.beats a))).Sublist (a.asked? id).toList := by
  cases a with
  | capture i tags payload now =>
    unfold Session.beats
    dsimp only
    split
    · exact List.nil_sublist _
    · next f hf =>
      have hentry := sublist_entry s id i f now
      rwa [EncodedFrame.captureUs_of_make hf] at hentry
  | push i f now => exact sublist_entry s id i f now
  | emit i capture now => exact sublist_emission s id i capture now
  | pushRaw i picture t =>
    unfold Session.beats
    dsimp only
    split
    · exact List.nil_sublist _
    · rw [stampCallsIn_handings]
      exact List.nil_sublist _
  | _ => exact List.nil_sublist _

/-- The calls for stamps of a source are among those that the actions may make. -/
theorem stampCallsIn_sublist (id : RoutingId) (actions : List Action) (s : Session) :
    (stampCallsIn id (s.moments actions)).Sublist (actions.filterMap (Action.asked? id)) := by
  induction actions generalizing s with
  | nil => exact List.Sublist.refl _
  | cons a rest ih =>
    have hsplit : stampCallsIn id (s.moments (a :: rest))
        = stampCallsIn id (s.play (s.beats a)) ++ stampCallsIn id ((s.perform a).2.moments rest) :=
      List.filterMap_append
    have hactions : (a :: rest).filterMap (Action.asked? id)
        = (a.asked? id).toList ++ rest.filterMap (Action.asked? id) := by
      simp only [List.filterMap_eq_flatMap_toList, List.flatMap_cons]
    rw [hsplit, hactions]
    exact (sublist_beats s id a).append (ih _)

end Moment

/-! ### Moments that fit -/

section

variable {s : Session} {id : RoutingId} {depth : UInt64} {a : Aligner} {actions : List Action}

/-- The numbers of a source fit in all moments of a run if one past its depth is a word and its stamps fit. -/
theorem fits_of_fits_stampCalls (hs : s.dial? id = some (depth, a)) (hdepth : depth.toNat + 1 < 2 ^ 64)
    (hstamps : a.Fits (Moment.stampCallsIn id (s.moments actions))) :
    ∀ m ∈ s.moments actions, m.beat.reckons? = some id → m.fits = true := by
  refine moments_induction (C := fun a ms _ => a.Fits (Moment.stampCallsIn id ms) →
    ∀ m ∈ ms, m.beat.reckons? = some id → m.fits = true) hs
    (fun _ _ _ _ _ hm => (nomatch hm)) (fun s t b ms a hs ih hstamps m hm hreckons => ?_) actions hstamps
  rw [Moment.stampCallsIn_cons, Aligner.fits_toList_append] at hstamps
  obtain ⟨hstamp, hrest⟩ := hstamps
  rcases List.mem_cons.mp hm with rfl | hm
  · obtain ⟨src, hsrc, rfl, rfl⟩ := Session.exists_source_of_dial? hs
    cases b with
    | enter i f =>
      cases hreckons
      rw [Moment.fits_enter, hsrc]
      exact decide_eq_true hdepth
    | stamp i time now =>
      cases hreckons
      rw [Moment.fits_stamp, hsrc]
      exact decide_eq_true (Aligner.isSome_align?.mp (by rw [hstamp _ (if_pos rfl)]; rfl))
    | _ => cases hreckons
  · exact ih hrest m hm hreckons

/-- Only a source that an action asks for a stamp is reckoned with. -/
theorem isSome_asked?_of_reckons {b : Beat} {a : Action} (hb : b ∈ s.beats a) (h : b.reckons? = some id) :
    (a.asked? id).isSome := by
  have hemission : ∀ {i time now}, b ∈ s.emission i time now → i = id := by
    intro i time now hin
    rcases Session.mem_emission hin with rfl | ⟨_, _, rfl⟩
    · exact Option.some.inj h
    · cases h
  have hentry : ∀ {i f now}, b ∈ s.entry i f now → i = id := by
    intro i f now hin
    unfold Session.entry at hin
    split at hin
    · cases hin
    · split at hin
      · cases hin
      · rcases List.mem_cons.mp hin with rfl | hin
        · exact Option.some.inj h
        · exact hemission hin
  cases a with
  | capture i tags payload now =>
    unfold Session.beats at hb
    dsimp only at hb
    split at hb
    · cases List.mem_singleton.mp hb
      cases h
    · rw [Action.asked?, if_pos (hentry hb)]
      rfl
  | push i f now =>
    rw [Action.asked?, if_pos (hentry hb)]
    rfl
  | emit i time now =>
    rw [Action.asked?, if_pos (hemission hb)]
    rfl
  | pushRaw i picture t =>
    unfold Session.beats at hb
    dsimp only at hb
    split at hb
    · cases hb
    · unfold Session.handings at hb
      split at hb
      · cases hb
      · obtain ⟨_, _, rfl⟩ := List.mem_map.mp hb
        cases h
  | _ =>
    cases List.mem_singleton.mp hb
    cases h

/-- **A run that is early is not cut short**: no action in it asks for a stamp so late that there is no time left for
the stamps of all others. -/
theorem run?_of_early (bound : Int) (hnew : ∀ r c, Action.addSource r c ∉ actions)
    (hsources : ∀ a ∈ actions, ∀ id, (a.asked? id).isSome →
      ∃ depth, s.dial? id = some (depth, {}) ∧ depth.toNat + 1 < 2 ^ 64)
    (htimes : ∀ a ∈ actions, ∀ id c, a.asked? id = some c → (Aligner.candidate c.1 c.2).time ≤ bound)
    (hroom : bound + actions.length ≤ 2 ^ 63) : s.run? actions = some (s.run actions) := by
  refine Session.run?_eq_some_iff.mpr ⟨fun m hm => ?_, rfl⟩
  obtain ⟨a, ha, t, hb⟩ := Session.mem_moments hm
  have hreckons : ∀ id, m.beat.reckons? = some id → m.fits = true := by
    intro id hid
    obtain ⟨depth, hdial, hdepth⟩ := hsources a ha id (isSome_asked?_of_reckons hb hid)
    refine fits_of_fits_stampCalls hdial hdepth ?_ m hm hid
    have hsub := Moment.stampCallsIn_sublist id actions s
    have hlength := hsub.length_le.trans (List.length_filterMap_le _ actions)
    refine Aligner.fits_iff.mpr ⟨fun _ hlast => (nomatch hlast), Aligner.hasRoom_of_le bound ?_ ?_⟩
    · intro w hw
      obtain ⟨c, hc, rfl⟩ := List.mem_map.mp hw
      obtain ⟨a', ha', hasked⟩ := List.mem_filterMap.mp (hsub.mem hc)
      exact htimes a' ha' id c hasked
    · rw [Aligner.wanted, List.length_map]
      omega
  obtain ⟨before, b⟩ := m
  cases b with
  | enter i f => exact hreckons i rfl
  | stamp i time now => exact hreckons i rfl
  | act a' =>
    obtain ⟨rfl, -⟩ := Session.act_of_mem_beats hb
    cases a' with
    | addSource r c => exact absurd ha (hnew r c)
    | _ => rfl
  | _ => rfl

end

/-! ### Times that are counted -/

theorem frameInterval_le (fps : UInt32) : frameInterval fps ≤ 1000000 := by
  unfold frameInterval
  split
  · decide
  · exact Nat.div_le_self _ _

/-- Times counted from zero are candidates themselves, and go no further than the last of them. -/
theorem time_captureTime_le {fps : UInt32} {index n : Nat} (hpace : canPace fps = true) (hindex : index < n)
    (hlast : n * frameInterval fps < 2 ^ 63) (now : Int64) :
    (Aligner.candidate (captureTime fps index) now).time ≤ n * frameInterval fps := by
  have hinterval : 0 < frameInterval fps := by
    unfold canPace at hpace
    rcases (Bool.or_eq_true _ _).mp hpace with hzero | hne
    · rw [frameInterval, if_pos (beq_iff_eq.mp hzero)]
      decide
    · exact Nat.pos_of_ne_zero (bne_iff_ne.mp hne)
  have hle : (index + 1) * frameInterval fps ≤ n * frameInterval fps := Nat.mul_le_mul_right _ hindex
  have htime : (captureTime fps index).toInt = ((index + 1) * frameInterval fps : Nat) :=
    Int64.toInt_ofNat_of_lt (by omega)
  have hpos : captureTime fps index > 0 := by
    refine Int64.lt_iff_toInt_lt.mpr ?_
    rw [htime]
    exact Int.natCast_pos.mpr (Nat.mul_pos (Nat.succ_pos _) hinterval)
  rw [Aligner.candidate, if_pos hpos]
  show (captureTime fps index).toInt ≤ _
  rw [htime]
  exact_mod_cast hle

/-- An action asks for a keyframe, or captures at one of the first `n` times that are counted, into a source that has
stamped nothing and can warn. -/
def Action.Counted (s : Session) (fps : UInt32) (n : Nat) : Action → Prop
  | capture id tags _ _ => (∃ k < n, tags.captureUs = captureTime fps k) ∧
      ∃ depth, s.dial? id = some (depth, {}) ∧ depth.toNat + 1 < 2 ^ 64
  | wantKeyframe _ => True
  | _ => False

/-- **A run that counts its times is not cut short.** -/
theorem run?_of_counted {s : Session} {actions : List Action} {fps : UInt32} {n : Nat} (hpace : canPace fps = true)
    (hactions : ∀ a ∈ actions, a.Counted s fps n) (hroom : n * frameInterval fps + actions.length < 2 ^ 63) :
    s.run? actions = some (s.run actions) := by
  refine run?_of_early (n * frameInterval fps : Nat) (fun r c hin => hactions _ hin) (fun a ha id hasked => ?_)
    (fun a ha id c hc => ?_) (by omega)
  · have hcounted := hactions a ha
    cases a with
    | capture i tags payload now =>
      obtain ⟨c, hc⟩ := Option.isSome_iff_exists.mp hasked
      obtain ⟨rfl, -⟩ := Option.ite_none_right_eq_some.mp hc
      exact hcounted.2
    | wantKeyframe p => cases hasked
    | _ => exact hcounted.elim
  · have hcounted := hactions a ha
    cases a with
    | capture i tags payload now =>
      obtain ⟨-, hc⟩ := Option.ite_none_right_eq_some.mp hc
      cases hc
      obtain ⟨⟨k, hk, htime⟩, -⟩ := hcounted
      rw [htime]
      exact_mod_cast time_captureTime_le hpace hk (by omega) now
    | wantKeyframe p => cases hc
    | _ => exact hcounted.elim

end EncodedFeed
