import EncodedFeed.Proofs.Picture
import EncodedFeed.Proofs.Session.Moments
import EncodedFeed.Proofs.Timestamp.Alignment
import EncodedFeed.Session.Groups

/-!
# Checked runs

Three numbers that are made on the way of a frame may not fit: the sizes of the planes of a placeholder, one past the
depth at which a source warns, and one past the last stamp.  `Moment.fits` says of each moment whether they do.  A run
whose numbers are checked is cut short at the first moment in which one does not, and is the run without checks if
there is no such moment (`run?_eq`).  So what is true of all runs is true of the checked ones.
-/

namespace EncodedFeed

instance (a : Aligner) : Decidable a.Open :=
  decidable_of_iff (a.last.all fun last => last.time + 1 < 2 ^ 63) (by
    cases hlast : a.last <;> simp [Aligner.Open, hlast])

theorem Source.isPastDepth?_eq (src : Source) :
    src.isPastDepth? = if src.warnDepth.toNat + 1 < 2 ^ 64 then some src.isPastDepth else none := by
  unfold isPastDepth? isPastDepth
  by_cases hnever : src.warnDepth = 0
  · rw [if_pos hnever, hnever]
    rfl
  · rw [if_neg hnever]
    split
    · next h => simp [unsigned?_of_lt h, hnever]
    · next h => rw [unsigned?_of_le (Nat.not_lt.mp h), Option.map_none]

theorem Aligner.align?_eq (a : Aligner) (capture now : Int64) :
    a.align? capture now = if a.Open then some (a.align capture now) else none := by
  split
  · next h => exact align?_of_open h capture now
  · next h => exact align?_of_not_open h capture now

/-- The numbers fit that are made in a moment. -/
def Moment.fits (m : Moment) : Bool :=
  match m.beat with
  | .act (.addSource _ c) => c.placeholder.HasPicture
  | .enter id _ => (m.before.source? id).all fun src => src.warnDepth.toNat + 1 < 2 ^ 64
  | .stamp id _ _ => (m.before.source? id).all fun src => src.pump.aligner.Open
  | _ => true

theorem Moment.fits_enter (s : Session) (id : RoutingId) (f : EncodedFrame) :
    fits ⟨s, .enter id f⟩ = (s.source? id).all fun src => src.warnDepth.toNat + 1 < 2 ^ 64 := rfl

theorem Moment.fits_stamp (s : Session) (id : RoutingId) (capture now : Int64) :
    fits ⟨s, .stamp id capture now⟩ = (s.source? id).all fun src => src.pump.aligner.Open := rfl

namespace Session

variable (s : Session)

/-! ### One action -/

theorem addSource?_eq (r : Ref .registry) (c : SourceConfig) :
    s.addSource? r c = if c.placeholder.HasPicture then some (s.addSource r c) else none := by
  rw [addSource?, Source.ofConfig?_eq]
  split <;> rfl

theorem addSources?_eq (r : Ref .registry) (configs : List SourceConfig) : s.addSources? r configs
    = if ∀ c ∈ configs, c.placeholder.HasPicture then some (s.addSources r configs) else none := by
  induction configs generalizing s with
  | nil => exact (if_pos fun _ hc => (nomatch hc)).symm
  | cons c rest ih =>
    have hcons : (∀ d ∈ c :: rest, d.placeholder.HasPicture)
        ↔ c.placeholder.HasPicture ∧ ∀ d ∈ rest, d.placeholder.HasPicture := List.forall_mem_cons
    rw [addSources?, addSource?_eq, if_congr hcons rfl rfl]
    by_cases hfirst : c.placeholder.HasPicture
    · rw [if_pos hfirst, Option.bind_some, ih, if_congr (and_iff_right hfirst) rfl rfl]
      split <;> rfl
    · rw [if_neg hfirst, Option.bind_none, if_neg fun hall => hfirst hall.1]

/-- A group is made if there is a picture of the size that the placeholders of all its layers have. -/
theorem addGroup?_eq (r : Ref .registry) (base : SourceConfig) (resolutions : List Resolution) :
    s.addGroup? r base resolutions
      = if resolutions = [] ∨ base.placeholder.HasPicture then some (s.addGroup r base resolutions) else none := by
  rw [addGroup?, addGroup]
  by_cases hnil : resolutions = []
  · rw [if_pos hnil, if_pos hnil, if_pos (.inl hnil)]
  · have hall : (∀ c ∈ resolutions.map fun res => { base with resolution := res }, c.placeholder.HasPicture)
        ↔ base.placeholder.HasPicture := by
      obtain ⟨res, hres⟩ := List.exists_mem_of_ne_nil resolutions hnil
      rw [List.forall_mem_map]
      exact ⟨fun hall => hall res hres, fun h _ _ => h⟩
    rw [if_neg hnil, if_neg hnil, addSources?_eq, if_congr hall rfl rfl, if_congr (or_iff_right hnil) rfl rfl]
    split <;> rfl

/-- Nothing is reckoned with while taps get a raw frame. -/
theorem fits_handings (src : Source) (id : RoutingId) (picture : Picture) (t : Stamped Int64) :
    (s.play (handings src id picture t)).all Moment.fits = true := by
  have hhand : ∀ (taps : List (TapId × Tap)) (s : Session), (s.play (taps.map fun tap =>
      .hand { picture, timestamp := t, source := some id } tap.2)).all Moment.fits = true := by
    intro taps
    induction taps with
    | nil => exact fun _ => rfl
    | cons tap rest ih => exact fun s => ih _
  unfold handings
  split
  · rfl
  · exact hhand _ s

theorem fits_emission (id : RoutingId) (capture now : Int64) :
    (s.play (s.emission id capture now)).all Moment.fits
      = (s.source? id).all fun src => src.pump.aligner.Open := by
  unfold emission
  cases hs : s.source? id with
  | none => rfl
  | some src =>
    dsimp only
    rw [play, List.all_cons, fits_handings, Bool.and_true, Moment.fits_stamp, hs]

theorem emit?_eq (id : RoutingId) (capture now : Int64) : s.emit? id capture now
    = if (s.play (s.emission id capture now)).all Moment.fits then some (s.emit id capture now) else none := by
  rw [fits_emission, emit?, emit]
  cases s.source? id with
  | none => rfl
  | some src =>
    dsimp only
    rw [Pump.stamp?, Aligner.align?_eq, Option.all_some, if_congr decide_eq_true_iff rfl rfl]
    split <;> rfl

theorem checkDepth?_eq (id : RoutingId) : s.checkDepth? id
    = if (s.source? id).all fun src => src.warnDepth.toNat + 1 < 2 ^ 64 then some (s.checkDepth id) else none := by
  rw [checkDepth?, checkDepth]
  cases s.source? id with
  | none => rfl
  | some src =>
    dsimp only
    rw [Source.isPastDepth?_eq, Option.all_some, if_congr decide_eq_true_iff rfl rfl]
    split <;> rfl

theorem push?_eq (id : RoutingId) (f : EncodedFrame) (now : Int64) : s.push? id f now
    = if (s.play (s.entry id f now)).all Moment.fits then some (s.push id f now) else none := by
  unfold push? push entry
  cases hs : s.source? id with
  | none => rfl
  | some src =>
    dsimp only
    split
    · rfl
    · have hin : ((s.modifySource id fun src => src.enqueue f).note (.pushed id f)).source? id
          = some (src.enqueue f) := by
        show (s.modifySource id fun src => src.enqueue f).source? id = _
        rw [source?_modifySource, if_pos rfl, hs, Option.map_some]
      have hdepth : (((s.modifySource id fun src => src.enqueue f).note (.pushed id f)).source? id).all
          (fun src => src.warnDepth.toNat + 1 < 2 ^ 64) = Moment.fits ⟨s, .enter id f⟩ := by
        rw [hin, Moment.fits_enter, hs]
        rfl
      rw [play, List.all_cons, checkDepth?_eq, hdepth, ← s.emission_enter hs f f.captureUs now]
      cases Moment.fits ⟨s, .enter id f⟩ with
      | true =>
        rw [if_pos rfl, Option.bind_some, emit?_eq, Bool.true_and]
        exact apply_ite (Option.map fun x : Stamped Int64 × Session => (true, x.2)) _ _ _
      | false => rfl

theorem capture?_eq (id : RoutingId) (tags : FrameTags) (payload : Octets) (now : Int64) :
    s.capture? id tags payload now
      = if (s.play (s.beats (.capture id tags payload now))).all Moment.fits
        then some (s.capture id tags payload now) else none := by
  cases hmake : EncodedFrame.make tags payload with
  | error e =>
    simp only [capture?, capture, beats, hmake]
    rfl
  | ok f =>
    simp only [capture?, capture, beats, hmake]
    exact s.push?_eq id f now

theorem push_of_push? {s : Session} {id : RoutingId} {f : EncodedFrame} {now : Int64} {x : Bool × Session}
    (h : s.push? id f now = some x) : s.push id f now = x := by
  rw [push?_eq] at h
  exact Option.some.inj (Option.ite_none_right_eq_some.mp h).2

theorem capture_of_capture? {s : Session} {id : RoutingId} {tags : FrameTags} {payload : Octets} {now : Int64}
    {x : Bool × Session} (h : s.capture? id tags payload now = some x) : s.capture id tags payload now = x := by
  rw [capture?_eq] at h
  exact Option.some.inj (Option.ite_none_right_eq_some.mp h).2

/-- Into a layer, too, a frame is pushed as without checks, or the push is cut short. -/
theorem pushLayer_of_pushLayer? {s : Session} {g : Group} {layer : Nat} {f : EncodedFrame} {now : Int64}
    {x : Bool × Session} (h : s.pushLayer? g layer f now = some x) : s.pushLayer g layer f now = x := by
  unfold pushLayer? at h
  unfold pushLayer
  cases hlayer : g.layers[layer]? with
  | none =>
    rw [hlayer] at h
    exact Option.some.inj h
  | some id =>
    rw [hlayer] at h
    exact push_of_push? h

theorem captureLayer_of_captureLayer? {s : Session} {g : Group} {layer : Nat} {tags : FrameTags} {payload : Octets}
    {now : Int64} {x : Bool × Session} (h : s.captureLayer? g layer tags payload now = some x) :
    s.captureLayer g layer tags payload now = x := by
  unfold captureLayer? at h
  unfold captureLayer
  cases hlayer : g.layers[layer]? with
  | none =>
    rw [hlayer] at h
    exact Option.some.inj h
  | some id =>
    rw [hlayer] at h
    exact capture_of_capture? h

/-- **An action is carried out as without checks, or is cut short.** -/
theorem perform?_eq (a : Action) :
    s.perform? a = if (s.play (s.beats a)).all Moment.fits then some (s.perform a) else none := by
  cases a with
  | addSource r c =>
    rw [perform?, addSource?_eq]
    by_cases h : c.placeholder.HasPicture
    · simp [beats, play, Moment.fits, perform, h]
    · simp [beats, play, Moment.fits, h]
  | capture id tags payload now =>
    rw [perform?, capture?_eq]
    exact apply_ite (Option.map fun x : Bool × Session => (Reply.accepted x.1, x.2)) _ _ _
  | push id f now =>
    rw [perform?, push?_eq]
    exact apply_ite (Option.map fun x : Bool × Session => (Reply.accepted x.1, x.2)) _ _ _
  | emit id capture now =>
    rw [perform?, emit?_eq]
    exact apply_ite (Option.map fun x : Stamped Int64 × Session => (Reply.stamp x.1, x.2)) _ _ _
  | pushRaw id picture t =>
    have hfits : (s.play (s.beats (.pushRaw id picture t))).all Moment.fits = true := by
      unfold beats
      dsimp only
      split
      · rfl
      · exact fits_handings s _ id picture t
    rw [hfits]
    rfl
  | _ => rfl

/-! ### Whole runs -/

/-- **A checked run is the run without checks, or is cut short.** -/
theorem run?_eq (actions : List Action) (s : Session) :
    s.run? actions = if (s.moments actions).all Moment.fits then some (s.run actions) else none := by
  induction actions generalizing s with
  | nil => rfl
  | cons a rest ih =>
    rw [run?, perform?_eq, moments, List.all_append]
    cases hfits : (s.play (s.beats a)).all Moment.fits with
    | true =>
      rw [if_pos rfl, Option.bind_some, ih, Bool.true_and]
      rfl
    | false => rfl

theorem run?_eq_some_iff {s t : Session} {actions : List Action} :
    s.run? actions = some t ↔ (∀ m ∈ s.moments actions, m.fits = true) ∧ s.run actions = t := by
  rw [run?_eq, Option.ite_none_right_eq_some, List.all_eq_true, Option.some.injEq]

end Session

end EncodedFeed
