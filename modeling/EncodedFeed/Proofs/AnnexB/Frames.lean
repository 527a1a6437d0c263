import EncodedFeed.Proofs.AnnexB.Order

/-!
# The frames of a stream

An assembler waits for the first keyframe to which both parameter sets are known.  Up to there it only counts
the access units that have slices; from there on each of them becomes a frame.  Since parameter sets are never
forgotten, each later keyframe can be completed as well: `push_begun` is the step that shows this, and the two
parts of a stream are then followed one after the other.
-/

namespace EncodedFeed.Assembler

open AccessUnit

/-- Both kinds of parameter sets. -/
def setTypes : List UInt8 := [NalUnit.spsType, NalUnit.ppsType]

/-- A keyframe that can be decoded after the access units of the past: each kind of parameter set is in it or
was in one of them. -/
def Decodable (past : List AccessUnit) (unit : AccessUnit) : Prop :=
  unit.Holds NalUnit.idrType ∧ ∀ type ∈ setTypes, Holds (past.flatten ++ unit) type

instance (past : List AccessUnit) (unit : AccessUnit) : Decidable (Decodable past unit) :=
  inferInstanceAs (Decidable ((∃ u ∈ unit, u.type = NalUnit.idrType) ∧
    ∀ type ∈ setTypes, ∃ u ∈ past.flatten ++ unit, u.type = type))

/-- A stream is cut in front of its first keyframe that can be decoded, or at its end if there is none. -/
structure FirstKeyframe (early late : List AccessUnit) : Prop where
  waiting : ∀ past unit rest, early = past ++ unit :: rest → ¬ Decodable past unit
  first : ∀ unit ∈ late.head?, Decodable early unit

/-- A frame is the access unit as it is; a keyframe has in front what it lacks of the parameter sets, each as
it was last seen. -/
structure FrameOf (past : List AccessUnit) (unit : AccessUnit) (f : AssembledFrame) : Prop where
  data : f.data = NalUnit.join (front past unit ++ unit)
  key : f.isKey = true ↔ unit.Holds NalUnit.idrType
  sets : f.hasParameterSets = true ↔ ∀ type ∈ setTypes, Holds (front past unit ++ unit) type
  complete : f.isKey = true → f.hasParameterSets = true

/-- The access units that have slices, each with all that came before it. -/
def sliced (past : List AccessUnit) : List AccessUnit → List (List AccessUnit × AccessUnit)
  | [] => []
  | unit :: rest => (if hasSlice unit then [(past, unit)] else []) ++ sliced (past ++ [unit]) rest

/-! ### Types held -/

theorem holds_append {a b : AccessUnit} {type : UInt8} : Holds (a ++ b) type ↔ a.Holds type ∨ b.Holds type := by
  simp only [Holds, List.mem_append, or_and_right, exists_or]

theorem any_eq_true_iff_holds (unit : AccessUnit) (type : UInt8) :
    (unit.any fun u => u.type == type) = true ↔ unit.Holds type := by
  simp only [List.any_eq_true, beq_iff_eq, Holds]

theorem isKey_iff {unit : AccessUnit} : isKey unit = true ↔ unit.Holds NalUnit.idrType :=
  any_eq_true_iff_holds unit _

theorem hasSlice_of_decodable {past : List AccessUnit} {unit : AccessUnit} (h : Decodable past unit) :
    hasSlice unit = true := by
  obtain ⟨u, hu, htype⟩ := h.1
  refine List.any_eq_true.mpr ⟨u, hu, ?_⟩
  rw [NalUnit.isSlice, htype]
  decide

theorem isSome_latest {type : UInt8} {past : List AccessUnit} :
    (latest type past).isSome = true ↔ Holds past.flatten type := by
  simp only [latest, List.find?_isSome, List.mem_reverse, beq_iff_eq, Holds]

theorem holds_filling_self {type : UInt8} {past : List AccessUnit} {unit : AccessUnit} :
    Holds (filling type past unit) type ↔ ¬ unit.Holds type ∧ Holds past.flatten type := by
  rw [← any_eq_true_iff_holds unit, ← isSome_latest, filling]
  split
  · next hany => exact ⟨fun ⟨u, hu, _⟩ => absurd hu List.not_mem_nil, fun h => absurd hany h.1⟩
  · next hnone =>
    rw [and_iff_right hnone]
    cases hlatest : latest type past with
    | none => simp [Holds]
    | some u =>
      have htype : u.type = type := by simpa using List.find?_some hlatest
      simp [Holds, htype]

theorem not_holds_filling {type other : UInt8} (hne : type ≠ other) (past : List AccessUnit)
    (unit : AccessUnit) : ¬ Holds (filling type past unit) other := by
  rintro ⟨u, hu, htype⟩
  exact hne ((type_of_mem_filling hu).symm.trans htype)

/-- What a keyframe gets makes up for what it lacks, as far as it was seen before. -/
theorem holds_front_append {type : UInt8} (htype : type ∈ setTypes) (past : List AccessUnit)
    (unit : AccessUnit) : Holds (front past unit ++ unit) type ↔
      unit.Holds type ∨ isKey unit = true ∧ Holds past.flatten type := by
  rw [holds_append]
  unfold front
  split
  · next hkey =>
    have hfilled : Holds (filling NalUnit.spsType past unit ++ filling NalUnit.ppsType past unit) type ↔
        ¬ unit.Holds type ∧ Holds past.flatten type := by
      rw [holds_append]
      simp only [setTypes, List.mem_cons, List.not_mem_nil, or_false] at htype
      rcases htype with rfl | rfl
      · rw [holds_filling_self, or_iff_left (not_holds_filling (by decide) past unit)]
      · rw [holds_filling_self, or_iff_right (not_holds_filling (by decide) past unit)]
    rw [hfilled]
    by_cases hunit : unit.Holds type <;> simp [hunit, hkey]
  · next hkey => simp [Holds, hkey]

/-! ### What is complete -/

theorem isSome_orElse_latest {type : UInt8} {past : List AccessUnit} {unit : AccessUnit}
    {known : Option Octets} (h : known = (latest type past).map NalUnit.octets) :
    (lastOfType type unit <|> known).isSome = true ↔ unit.Holds type ∨ Holds past.flatten type := by
  rw [← any_eq_true_iff_holds, ← isSome_lastOfType, ← isSome_latest, h]
  cases lastOfType type unit <;> simp

theorem supplied_iff {type : UInt8} (htype : type ∈ setTypes) {past : List AccessUnit} {unit : AccessUnit}
    {known : Option Octets} (h : known = (latest type past).map NalUnit.octets) :
    supplied (isKey unit) type (lastOfType type unit <|> known) unit = true ↔
      Holds (front past unit ++ unit) type := by
  rw [supplied, Bool.or_eq_true, Bool.and_eq_true, any_eq_true_iff_holds, isSome_orElse_latest h,
    holds_front_append htype]
  tauto

/-- The assembler's own test. -/
theorem isComplete_iff (past : List AccessUnit) (unit : AccessUnit) :
    isComplete ((({} : Assembler).pushAll past).2.remember unit) unit = true ↔
      ∀ type ∈ setTypes, Holds (front past unit ++ unit) type := by
  obtain ⟨hsps, hpps⟩ := sets_pushAll past
  have hforall (p : UInt8 → Prop) : (∀ type ∈ setTypes, p type) ↔ p NalUnit.spsType ∧ p NalUnit.ppsType := by
    simp [setTypes]
  rw [isComplete, Bool.and_eq_true, hforall]
  exact and_congr (supplied_iff (by decide) hsps) (supplied_iff (by decide) hpps)

theorem decodable_iff (past : List AccessUnit) (unit : AccessUnit) :
    Decodable past unit ↔
      (isKey unit && isComplete ((({} : Assembler).pushAll past).2.remember unit) unit) = true := by
  rw [Decodable, ← isKey_iff, Bool.and_eq_true, isComplete_iff]
  refine and_congr_right fun hkey => forall₂_congr fun type htype => ?_
  rw [holds_append, holds_front_append htype]
  tauto

/-! ### One access unit -/

variable {past : List AccessUnit} {unit : AccessUnit}

/-- Before the first keyframe that can be decoded nothing comes of an access unit; it is counted if it has a
slice. -/
theorem push_waiting (hseen : (({} : Assembler).pushAll past).2.seenKey = false) (h : ¬ Decodable past unit) :
    ((({} : Assembler).pushAll past).2.push unit).1 = none ∧
      ((({} : Assembler).pushAll past).2.push unit).2.seenKey = false ∧
      ((({} : Assembler).pushAll past).2.push unit).2.dropped
        = (({} : Assembler).pushAll past).2.dropped + [unit].countP hasSlice := by
  cases hslice : hasSlice unit with
  | false =>
    rw [push_of_not_hasSlice _ hslice, List.countP_singleton, hslice]
    exact ⟨rfl, hseen, rfl⟩
  | true =>
    rw [decodable_iff, Bool.not_eq_true] at h
    rw [push_of_hasSlice _ hslice, hseen, h, List.countP_singleton, hslice]
    exact ⟨rfl, hseen, rfl⟩

/-- From the first keyframe on that can be decoded, an access unit with a slice becomes a frame, if a keyframe
can always be completed. -/
theorem push_begun (hbegun : (({} : Assembler).pushAll past).2.seenKey = true ∨ Decodable past unit)
    (hkey : unit.Holds NalUnit.idrType → Decodable past unit) :
    List.Forall₂ (fun m f => FrameOf m.1 m.2 f) (if hasSlice unit then [(past, unit)] else [])
        ((({} : Assembler).pushAll past).2.push unit).1.toList ∧
      ((({} : Assembler).pushAll past).2.push unit).2.seenKey = true ∧
      ((({} : Assembler).pushAll past).2.push unit).2.dropped = (({} : Assembler).pushAll past).2.dropped := by
  cases hslice : hasSlice unit with
  | false =>
    have hseen : (({} : Assembler).pushAll past).2.seenKey = true :=
      hbegun.resolve_right fun h => by rw [hasSlice_of_decodable h] at hslice; cases hslice
    rw [push_of_not_hasSlice _ hslice]
    exact ⟨.nil, hseen, rfl⟩
  | true =>
    have hpasses : ((({} : Assembler).pushAll past).2.seenKey ||
        (isKey unit && isComplete ((({} : Assembler).pushAll past).2.remember unit) unit)) = true := by
      rw [Bool.or_eq_true, ← decodable_iff]
      exact hbegun
    have hpush := push_of_hasSlice (({} : Assembler).pushAll past).2 hslice
    rw [if_pos hpasses] at hpush
    refine ⟨?_, by rw [hpush], by rw [hpush]; rfl⟩
    have hdata := data_of_push (congrArg Prod.fst hpush)
    rw [hpush]
    refine .cons ⟨hdata, isKey_iff, isComplete_iff past unit, fun h => ?_⟩ .nil
    exact (Bool.and_eq_true_iff.mp ((decodable_iff past unit).mp (hkey (isKey_iff.mp h)))).2

theorem data_eq_of_frameOf {moments : List (List AccessUnit × AccessUnit)} {frames : List AssembledFrame}
    (h : List.Forall₂ (fun m f => FrameOf m.1 m.2 f) moments frames) :
    frames.map AssembledFrame.data = moments.map fun m => NalUnit.join (front m.1 m.2 ++ m.2) := by
  induction h with
  | nil => rfl
  | cons hframe _ ih => rw [List.map_cons, List.map_cons, hframe.data, ih]

/-! ### Both parts of a stream -/

theorem FirstKeyframe.nil : FirstKeyframe [] [] where
  waiting past unit rest h := by cases past <;> cases h
  first unit h := by cases h

theorem FirstKeyframe.snoc {past late : List AccessUnit} {unit : AccessUnit} (h : FirstKeyframe past late)
    (hunit : ¬ Decodable past unit) : FirstKeyframe (past ++ [unit]) [] where
  waiting p u rest heq := by
    rcases List.eq_nil_or_concat rest with rfl | ⟨rest, v, rfl⟩
    · obtain ⟨rfl, hu⟩ := List.append_inj' heq rfl
      cases hu
      exact hunit
    · rw [List.concat_eq_append, ← List.cons_append, ← List.append_assoc] at heq
      exact h.waiting p u rest (List.append_inj' heq rfl).1
  first u hu := by cases hu

/-- What comes later is of no matter. -/
theorem FirstKeyframe.goes_on {early late : List AccessUnit} {unit : AccessUnit}
    (h : FirstKeyframe early late) (hunit : late = [] → Decodable early unit) :
    FirstKeyframe early (late ++ [unit]) where
  waiting := h.waiting
  first u hu := by
    cases late with
    | nil => cases hu; exact hunit rfl
    | cons v rest => exact h.first u hu

/-- Every stream has its first keyframe, or is waiting for it to its end. -/
theorem exists_firstKeyframe (units : List AccessUnit) :
    ∃ early late, units = early ++ late ∧ FirstKeyframe early late := by
  induction units using List.reverseRecOn with
  | nil => exact ⟨[], [], rfl, .nil⟩
  | append_singleton past unit ih =>
    obtain ⟨early, late, rfl, h⟩ := ih
    by_cases hunit : late = [] ∧ ¬ Decodable early unit
    · obtain ⟨rfl, hunit⟩ := hunit
      exact ⟨early ++ [unit], [], by simp, h.snoc hunit⟩
    · refine ⟨early, late ++ [unit], by rw [List.append_assoc], h.goes_on fun hnil => ?_⟩
      exact Decidable.not_not.mp fun hnot => hunit ⟨hnil, hnot⟩

theorem FirstKeyframe.of_snoc {past late : List AccessUnit} {unit : AccessUnit}
    (h : FirstKeyframe (past ++ [unit]) late) : FirstKeyframe past [] ∧ ¬ Decodable past unit := by
  refine ⟨⟨fun p u rest hpast => ?_, by simp⟩, h.waiting past unit [] rfl⟩
  exact h.waiting p u (rest ++ [unit]) (by rw [hpast, List.append_assoc, List.cons_append])

/-- **Up to the first keyframe** nothing is emitted, and what has slices is counted. -/
theorem pushAll_early {early late : List AccessUnit} (h : FirstKeyframe early late) :
    (({} : Assembler).pushAll early).1 = [] ∧ (({} : Assembler).pushAll early).2.seenKey = false ∧
      (({} : Assembler).pushAll early).2.dropped = early.countP hasSlice := by
  induction early using List.reverseRecOn generalizing late with
  | nil => exact ⟨rfl, rfl, rfl⟩
  | append_singleton past unit ih =>
    obtain ⟨hpast, hunit⟩ := h.of_snoc
    obtain ⟨hnone, hseen, hdropped⟩ := ih hpast
    obtain ⟨hnone', hseen', hdropped'⟩ := push_waiting hseen hunit
    rw [pushAll_append, hnone, List.countP_append, ← hdropped]
    refine ⟨?_, hseen', hdropped'⟩
    rw [pushAll_cons, hnone']
    rfl

/-- **From the first keyframe on** what has slices becomes frames, and nothing more is counted.  What carries
the induction is that both kinds of parameter sets have been seen when the next access unit is done. -/
theorem pushAll_late (late : List AccessUnit) {past : List AccessUnit}
    (h : ∀ unit ∈ late.head?,
      ((({} : Assembler).pushAll past).2.seenKey = true ∨ Decodable past unit) ∧
        ∀ type ∈ setTypes, Holds (past.flatten ++ unit) type) :
    List.Forall₂ (fun m f => FrameOf m.1 m.2 f) (sliced past late)
        ((({} : Assembler).pushAll past).2.pushAll late).1 ∧
      ((({} : Assembler).pushAll past).2.pushAll late).2.dropped = (({} : Assembler).pushAll past).2.dropped := by
  induction late generalizing past with
  | nil => exact ⟨.nil, rfl⟩
  | cons unit rest ih =>
    obtain ⟨hbegun, hsets⟩ := h unit rfl
    obtain ⟨hframe, hseen, hdropped⟩ := push_begun hbegun fun hkey => ⟨hkey, hsets⟩
    have hnext : (({} : Assembler).pushAll (past ++ [unit])).2
        = ((({} : Assembler).pushAll past).2.push unit).2 := by
      rw [pushAll_append]
      rfl
    rw [← hnext] at hseen hdropped
    have hsets' : ∀ v ∈ rest.head?, ∀ type ∈ setTypes, Holds ((past ++ [unit]).flatten ++ v) type := by
      intro v _ type htype
      rw [List.flatten_append, List.flatten_singleton]
      exact holds_append.mpr (.inl (hsets type htype))
    obtain ⟨hframes, hrest⟩ := ih fun v hv => ⟨.inl hseen, hsets' v hv⟩
    rw [pushAll_cons, ← hnext]
    exact ⟨List.rel_append hframe hframes, hrest.trans hdropped⟩

/-- **Nothing before the first keyframe that can be decoded, everything with a slice from there on.**  Every
stream of access units is cut there.  Of those in front of the cut nothing comes, and they are dropped if they
have slices; of those behind it each that has slices becomes a frame, in order: its own octets and, in front of
a keyframe, those parameter sets it lacks, as they were last seen. -/
theorem frames_from_first_keyframe :
    (∀ units, ∃ early late, units = early ++ late ∧ FirstKeyframe early late) ∧
    ∀ early late, FirstKeyframe early late →
      (({} : Assembler).pushAll early).1 = [] ∧
      List.Forall₂ (fun m f => FrameOf m.1 m.2 f) (sliced early late)
        (({} : Assembler).pushAll (early ++ late)).1 ∧
      (({} : Assembler).pushAll (early ++ late)).2.dropped = early.countP hasSlice := by
  refine ⟨exists_firstKeyframe, fun early late h => ?_⟩
  obtain ⟨hnone, -, hdropped⟩ := pushAll_early h
  rw [pushAll_append, hnone, ← hdropped]
  refine ⟨rfl, pushAll_late late fun unit hunit => ?_⟩
  have hfirst := h.first unit hunit
  exact ⟨.inr hfirst, hfirst.2⟩

/-- A slice, a sequence parameter set alone, and a keyframe to which no picture parameter set is known. -/
def beforeSets : List AccessUnit :=
  [[⟨.short, [0x41, 0x9a]⟩], [⟨.long, [0x67, 0x42]⟩], [⟨.short, [0x65, 0x88]⟩]]

/-- A keyframe with the picture parameter set, another sequence parameter set alone, a slice, and a keyframe. -/
def fromSets : List AccessUnit :=
  [[⟨.long, [0x68, 0xce]⟩, ⟨.short, [0x65, 0x88]⟩], [⟨.long, [0x67, 0x4d]⟩], [⟨.short, [0x41, 0x9a]⟩],
    [⟨.short, [0x65, 0x88]⟩]]

theorem firstKeyframe_beforeSets : FirstKeyframe beforeSets fromSets := by
  have h₁ : FirstKeyframe [[⟨.short, [0x41, 0x9a]⟩]] [] := FirstKeyframe.nil.snoc (by decide)
  have h₂ : FirstKeyframe [[⟨.short, [0x41, 0x9a]⟩], [⟨.long, [0x67, 0x42]⟩]] [] := h₁.snoc (by decide)
  have h₃ : FirstKeyframe beforeSets [] := h₂.snoc (by decide)
  refine ⟨h₃.waiting, fun unit hunit => ?_⟩
  cases hunit
  decide +kernel

theorem frames_from_first_keyframe_beforeSets :
    FirstKeyframe beforeSets fromSets ∧
    (({} : Assembler).pushAll beforeSets).1 = [] ∧
    (({} : Assembler).pushAll (beforeSets ++ fromSets)).1.map AssembledFrame.data =
      [[0, 0, 0, 1, 0x67, 0x42, 0, 0, 0, 1, 0x68, 0xce, 0, 0, 1, 0x65, 0x88], [0, 0, 1, 0x41, 0x9a],
        [0, 0, 0, 1, 0x67, 0x4d, 0, 0, 0, 1, 0x68, 0xce, 0, 0, 1, 0x65, 0x88]] ∧
    (({} : Assembler).pushAll (beforeSets ++ fromSets)).2.dropped = 2 := by
  obtain ⟨hnone, hframes, hdropped⟩ := frames_from_first_keyframe.2 _ _ firstKeyframe_beforeSets
  exact ⟨firstKeyframe_beforeSets, hnone, data_eq_of_frameOf hframes, hdropped⟩

end EncodedFeed.Assembler
