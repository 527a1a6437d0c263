import EncodedFeed.AnnexB.Assembler
import EncodedFeed.Proofs.AnnexB.Grouping
import EncodedFeed.Proofs.AnnexB.Splitting
import EncodedFeed.Proofs.Recording.Written
import Mathlib

/-!
# Assembling again what was assembled

The frames of a stream, put one after the other, are a stream with the same frames.  The parameter sets put
in front of a keyframe open its access unit there, so the second assembler finds nothing missing and nothing
to drop: `pushAll_again` runs both assemblers side by side.
-/

namespace EncodedFeed.Assembler

open AccessUnit

/-! ### Parameter sets of an access unit -/

theorem lastOfType_append (type : UInt8) (a b : AccessUnit) :
    lastOfType type (a ++ b) = (lastOfType type b <|> lastOfType type a) := by
  unfold lastOfType
  rw [List.reverse_append, List.find?_append]
  cases b.reverse.find? fun u => u.type == type <;> rfl

theorem of_lastOfType {type : UInt8} {unit : AccessUnit} {o : Octets} (h : lastOfType type unit = some o) :
    ∃ u ∈ unit, u.type = type ∧ u.octets = o := by
  obtain ⟨u, hu, ho⟩ := Option.map_eq_some_iff.mp h
  exact ⟨u, List.mem_reverse.mp (List.mem_of_find?_eq_some hu), by simpa using List.find?_some hu, ho⟩

theorem isSome_lastOfType (type : UInt8) (unit : AccessUnit) :
    (lastOfType type unit).isSome = unit.any fun u => u.type == type := by
  rw [lastOfType, Option.isSome_map, Bool.eq_iff_iff, List.find?_isSome, List.any_eq_true]
  simp only [List.mem_reverse]

theorem lastOfType_eq_none {type : UInt8} {unit : AccessUnit} :
    lastOfType type unit = none ↔ (unit.any fun u => u.type == type) = false := by
  rw [← isSome_lastOfType, Option.isSome_eq_false_iff, Option.isNone_iff_eq_none]

/-! ### What an assembler knows -/

/-- If a parameter set is known, it is a unit of its type with a property. -/
def Stock (P : NalUnit → Prop) (type : UInt8) (known : Option Octets) : Prop :=
  ∀ o, known = some o → ∃ u : NalUnit, P u ∧ u.type = type ∧ u.octets = o

/-- Both known parameter sets are units with a property. -/
structure Knows (P : NalUnit → Prop) (a : Assembler) : Prop where
  sps : Stock P NalUnit.spsType a.sps
  pps : Stock P NalUnit.ppsType a.pps

/-- Past the first keyframe both parameter sets are known. -/
def Ready (a : Assembler) : Prop := a.seenKey = true → a.sps.isSome = true ∧ a.pps.isSome = true

variable {P : NalUnit → Prop}

theorem Stock.orElse {type : UInt8} {known : Option Octets} {unit : AccessUnit} (h : Stock P type known)
    (hunit : ∀ u ∈ unit, P u) : Stock P type (lastOfType type unit <|> known) := by
  intro o ho
  cases hlast : lastOfType type unit with
  | none =>
    rw [hlast] at ho
    exact h o ho
  | some o' =>
    rw [hlast] at ho
    obtain ⟨u, hu, htype, hoctets⟩ := of_lastOfType hlast
    exact ⟨u, hunit u hu, htype, hoctets.trans (Option.some.inj ho)⟩

theorem Knows.remember {a : Assembler} {unit : AccessUnit} (h : a.Knows P) (hunit : ∀ u ∈ unit, P u) :
    (a.remember unit).Knows P :=
  ⟨h.sps.orElse hunit, h.pps.orElse hunit⟩

theorem Ready.remember {a : Assembler} (h : a.Ready) (unit : AccessUnit) : (a.remember unit).Ready := by
  intro hseen
  obtain ⟨hsps, hpps⟩ := h hseen
  constructor
  · show (lastOfType NalUnit.spsType unit <|> a.sps).isSome = true
    cases lastOfType NalUnit.spsType unit <;> simp [hsps]
  · show (lastOfType NalUnit.ppsType unit <|> a.pps).isSome = true
    cases lastOfType NalUnit.ppsType unit <;> simp [hpps]

/-- What is put in front of a keyframe for one type: a unit that, with those of the keyframe, leads to the
same knowledge. -/
theorem exists_missing {type : UInt8} {known : Option Octets} (h : Stock P type known) (unit : AccessUnit) :
    ∃ lead : List NalUnit, NalUnit.join lead = missing type known unit ∧
      (∀ u ∈ lead, P u ∧ u.type = type) ∧
      (lastOfType type unit <|> lastOfType type lead) = (lastOfType type unit <|> known) := by
  cases hany : unit.any fun u => u.type == type with
  | true =>
    have hsome : (lastOfType type unit).isSome = true := (isSome_lastOfType type unit).trans hany
    obtain ⟨o, ho⟩ := Option.isSome_iff_exists.mp hsome
    exact ⟨[], by rw [missing, if_pos hany]; rfl, by simp, by rw [ho]; rfl⟩
  | false =>
    have hnone := lastOfType_eq_none.mpr hany
    rw [hnone]
    cases hknown : known with
    | none => exact ⟨[], by rw [missing, hany, if_neg (by decide)]; rfl, by simp, rfl⟩
    | some o =>
      obtain ⟨u, hP, htype, hoctets⟩ := h o hknown
      refine ⟨[u], ?_, ?_, ?_⟩
      · rw [missing, hany, if_neg (by decide), NalUnit.join, List.flatMap_singleton, hoctets]
        rfl
      · intro v hv
        rw [List.mem_singleton.mp hv]
        exact ⟨hP, htype⟩
      · show lastOfType type [u] = some o
        simp [lastOfType, htype, hoctets]

/-! ### One access unit -/

/-- The access unit has a slice of an IDR picture. -/
def isKey (unit : AccessUnit) : Bool := unit.any fun u => u.type == NalUnit.idrType

/-- Both parameter sets are in the access unit or are put in front of it. -/
def isComplete (a : Assembler) (unit : AccessUnit) : Bool :=
  supplied (isKey unit) NalUnit.spsType a.sps unit && supplied (isKey unit) NalUnit.ppsType a.pps unit

/-- The octets put in front of an access unit. -/
def lead (a : Assembler) (unit : AccessUnit) : Octets :=
  if isKey unit then missing NalUnit.spsType a.sps unit ++ missing NalUnit.ppsType a.pps unit else []

theorem push_of_not_hasSlice (a : Assembler) {unit : AccessUnit} (h : hasSlice unit = false) :
    a.push unit = (none, a.remember unit) := by
  simp only [push, h, Bool.false_eq_true, if_false]

theorem push_of_hasSlice (a : Assembler) {unit : AccessUnit} (h : hasSlice unit = true) :
    a.push unit =
      if a.seenKey || (isKey unit && isComplete (a.remember unit) unit) then
        (some ⟨lead (a.remember unit) unit ++ NalUnit.join unit, isKey unit,
            isComplete (a.remember unit) unit⟩, { a.remember unit with seenKey := true })
      else (none, { a.remember unit with dropped := a.dropped + 1 }) := by
  simp only [push, h, if_true]
  rfl

/-- `b` has seen a keyframe if `a` has, and then it knows the same parameter sets. -/
structure Follows (a b : Assembler) : Prop where
  seenKey : b.seenKey = a.seenKey
  sets : a.seenKey = true → b.sps = a.sps ∧ b.pps = a.pps

/-- A unit is one of those that are put in front of keyframes. -/
def IsSet (u : NalUnit) : Prop := u.type = NalUnit.spsType ∨ u.type = NalUnit.ppsType

theorem hasSlice_of_isSet {units : List NalUnit} (h : ∀ u ∈ units, IsSet u) : hasSlice units = false := by
  rw [hasSlice, List.any_eq_false]
  intro u hu
  rcases h u hu with htype | htype <;> simp [NalUnit.isSlice, htype] <;> decide

theorem isKey_append_of_isSet {units : List NalUnit} (h : ∀ u ∈ units, IsSet u) (unit : AccessUnit) :
    isKey (units ++ unit) = isKey unit := by
  have hnone : isKey units = false := by
    rw [isKey, List.any_eq_false]
    intro u hu
    rcases h u hu with htype | htype <;> rw [htype] <;> decide
  rw [isKey, List.any_append]
  exact (congrArg (· || isKey unit) hnone).trans (Bool.false_or _)

theorem opens_of_isSet {units : List NalUnit} (h : ∀ u ∈ units, IsSet u) {unit : AccessUnit}
    (hunit : Opens unit) : Opens (units ++ unit) := by
  cases units with
  | nil => exact hunit
  | cons u rest =>
    refine ⟨u, rest ++ unit, rfl, ?_⟩
    rcases h u List.mem_cons_self with htype | htype <;> simp [opensNext, htype]

/-- What is put in front of an access unit, as units; with them it leads to the same knowledge. -/
theorem exists_lead {a : Assembler} (h : a.Knows P) (unit : AccessUnit) :
    ∃ units : List NalUnit, NalUnit.join units = lead a unit ∧ (∀ u ∈ units, P u ∧ IsSet u) ∧
      (isKey unit = true →
        lastOfType NalUnit.spsType (units ++ unit) = (lastOfType NalUnit.spsType unit <|> a.sps) ∧
        lastOfType NalUnit.ppsType (units ++ unit) = (lastOfType NalUnit.ppsType unit <|> a.pps)) := by
  cases hkey : isKey unit with
  | false => exact ⟨[], by rw [lead, hkey]; rfl, by simp, fun h => by cases h⟩
  | true =>
    obtain ⟨sps, hsps, hspsType, hspsLast⟩ := exists_missing h.sps unit
    obtain ⟨pps, hpps, hppsType, hppsLast⟩ := exists_missing h.pps unit
    have hother : lastOfType NalUnit.spsType pps = none := by
      rw [lastOfType_eq_none, List.any_eq_false]
      intro u hu
      rw [(hppsType u hu).2]
      decide
    have hother' : lastOfType NalUnit.ppsType sps = none := by
      rw [lastOfType_eq_none, List.any_eq_false]
      intro u hu
      rw [(hspsType u hu).2]
      decide
    refine ⟨sps ++ pps, ?_, ?_, fun _ => ⟨?_, ?_⟩⟩
    · rw [NalUnit.join_append, hsps, hpps, lead, hkey, if_pos rfl]
    · intro u hu
      rcases List.mem_append.mp hu with hu | hu
      · exact ⟨(hspsType u hu).1, .inl (hspsType u hu).2⟩
      · exact ⟨(hppsType u hu).1, .inr (hppsType u hu).2⟩
    · rw [lastOfType_append, lastOfType_append, hother]
      exact hspsLast
    · rw [lastOfType_append, lastOfType_append, hother']
      simpa using hppsLast

/-- What a complete keyframe says about the parameter sets known. -/
theorem isSome_of_supplied {type : UInt8} {known : Option Octets} {unit : AccessUnit}
    (h : supplied (isKey unit) type (lastOfType type unit <|> known) unit = true) :
    (lastOfType type unit <|> known).isSome = true := by
  rcases Bool.or_eq_true_iff.mp h with hany | hknown
  · have hsome := (isSome_lastOfType type unit).trans hany
    obtain ⟨o, ho⟩ := Option.isSome_iff_exists.mp hsome
    rw [ho]
    rfl
  · exact (Bool.and_eq_true_iff.mp hknown).2

/-- The second assembler makes the same frame of a keyframe, whatever it knew before. -/
theorem push_keyframe_again {a b : Assembler} {unit units : AccessUnit} (hslice : hasSlice unit = true)
    (hkey : isKey unit = true) (hsps : (a.remember unit).sps.isSome = true)
    (hpps : (a.remember unit).pps.isSome = true) (hsets : ∀ u ∈ units, IsSet u)
    (hlast : lastOfType NalUnit.spsType (units ++ unit) = (a.remember unit).sps)
    (hlast' : lastOfType NalUnit.ppsType (units ++ unit) = (a.remember unit).pps) :
    b.push (units ++ unit) =
      (some ⟨NalUnit.join (units ++ unit), true, true⟩,
        { b with sps := (a.remember unit).sps, pps := (a.remember unit).pps, seenKey := true }) := by
  have hany : (units ++ unit).any (fun u => u.type == NalUnit.spsType) = true := by
    rw [← isSome_lastOfType, hlast, hsps]
  have hany' : (units ++ unit).any (fun u => u.type == NalUnit.ppsType) = true := by
    rw [← isSome_lastOfType, hlast', hpps]
  have hkey' : isKey (units ++ unit) = true := (isKey_append_of_isSet hsets unit).trans hkey
  have hcomplete : isComplete (b.remember (units ++ unit)) (units ++ unit) = true := by
    rw [isComplete, supplied, supplied, hany, hany']
    rfl
  have hlead : lead (b.remember (units ++ unit)) (units ++ unit) = [] := by
    rw [lead, hkey', if_pos rfl, missing, missing, hany, hany']
    rfl
  have hremember : b.remember (units ++ unit)
      = { b with sps := (a.remember unit).sps, pps := (a.remember unit).pps } := by
    obtain ⟨o, ho⟩ := Option.isSome_iff_exists.mp hsps
    obtain ⟨o', ho'⟩ := Option.isSome_iff_exists.mp hpps
    rw [remember, hlast, hlast', ho, ho']
    rfl
  rw [push_of_hasSlice _ (by rw [hasSlice_append, hslice, Bool.or_true]), hkey', hcomplete, hlead,
    Bool.and_self, Bool.or_true, if_pos rfl, hremember, List.nil_append]

/-- The second assembler makes the same frame of any other access unit that it gets. -/
theorem push_delta_again {a b : Assembler} {unit : AccessUnit} (hslice : hasSlice unit = true)
    (hkey : isKey unit = false) (hseen : a.seenKey = true) (hfollow : Follows a b) :
    (b.push unit).1 = (a.push unit).1 ∧ Follows (a.push unit).2 (b.push unit).2 ∧
      (b.push unit).2.dropped = b.dropped := by
  obtain ⟨hsps, hpps⟩ := hfollow.sets hseen
  have hseen' : b.seenKey = true := hfollow.seenKey.trans hseen
  have hcomplete : isComplete (b.remember unit) unit = isComplete (a.remember unit) unit := by
    simp only [isComplete, supplied, hkey, Bool.false_and]
  have hlead (c : Assembler) : lead c unit = [] := by rw [lead, hkey]; rfl
  rw [push_of_hasSlice a hslice, push_of_hasSlice b hslice, hseen, hseen', Bool.true_or, Bool.true_or,
    if_pos rfl, if_pos rfl, hlead, hlead, hcomplete]
  refine ⟨rfl, ⟨rfl, fun _ => ⟨?_, ?_⟩⟩, rfl⟩
  · simp only [remember, hsps]
  · simp only [remember, hpps]

/-- Past a keyframe both parameter sets are known, and so they are if a keyframe is complete. -/
theorem isSome_remember {a : Assembler} {unit : AccessUnit} (hready : a.Ready)
    (h : a.seenKey = true ∨ isComplete (a.remember unit) unit = true) :
    (a.remember unit).sps.isSome = true ∧ (a.remember unit).pps.isSome = true := by
  rcases h with hseen | hcomplete
  · exact hready.remember unit hseen
  · obtain ⟨hsps, hpps⟩ := Bool.and_eq_true_iff.mp hcomplete
    exact ⟨isSome_of_supplied hsps, isSome_of_supplied hpps⟩

/-- **One step of both assemblers**: what the first makes of an access unit, the second makes of the octets
of that frame. -/
theorem push_again {a a' b : Assembler} {unit : AccessUnit} {f : AssembledFrame} (hknows : a.Knows P)
    (hready : a.Ready) (hunit : ∀ u ∈ unit, P u) (hfollow : Follows a b)
    (hpush : a.push unit = (some f, a')) :
    a'.Ready ∧ ∃ units : List NalUnit, (∀ u ∈ units, P u ∧ IsSet u) ∧
      NalUnit.join (units ++ unit) = f.data ∧ (b.push (units ++ unit)).1 = some f ∧
      Follows a' (b.push (units ++ unit)).2 ∧ (b.push (units ++ unit)).2.dropped = b.dropped := by
  cases hslice : hasSlice unit with
  | false =>
    rw [push_of_not_hasSlice a hslice] at hpush
    cases hpush
  | true =>
    rw [push_of_hasSlice a hslice] at hpush
    by_cases hcond : (a.seenKey || (isKey unit && isComplete (a.remember unit) unit)) = true
    · rw [if_pos hcond] at hpush
      cases hkey : isKey unit with
      | true =>
        rw [hkey, Bool.true_and, Bool.or_eq_true_iff] at hcond
        obtain ⟨hsps, hpps⟩ := isSome_remember hready hcond
        have hcomplete : isComplete (a.remember unit) unit = true := by
          rw [isComplete, supplied, supplied, hkey, hsps, hpps]
          simp
        obtain ⟨units, hjoin, hunits, hlast⟩ := exists_lead (hknows.remember hunit) unit
        obtain ⟨hlast, hlast'⟩ := hlast hkey
        -- what is remembered already counts the parameter sets of the access unit itself
        have hidem (x y : Option Octets) : (x <|> (x <|> y)) = (x <|> y) := by cases x <;> rfl
        have hagain := push_keyframe_again (b := b) hslice hkey hsps hpps (fun u hu => (hunits u hu).2)
          (hlast.trans (hidem _ _)) (hlast'.trans (hidem _ _))
        rw [hkey, hcomplete, ← hjoin, ← NalUnit.join_append] at hpush
        cases hpush
        refine ⟨fun _ => ⟨hsps, hpps⟩, units, hunits, rfl, ?_, ?_, ?_⟩ <;> rw [hagain]
        exact ⟨rfl, fun _ => ⟨rfl, rfl⟩⟩
      | false =>
        rw [hkey, Bool.false_and, Bool.or_false] at hcond
        obtain ⟨hsame, hfollow', hdropped⟩ := push_delta_again hslice hkey hcond hfollow
        rw [push_of_hasSlice a hslice, hcond, Bool.true_or, if_pos rfl, hpush] at hsame hfollow'
        have hready' := hready.remember unit hcond
        cases hpush
        refine ⟨fun _ => hready', [], by simp, ?_, hsame, hfollow', hdropped⟩
        show NalUnit.join unit = lead (a.remember unit) unit ++ NalUnit.join unit
        rw [lead, hkey]
        rfl
    · rw [if_neg hcond] at hpush
      cases hpush

/-! ### All access units -/

theorem pushAll_cons (a : Assembler) (unit : AccessUnit) (rest : List AccessUnit) :
    a.pushAll (unit :: rest) =
      ((a.push unit).1.toList ++ ((a.push unit).2.pushAll rest).1, ((a.push unit).2.pushAll rest).2) := rfl

/-- An access unit of which nothing comes. -/
theorem push_eq_none {a a' : Assembler} {unit : AccessUnit} (h : a.push unit = (none, a')) :
    hasSlice unit = false ∨ (a.seenKey = false ∧ a'.seenKey = false) := by
  cases hslice : hasSlice unit with
  | false => exact .inl rfl
  | true =>
    rw [push_of_hasSlice a hslice] at h
    split at h
    · cases h
    · next hcond =>
      cases h
      have hseen : a.seenKey = false := by
        cases hseen : a.seenKey with
        | false => rfl
        | true => exact absurd (by rw [hseen]; rfl) hcond
      exact .inr ⟨hseen, hseen⟩

theorem Knows.push {a : Assembler} {unit : AccessUnit} (h : a.Knows P) (hunit : ∀ u ∈ unit, P u) :
    (a.push unit).2.Knows P := by
  have hremember := h.remember hunit
  cases hslice : hasSlice unit with
  | false => rwa [push_of_not_hasSlice a hslice]
  | true =>
    rw [push_of_hasSlice a hslice]
    split <;> exact ⟨hremember.sps, hremember.pps⟩

/-- `groups'` are the access units of the frames that `a` makes of `groups`, as they stand in these frames,
and `b` makes the same frames of them. -/
structure Echo (P : NalUnit → Prop) (a b : Assembler) (groups groups' : List AccessUnit) : Prop where
  written : groups'.map NalUnit.join = (a.pushAll groups).1.map AssembledFrame.data
  units : ∀ g ∈ groups', ∀ u ∈ g, P u
  whole : ∀ g ∈ groups', hasSlice g = true ∧ Unbroken g
  opens : ∀ g ∈ groups'.tail, Opens g
  allOpen : (∀ g ∈ groups, Opens g) → ∀ g ∈ groups', Opens g
  frames : (b.pushAll groups').1 = (a.pushAll groups).1
  dropped : (b.pushAll groups').2.dropped = b.dropped

/-- **Both assemblers side by side.**  What carries the induction is that the second knows what the first
knows from the first frame on. -/
theorem pushAll_again {groups : List AccessUnit} {a b : Assembler} (hknows : a.Knows P) (hready : a.Ready)
    (hfollow : Follows a b) (hregular : Regular groups) (hunits : ∀ g ∈ groups, ∀ u ∈ g, P u) :
    ∃ groups', Echo P a b groups groups' := by
  induction groups generalizing a b with
  | nil => exact ⟨[], rfl, by simp, by simp, by simp, fun _ => by simp, rfl, rfl⟩
  | cons g rest ih =>
    have hg := hunits g List.mem_cons_self
    have hrest : ∀ g ∈ rest, ∀ u ∈ g, P u := fun g' hg' => hunits g' (List.mem_cons_of_mem _ hg')
    have hopens : ∀ g ∈ rest, Opens g := hregular.opens
    cases hpush : a.push g with
    | mk frame a' =>
      have hknows' : a'.Knows P := by
        have := hknows.push hg
        rwa [hpush] at this
      cases frame with
      | none =>
        -- either there is no slice, or the first keyframe is still to come
        rcases push_eq_none hpush with hslice | ⟨hseen, hseen'⟩
        · obtain rfl := hregular.eq_nil_of_not_hasSlice hslice
          refine ⟨[], ?_, by simp, by simp, by simp, fun _ => by simp, ?_, rfl⟩ <;>
            rw [pushAll_cons, hpush] <;> rfl
        · have hfollow' : Follows a' b :=
            ⟨(hfollow.seenKey.trans hseen).trans hseen'.symm, fun h => by rw [hseen'] at h; cases h⟩
          have hready' : a'.Ready := fun h => by rw [hseen'] at h; cases h
          obtain ⟨groups', h⟩ := ih hknows' hready' hfollow' hregular.of_cons hrest
          refine ⟨groups', ?_, h.units, h.whole, h.opens, fun _ => h.allOpen hopens, ?_, h.dropped⟩
          · rw [pushAll_cons, hpush]
            exact h.written
          · rw [pushAll_cons, hpush]
            exact h.frames
      | some f =>
        obtain ⟨hready', units, hlead, hjoin, hframe, hfollow', hdropped⟩ :=
          push_again hknows hready hg hfollow hpush
        obtain ⟨groups', h⟩ := ih hknows' hready' hfollow' hregular.of_cons hrest
        have hsets : ∀ u ∈ units, IsSet u := fun u hu => (hlead u hu).2
        have hslice : hasSlice g = true := by
          cases hslice : hasSlice g with
          | true => rfl
          | false => rw [push_of_not_hasSlice a hslice] at hpush; cases hpush
        refine ⟨(units ++ g) :: groups', ?_, ?_, ?_, h.allOpen hopens, fun hall => ?_, ?_, ?_⟩
        · rw [pushAll_cons, hpush, List.map_cons, hjoin, h.written]
          rfl
        · refine List.forall_mem_cons.mpr ⟨fun u hu => ?_, h.units⟩
          rcases List.mem_append.mp hu with hu | hu
          · exact (hlead u hu).1
          · exact hg u hu
        · refine List.forall_mem_cons.mpr ⟨⟨?_, ?_⟩, h.whole⟩
          · rw [hasSlice_append, hslice, Bool.or_true]
          · exact (hregular.unbroken g List.mem_cons_self).prepend (hasSlice_of_isSet hsets)
        · refine List.forall_mem_cons.mpr ⟨?_, h.allOpen hopens⟩
          exact opens_of_isSet hsets (hall g List.mem_cons_self)
        · rw [pushAll_cons, pushAll_cons, hpush, hframe, h.frames]
        · rw [pushAll_cons, h.dropped, hdropped]

/-! ### Whole streams -/

/-- A unit that stays what it is wherever it is put: its payload does not end in zero. -/
def Tidy (u : NalUnit) : Prop := u.Plain ∧ u.payload.getLast? ≠ some 0

theorem isChain_of_tidy {units : List NalUnit} (h : ∀ u ∈ units, Tidy u) : units.IsChain NalUnit.Apart := by
  induction units with
  | nil => exact List.IsChain.nil
  | cons u rest ih =>
    have hrest := ih fun v hv => h v (List.mem_cons_of_mem _ hv)
    cases rest with
    | nil => exact List.IsChain.singleton u
    | cons v rest => exact List.isChain_cons_cons.mpr ⟨fun _ => (h u List.mem_cons_self).2, hrest⟩

theorem join_flatten (groups : List AccessUnit) :
    NalUnit.join groups.flatten = (groups.map NalUnit.join).flatten := by
  induction groups with
  | nil => rfl
  | cons g rest ih => rw [List.flatten_cons, NalUnit.join_append, ih, List.map_cons, List.flatten_cons]

/-- The units of a stream without zero ends, grouped, are an echo of themselves. -/
theorem exists_echo {data : Octets} (h : ∀ u ∈ NalUnit.split data, u.payload.getLast? ≠ some 0) :
    ∃ groups', Echo Tidy {} {} (group (NalUnit.split data)) groups' := by
  have hknows : Knows Tidy {} := ⟨fun o ho => (by cases ho), fun o ho => (by cases ho)⟩
  refine pushAll_again hknows (fun h => by cases h) ⟨rfl, fun h => by cases h⟩ (regular_group _)
    fun g hg u hu => ?_
  have hu' : u ∈ NalUnit.split data := by
    rw [← flatten_group (NalUnit.split data)]
    exact List.mem_flatten_of_mem hg hu
  exact ⟨NalUnit.plain_split data u hu', h u hu'⟩

theorem Echo.regular {a b : Assembler} {groups groups' : List AccessUnit} (h : Echo P a b groups groups') :
    Regular groups' where
  nonempty g hg hnil := by
    have hslice := (h.whole g hg).1
    rw [hnil] at hslice
    cases hslice
  unbroken g hg := (h.whole g hg).2
  sliced g hg := (h.whole g (List.dropLast_subset _ hg)).1
  opens := h.opens

theorem assemble_again {data : Octets} (h : ∀ u ∈ NalUnit.split data, u.payload.getLast? ≠ some 0) :
    assemble ((assemble data).1.flatMap AssembledFrame.data) = ((assemble data).1, 0) := by
  obtain ⟨groups', echo⟩ := exists_echo h
  have hframes : (assemble data).1 = (pushAll {} (group (NalUnit.split data))).1 := rfl
  have hjoin : (assemble data).1.flatMap AssembledFrame.data = NalUnit.join groups'.flatten := by
    rw [join_flatten, echo.written, hframes, List.flatMap_def]
  have htidy : ∀ u ∈ groups'.flatten, Tidy u := by
    intro u hu
    obtain ⟨g, hg, hu⟩ := List.mem_flatten.mp hu
    exact echo.units g hg u hu
  have hsplit : NalUnit.split (NalUnit.join groups'.flatten) = groups'.flatten :=
    NalUnit.split_join (fun u hu => (htidy u hu).1) (isChain_of_tidy htidy)
  rw [hjoin, assemble, hsplit, group_flatten echo.regular]
  exact Prod.ext echo.frames echo.dropped

theorem data_ne_nil_of_push {a : Assembler} {unit : AccessUnit} {f : AssembledFrame}
    (hf : (a.push unit).1 = some f) : f.data ≠ [] := by
  cases hslice : hasSlice unit with
  | false =>
    simp only [push, hslice, Bool.false_eq_true, if_false] at hf
    cases hf
  | true =>
    rw [push_of_hasSlice a hslice] at hf
    split at hf
    · obtain rfl := Option.some.inj hf
      cases unit with
      | nil => cases hslice
      | cons u rest =>
        show _ ++ NalUnit.join (u :: rest) ≠ []
        rw [NalUnit.join_cons]
        cases u.startCode <;> simp [StartCode.octets]
    · cases hf

theorem data_ne_nil_of_mem_pushAll {units : List AccessUnit} {a : Assembler} {f : AssembledFrame}
    (hf : f ∈ (pushAll a units).1) : f.data ≠ [] := by
  induction units generalizing a with
  | nil => cases hf
  | cons unit rest ih =>
    rw [pushAll] at hf
    rcases List.mem_append.mp hf with hf | hf
    · exact data_ne_nil_of_push (Option.mem_toList.mp hf)
    · exact ih hf

/-- No frame is empty. -/
theorem data_ne_nil_of_mem_assemble {data : Octets} {f : AssembledFrame} (hf : f ∈ (assemble data).1) :
    f.data ≠ [] := data_ne_nil_of_mem_pushAll hf

/-- **Replaying a recording of a replay changes nothing.**  If no payload of a stream ends in zero, the
frames of the stream written back to back, as a recording writes them, are a stream with the same frames of
which nothing is dropped. -/
theorem assemble_recording {data : Octets} (h : ∀ u ∈ NalUnit.split data, u.payload.getLast? ≠ some 0) :
    assemble ((assemble data).1.flatMap AssembledFrame.data) = ((assemble data).1, 0) ∧
    ∀ {s s₁ : Session} {path : String} {width height : UInt32} {r : Ref .recording} (images : List Shot),
      s.addRecording path .h264 width height = (.ok r, s₁) →
      images.map Shot.payload = (assemble data).1.map AssembledFrame.data →
      ((s₁.recordEach r images).2.finishRecording r).files.read path
        = .ok ((assemble data).1.flatMap AssembledFrame.data) := by
  refine ⟨assemble_again h, fun {s s₁ path width height r} images hadd himages => ?_⟩
  have hall : nonempty images = images := by
    refine List.filter_eq_self.mpr fun i hi => decide_eq_true ?_
    have hmem : i.payload ∈ (assemble data).1.map AssembledFrame.data := by
      rw [← himages]
      exact List.mem_map_of_mem hi
    obtain ⟨f, hf, hdata⟩ := List.mem_map.mp hmem
    rw [← hdata]
    exact data_ne_nil_of_mem_assemble hf
  have hentry (i : Shot) : Recording.entry .annexB i.rtp i.payload = i.payload := by
    simp only [Recording.entry, Container.pieces, List.flatten_cons, List.flatten_nil, List.append_nil]
  have hrec := (Session.records_recordEach images (Session.records_addRecording hadd)).2
  have hread := Session.read_finishRecording hrec
  have hannexB : Container.ofCodec .h264 = .annexB := rfl
  simp only [hannexB, hall, hentry, Container.lead, Codec.fourcc, Container.closed,
    List.nil_append] at hread
  rw [hread, List.flatMap_def, List.flatMap_def, himages]

/-- A slice that cannot be decoded, then a keyframe without the parameter set that came before the slice. -/
def lateKeyframe : Octets :=
  [0, 0, 0, 1, 0x67, 0x42, 0, 0, 1, 0x41, 0x9a, 0, 0, 0, 1, 0x68, 0xce, 0, 0, 1, 0x65, 0x88]

/-- The keyframe with both parameter sets. -/
def completed : Octets := [0, 0, 0, 1, 0x67, 0x42, 0, 0, 0, 1, 0x68, 0xce, 0, 0, 1, 0x65, 0x88]

theorem assemble_lateKeyframe : assemble lateKeyframe = ([⟨completed, true, true⟩], 1) := by
  cbv

/-- A recording to H.264 that has just begun. -/
def begunAnnexB : Session := (({} : Session).addRecording "out" .h264 640 480).2

theorem addRecording_begunAnnexB :
    ({} : Session).addRecording "out" .h264 640 480 = (.ok ⟨1⟩, begunAnnexB) :=
  Prod.ext (by cbv) rfl

theorem assemble_recording_lateKeyframe :
    (∀ u ∈ NalUnit.split lateKeyframe, u.payload.getLast? ≠ some 0) ∧
    assemble completed = ([⟨completed, true, true⟩], 0) ∧
    ((begunAnnexB.recordEach ⟨1⟩ [⟨0, completed⟩]).2.finishRecording ⟨1⟩).files.read "out"
      = .ok completed := by
  have hsplit : NalUnit.split lateKeyframe
      = [⟨.long, [0x67, 0x42]⟩, ⟨.short, [0x41, 0x9a]⟩, ⟨.long, [0x68, 0xce]⟩, ⟨.short, [0x65, 0x88]⟩] := by
    cbv
  have h : ∀ u ∈ NalUnit.split lateKeyframe, u.payload.getLast? ≠ some 0 := by
    rw [hsplit]
    decide
  obtain ⟨hagain, hrecorded⟩ := assemble_recording h
  have hread := hrecorded [⟨0, completed⟩] addRecording_begunAnnexB (by rw [assemble_lateKeyframe]; rfl)
  rw [assemble_lateKeyframe, List.flatMap_singleton] at hagain hread
  exact ⟨h, hagain, hread⟩

end EncodedFeed.Assembler
