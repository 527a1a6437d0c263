import EncodedFeed.Proofs.AnnexB.Layout
import EncodedFeed.Proofs.AnnexB.Reassembly

/-!
# The order of units in a frame

In an access unit a delimiter comes first, sequence parameter sets come before picture parameter sets, and
both before the slices.  An assembler puts what a keyframe lacks in front of all it has.  That keeps the order
unless the keyframe has something that must come earlier: a delimiter, or a sequence parameter set when
it is the picture parameter set that it lacks.
-/

namespace EncodedFeed

namespace NalUnit

/-- A unit of type `t` may come behind one of type `s` in an access unit. -/
def MayFollow (s t : UInt8) : Prop :=
  t ≠ delimiterType ∧ (s = ppsType → t ≠ spsType) ∧
    (s = sliceType ∨ s = idrType → t ≠ spsType ∧ t ≠ ppsType)

instance (s t : UInt8) : Decidable (MayFollow s t) :=
  inferInstanceAs (Decidable (t ≠ delimiterType ∧ (s = ppsType → t ≠ spsType) ∧
    (s = sliceType ∨ s = idrType → t ≠ spsType ∧ t ≠ ppsType)))

/-! ### Types of units written back to back -/

/-- No start code stands in the unit, and it does not begin with a zero. -/
def Headed (u : NalUnit) : Prop := u.Plain ∧ u.payload.head? ≠ some 0

instance (u : NalUnit) : Decidable u.Headed :=
  inferInstanceAs (Decidable ((u.payload ≠ [] ∧ StartCode.find? u.payload = none) ∧
    u.payload.head? ≠ some 0))

theorem type_of_head?_eq {u v : NalUnit} (h : u.payload.head? = v.payload.head?) : u.type = v.type := by
  unfold type
  cases hu : u.payload <;> cases hv : v.payload <;> simp_all

/-- A zero at the end of a payload may go over into the start code behind it; the types stay. -/
theorem types_splitBody_join {code : StartCode} {payload : Octets} {rest : List NalUnit}
    (h : Headed ⟨code, payload⟩) (hrest : ∀ v ∈ rest, v.Headed) :
    (splitBody code (payload ++ join rest)).map type
      = (⟨code, payload⟩ :: rest : List NalUnit).map type := by
  induction rest generalizing code payload with
  | nil =>
    rw [splitBody_join (u := ⟨code, payload⟩) (List.forall_mem_singleton.mpr h.1) (.singleton _)]
  | cons v rest ih =>
    have hv := hrest v List.mem_cons_self
    have hrest' : ∀ w ∈ rest, w.Headed := fun w hw => hrest w (List.mem_cons_of_mem _ hw)
    by_cases hzero : v.startCode = .short ∧ payload.getLast? = some 0
    · obtain ⟨hshort, hlast⟩ := hzero
      obtain ⟨front, rfl⟩ := List.getLast?_eq_some_iff.mp hlast
      have hne : front ≠ [] := fun hnil => h.2 (by rw [hnil]; rfl)
      have hnone : StartCode.find? front = none := by
        have hclear := StartCode.find?_eq_none_iff.mp h.1.2
        exact StartCode.find?_eq_none_iff.mpr fun hin =>
          hclear (hin.trans (List.prefix_append front [0]).isInfix)
      -- the zero and the short start code behind it are found as a long one
      have hlong : front ++ [0] ++ join (v :: rest)
          = front ++ (StartCode.long.octets ++ (v.payload ++ join rest)) := by
        rw [join_cons, hshort, List.append_assoc]
        rfl
      have hnext : StartCode.long = .short → front.getLast? ≠ some 0 := fun h => by cases h
      have hbehind : (splitBody .long (v.payload ++ join rest)).map type
          = (⟨.long, v.payload⟩ :: rest : List NalUnit).map type := ih hv hrest'
      rw [hlong, splitBody_append hnone hnext, ofPayload?, if_neg hne, List.map_append, hbehind,
        List.map_cons, List.map_cons, List.map_cons, List.map_nil, List.singleton_append]
      exact congrArg (· :: _) (type_of_head?_eq (List.head?_append_of_ne_nil front hne).symm)
    · rw [join_cons, splitBody_append h.1.2 (fun hshort hlast => hzero ⟨hshort, hlast⟩), ofPayload?,
        if_neg h.1.1, List.map_append, ih hv hrest']
      rfl

/-- Units written back to back are found again with their types and in their order. -/
theorem types_split_join {units : List NalUnit} (h : ∀ u ∈ units, u.Headed) :
    (split (join units)).map type = units.map type := by
  cases units with
  | nil => rfl
  | cons u rest =>
    rw [split, join_cons, StartCode.find?_octets]
    simp only [Nat.zero_add, List.drop_left' (StartCode.length_octets u.startCode)]
    exact types_splitBody_join (h u List.mem_cons_self) fun v hv => h v (List.mem_cons_of_mem _ hv)

end NalUnit

namespace AccessUnit

/-- A delimiter, if there is one, comes first, then sequence parameter sets, then picture parameter sets,
then slices; other units may stand anywhere behind the delimiter. -/
def InOrder (unit : AccessUnit) : Prop := unit.Pairwise fun u v => NalUnit.MayFollow u.type v.type

instance (unit : AccessUnit) : Decidable (InOrder unit) :=
  inferInstanceAs (Decidable (unit.Pairwise fun u v => NalUnit.MayFollow u.type v.type))

/-- The unit holds one of a type. -/
def Holds (unit : AccessUnit) (type : UInt8) : Prop := ∃ u ∈ unit, u.type = type

/-- What is put in front of an access unit stands before something that must come earlier. -/
def Displaces (front unit : AccessUnit) : Prop :=
  front ≠ [] ∧ unit.Holds NalUnit.delimiterType ∨
    front.Holds NalUnit.ppsType ∧ unit.Holds NalUnit.spsType

end AccessUnit

namespace Assembler

open AccessUnit

/-! ### What is put in front -/

/-- The last unit of a type in access units that came one after the other. -/
def latest (type : UInt8) (past : List AccessUnit) : Option NalUnit :=
  past.flatten.reverse.find? fun u => u.type == type

/-- The unit of a type that an access unit gets because it has none of its own. -/
def filling (type : UInt8) (past : List AccessUnit) (unit : AccessUnit) : List NalUnit :=
  if unit.any fun u => u.type == type then [] else (latest type past).toList

/-- What an assembler puts in front of an access unit after those of the past. -/
def front (past : List AccessUnit) (unit : AccessUnit) : List NalUnit :=
  if isKey unit then
    filling NalUnit.spsType past unit ++ filling NalUnit.ppsType past unit
  else []

theorem octets_latest_snoc (type : UInt8) (past : List AccessUnit) (unit : AccessUnit) :
    (latest type (past ++ [unit])).map NalUnit.octets
      = (lastOfType type unit <|> (latest type past).map NalUnit.octets) := by
  unfold latest lastOfType
  rw [List.flatten_append, List.flatten_singleton, List.reverse_append, List.find?_append]
  cases unit.reverse.find? fun u => u.type == type <;> rfl

theorem type_of_mem_filling {type : UInt8} {past : List AccessUnit} {unit : AccessUnit} {u : NalUnit}
    (h : u ∈ filling type past unit) : u.type = type := by
  unfold filling at h
  split at h
  · cases h
  · simpa using List.find?_some (Option.mem_toList.mp h)

theorem mem_of_mem_filling {type : UInt8} {past : List AccessUnit} {unit : AccessUnit} {u : NalUnit}
    (h : u ∈ filling type past unit) : ∃ g ∈ past, u ∈ g := by
  unfold filling at h
  split at h
  · cases h
  · have hmem := List.mem_of_find?_eq_some (Option.mem_toList.mp h)
    exact List.mem_flatten.mp (List.mem_reverse.mp hmem)

/-- What is put in front stood in an access unit of the past, and is a parameter set. -/
theorem of_mem_front {past : List AccessUnit} {unit : AccessUnit} {u : NalUnit} (h : u ∈ front past unit) :
    IsSet u ∧ ∃ g ∈ past, u ∈ g := by
  unfold front at h
  split at h
  · rcases List.mem_append.mp h with h | h
    · exact ⟨.inl (type_of_mem_filling h), mem_of_mem_filling h⟩
    · exact ⟨.inr (type_of_mem_filling h), mem_of_mem_filling h⟩
  · cases h

/-! ### What an assembler remembers -/

theorem pushAll_append (a : Assembler) (past rest : List AccessUnit) :
    a.pushAll (past ++ rest) =
      ((a.pushAll past).1 ++ ((a.pushAll past).2.pushAll rest).1, ((a.pushAll past).2.pushAll rest).2) := by
  induction past generalizing a with
  | nil => rfl
  | cons g past ih => simp only [List.cons_append, pushAll_cons, ih, List.append_assoc]

theorem sets_push (a : Assembler) (unit : AccessUnit) :
    (a.push unit).2.sps = (a.remember unit).sps ∧ (a.push unit).2.pps = (a.remember unit).pps := by
  cases hslice : hasSlice unit with
  | false =>
    rw [push_of_not_hasSlice a hslice]
    exact ⟨rfl, rfl⟩
  | true =>
    rw [push_of_hasSlice a hslice]
    split <;> exact ⟨rfl, rfl⟩

/-- An assembler remembers the last parameter sets of all it has seen. -/
theorem sets_pushAll (past : List AccessUnit) :
    ((({} : Assembler).pushAll past).2.sps = (latest NalUnit.spsType past).map NalUnit.octets) ∧
      (({} : Assembler).pushAll past).2.pps = (latest NalUnit.ppsType past).map NalUnit.octets := by
  induction past using List.reverseRecOn with
  | nil => exact ⟨rfl, rfl⟩
  | append_singleton past unit ih =>
    obtain ⟨hsps, hpps⟩ := sets_push (({} : Assembler).pushAll past).2 unit
    rw [pushAll_append, octets_latest_snoc, octets_latest_snoc, ← ih.1, ← ih.2]
    exact ⟨hsps, hpps⟩

theorem join_filling {type : UInt8} {past : List AccessUnit} {unit : AccessUnit} {known : Option Octets}
    (h : known = (latest type past).map NalUnit.octets) :
    NalUnit.join (filling type past unit) = missing type (lastOfType type unit <|> known) unit := by
  unfold filling missing
  split
  · rfl
  · next hnone =>
    rw [lastOfType_eq_none.mpr (Bool.eq_false_iff.mpr hnone), h]
    cases latest type past with
    | none => rfl
    | some u => exact List.flatMap_singleton _ u

theorem join_front (past : List AccessUnit) (unit : AccessUnit) :
    NalUnit.join (front past unit) = lead ((({} : Assembler).pushAll past).2.remember unit) unit := by
  obtain ⟨hsps, hpps⟩ := sets_pushAll past
  unfold front lead
  split
  · rw [NalUnit.join_append, join_filling hsps, join_filling hpps]
    rfl
  · rfl

/-- **A frame** is what is put in front of its access unit, and the access unit. -/
theorem data_of_push {past : List AccessUnit} {unit : AccessUnit} {f : AssembledFrame}
    (hf : (((({} : Assembler).pushAll past).2).push unit).1 = some f) :
    f.data = NalUnit.join (front past unit ++ unit) := by
  rw [NalUnit.join_append, join_front]
  cases hslice : hasSlice unit with
  | false =>
    rw [push_of_not_hasSlice _ hslice] at hf
    cases hf
  | true =>
    rw [push_of_hasSlice _ hslice] at hf
    split at hf
    · cases hf
      rfl
    · cases hf

/-- Each frame comes from an access unit. -/
theorem exists_push_of_mem_pushAll {groups : List AccessUnit} {a : Assembler} {f : AssembledFrame}
    (hf : f ∈ (a.pushAll groups).1) :
    ∃ past unit rest, groups = past ++ unit :: rest ∧ ((a.pushAll past).2.push unit).1 = some f := by
  induction groups generalizing a with
  | nil => cases hf
  | cons g groups ih =>
    rw [pushAll_cons] at hf
    rcases List.mem_append.mp hf with hf | hf
    · exact ⟨[], g, groups, rfl, Option.mem_toList.mp hf⟩
    · obtain ⟨past, unit, rest, hgroups, hpush⟩ := ih hf
      exact ⟨g :: past, unit, rest, by rw [hgroups, List.cons_append], hpush⟩

/-! ### Order -/

theorem inOrder_front (past : List AccessUnit) (unit : AccessUnit) : InOrder (front past unit) := by
  have hone (type : UInt8) : InOrder (filling type past unit) := by
    unfold filling
    split
    · exact .nil
    · cases latest type past <;> simp [InOrder]
  unfold front
  split
  · refine List.pairwise_append.mpr ⟨hone _, hone _, fun u hu v hv => ?_⟩
    rw [type_of_mem_filling hu, type_of_mem_filling hv]
    decide
  · exact .nil

theorem inOrder_append_iff {front unit : AccessUnit} (hsets : ∀ u ∈ front, IsSet u) (hfront : InOrder front)
    (hunit : InOrder unit) : InOrder (front ++ unit) ↔ ¬ Displaces front unit := by
  -- only pairs of a unit put in front and one of the access unit can be out of order
  rw [InOrder, List.pairwise_append]
  constructor
  · rintro ⟨-, -, hcross⟩ (⟨hne, v, hv, hdelimiter⟩ | ⟨⟨u, hu, hpps⟩, v, hv, hsps⟩)
    · obtain ⟨u, hu⟩ := List.exists_mem_of_ne_nil front hne
      exact (hcross u hu v hv).1 hdelimiter
    · exact (hcross u hu v hv).2.1 hpps hsps
  · intro hnot
    refine ⟨hfront, hunit, fun u hu v hv => ⟨fun hdelimiter => ?_, fun hpps hsps => ?_, fun hslice => ?_⟩⟩
    · exact hnot (.inl ⟨List.ne_nil_of_mem hu, v, hv, hdelimiter⟩)
    · exact hnot (.inr ⟨⟨u, hu, hpps⟩, v, hv, hsps⟩)
    · rcases hsets u hu with h | h <;> rw [h] at hslice <;> exact absurd hslice (by decide)

theorem inOrder_iff_types {unit : AccessUnit} :
    InOrder unit ↔ (unit.map NalUnit.type).Pairwise NalUnit.MayFollow :=
  List.pairwise_map.symm

/-- **Frames are in order unless something is displaced.**  If all access units are in order, each frame is
what was put in front of an access unit and the access unit, and it is in order just if what was put in
front displaces nothing.  So are the units found in the octets of the frame, if the units of the stream
hold no start codes and begin with no zeros. -/
theorem frame_in_order_unless_displaced {groups : List AccessUnit} (h : ∀ g ∈ groups, InOrder g)
    {f : AssembledFrame} (hf : f ∈ (({} : Assembler).pushAll groups).1) :
    ∃ past unit rest, groups = past ++ unit :: rest ∧
      f.data = NalUnit.join (front past unit ++ unit) ∧
      (InOrder (front past unit ++ unit) ↔ ¬ Displaces (front past unit) unit) ∧
      ((∀ g ∈ groups, ∀ u ∈ g, u.Headed) →
        (InOrder (NalUnit.split f.data) ↔ ¬ Displaces (front past unit) unit)) := by
  obtain ⟨past, unit, rest, hgroups, hpush⟩ := exists_push_of_mem_pushAll hf
  have hdata := data_of_push hpush
  have hmem : unit ∈ groups := by
    rw [hgroups]
    exact List.mem_append_right past List.mem_cons_self
  have horder := inOrder_append_iff (fun u hu => (of_mem_front hu).1) (inOrder_front past unit)
    (h unit hmem)
  refine ⟨past, unit, rest, hgroups, hdata, horder, fun hheaded => ?_⟩
  have hall : ∀ u ∈ front past unit ++ unit, u.Headed := by
    intro u hu
    rcases List.mem_append.mp hu with hu | hu
    · obtain ⟨-, g, hg, hu⟩ := of_mem_front hu
      exact hheaded g (by rw [hgroups]; exact List.mem_append_left _ hg) u hu
    · exact hheaded unit hmem u hu
  rw [← horder, inOrder_iff_types, inOrder_iff_types, hdata, NalUnit.types_split_join hall]

/-- A keyframe with its parameter sets, one behind a delimiter without any, and one with another sequence
parameter set only. -/
def threeKeys : List AccessUnit :=
  [[⟨.long, [0x67, 0x42]⟩, ⟨.long, [0x68, 0xce]⟩, ⟨.short, [0x65, 0x88]⟩],
    [⟨.long, [0x09, 0xf0]⟩, ⟨.short, [0x65, 0x88]⟩],
    [⟨.long, [0x67, 0x4d]⟩, ⟨.short, [0x65, 0x88]⟩]]

/-- Both parameter sets in front of the delimiter. -/
def behindSets : Octets :=
  [0, 0, 0, 1, 0x67, 0x42, 0, 0, 0, 1, 0x68, 0xce, 0, 0, 0, 1, 0x09, 0xf0, 0, 0, 1, 0x65, 0x88]

/-- The picture parameter set in front of the sequence parameter set. -/
def pictureSetFirst : Octets :=
  [0, 0, 0, 1, 0x68, 0xce, 0, 0, 0, 1, 0x67, 0x4d, 0, 0, 1, 0x65, 0x88]

theorem pushAll_threeKeys :
    (({} : Assembler).pushAll threeKeys).1
      = [⟨completed, true, true⟩, ⟨behindSets, true, true⟩, ⟨pictureSetFirst, true, true⟩] := by
  decide

theorem inOrder_threeKeys : ∀ g ∈ threeKeys, InOrder g := by decide

theorem frame_in_order_unless_displaced_threeKeys :
    (∀ g ∈ threeKeys, InOrder g) ∧
    (⟨behindSets, true, true⟩ : AssembledFrame) ∈ (({} : Assembler).pushAll threeKeys).1 ∧
    (∀ g ∈ threeKeys, ∀ u ∈ g, u.Headed) ∧
    ∃ past unit rest, threeKeys = past ++ unit :: rest ∧
      behindSets = NalUnit.join (front past unit ++ unit) ∧
      (InOrder (front past unit ++ unit) ↔ ¬ Displaces (front past unit) unit) ∧
      (InOrder (NalUnit.split behindSets) ↔ ¬ Displaces (front past unit) unit) := by
  have hmem : (⟨behindSets, true, true⟩ : AssembledFrame) ∈ (({} : Assembler).pushAll threeKeys).1 := by
    rw [pushAll_threeKeys]
    decide
  have hheaded : ∀ g ∈ threeKeys, ∀ u ∈ g, u.Headed := by decide
  obtain ⟨past, unit, rest, hgroups, hdata, horder, hsplit⟩ :=
    frame_in_order_unless_displaced inOrder_threeKeys hmem
  exact ⟨inOrder_threeKeys, hmem, hheaded, past, unit, rest, hgroups, hdata, horder, hsplit hheaded⟩

/-- Access units in order give frames that are not: parameter sets land in front of a delimiter, and a
picture parameter set in front of a sequence parameter set. -/
theorem threeKeys_displaced :
    (∀ g ∈ threeKeys, InOrder g) ∧
    (({} : Assembler).pushAll threeKeys).1.map (fun f => (NalUnit.split f.data).map NalUnit.type)
      = [[7, 8, 5], [7, 8, 9, 5], [8, 7, 5]] ∧
    ¬ ∀ f ∈ (({} : Assembler).pushAll threeKeys).1, InOrder (NalUnit.split f.data) := by
  have htypes : (({} : Assembler).pushAll threeKeys).1.map
      (fun f => (NalUnit.split f.data).map NalUnit.type) = [[7, 8, 5], [7, 8, 9, 5], [8, 7, 5]] := by
    cbv
  refine ⟨inOrder_threeKeys, htypes, fun hall => ?_⟩
  have hall' : ∀ ts ∈ (({} : Assembler).pushAll threeKeys).1.map
      (fun f => (NalUnit.split f.data).map NalUnit.type), ts.Pairwise NalUnit.MayFollow := by
    intro ts hts
    obtain ⟨f, hf, rfl⟩ := List.mem_map.mp hts
    exact inOrder_iff_types.mp (hall f hf)
  rw [htypes] at hall'
  revert hall'
  decide

end Assembler

end EncodedFeed
