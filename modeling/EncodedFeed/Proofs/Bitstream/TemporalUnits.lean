import EncodedFeed.Bitstream.Keyframe
import EncodedFeed.Proofs.Ivf.Layout
import EncodedFeed.Proofs.Words
import Mathlib.Tactic.Linarith
import Mathlib.Tactic.Ring

/-!
# Sequence headers in temporal units

An open bitstream unit is written as its header octet, an extension octet if it has one, its size if it states it,
and its payload.  The walk over a temporal unit keeps in step with the units, however wide their sizes are written,
and so finds a sequence header just if one of the units is one (`hasSequenceHeader_units`).  Over any other octets it
still gets ahead with every step: made by position, with each octet fetched and each sum in 64 bits, the walk has a
result, and the same one (`walk?_eq`).
-/

namespace EncodedFeed.Av1

open Octets (slice? slice?_of_le)

/-! ### Sizes -/

/-- A LEB128 number, so many of whose octets say that another one follows. -/
def lebOctets : Nat → Nat → Octets
  | 0, n => [UInt8.ofNat n]
  | more + 1, n => UInt8.ofNat (128 + n % 128) :: lebOctets more (n / 128)

theorem length_lebOctets (more n : Nat) : (lebOctets more n).length = more + 1 := by
  induction more generalizing n with
  | zero => rfl
  | succ more ih => simp [lebOctets, ih]

/-- A size is read as it was written, padding included. -/
theorem leb128_lebOctets {more limit n : Nat} (hlimit : more < limit) (hn : n < 128 ^ (more + 1)) (rest : Octets) :
    leb128 limit (lebOctets more n ++ rest) = some (n, more + 1) := by
  induction more generalizing limit n with
  | zero =>
    obtain ⟨limit, rfl⟩ := Nat.exists_eq_add_one_of_ne_zero (Nat.ne_zero_of_lt hlimit)
    have htoNat : (UInt8.ofNat n).toNat = n := by
      rw [UInt8.toNat_ofNat']
      omega
    have hlast : UInt8.ofNat n < 0x80 := by
      rw [UInt8.lt_iff_toNat_lt, htoNat]
      exact hn
    rw [lebOctets, List.singleton_append, leb128, if_pos hlast, htoNat]
  | succ more ih =>
    obtain ⟨limit, rfl⟩ := Nat.exists_eq_add_one_of_ne_zero (Nat.ne_zero_of_lt hlimit)
    have htoNat : (UInt8.ofNat (128 + n % 128)).toNat = 128 + n % 128 := by
      rw [UInt8.toNat_ofNat']
      omega
    have hmore : ¬ UInt8.ofNat (128 + n % 128) < 0x80 := by
      rw [UInt8.lt_iff_toNat_lt, htoNat]
      exact Nat.not_lt.mpr (Nat.le_add_right 128 _)
    have hhigh : n / 128 < 128 ^ (more + 1) := by
      rw [Nat.div_lt_iff_lt_mul (by decide), ← Nat.pow_succ]
      exact hn
    rw [lebOctets, List.cons_append, leb128, if_neg hmore, ih (by omega) hhigh, htoNat]
    show some ((128 + n % 128) % 128 + 128 * (n / 128), _) = _
    congr 2
    omega

/-- A size takes an octet at least and no more than there are; seven bits come from each. -/
theorem leb128_eq_some {limit size len : Nat} {data : Octets} (h : leb128 limit data = some (size, len)) :
    0 < len ∧ len ≤ limit ∧ len ≤ data.length ∧ size < 128 ^ limit := by
  induction limit generalizing data size len with
  | zero => cases h
  | succ limit ih =>
    cases data with
    | nil => cases h
    | cons b rest =>
      rw [leb128] at h
      split at h
      · next hlast =>
        cases h
        have hb : b.toNat < 128 := hlast
        have hpow : 128 ≤ 128 ^ (limit + 1) := Nat.le_self_pow (Nat.succ_ne_zero _) 128
        simp only [List.length_cons]
        omega
      · obtain ⟨⟨high, len'⟩, hrest, hpair⟩ := Option.map_eq_some_iff.mp h
        cases hpair
        obtain ⟨-, hlimit, hlength, hhigh⟩ := ih hrest
        have hpow : 128 ^ (limit + 1) = 128 * 128 ^ limit := Nat.pow_succ'
        simp only [List.length_cons]
        omega

/-! ### Units -/

/-- An open bitstream unit. -/
structure Obu where
  /-- What the unit holds, in four bits. -/
  kind : Fin 16
  /-- A bit of the header octet that is to be clear and not looked at. -/
  forbidden : Bool := false
  /-- Another such bit. -/
  reserved : Bool := false
  extension : Option UInt8 := none
  payload : Octets := []
  /-- How many octets of its size say that another one follows, if the unit states its size. -/
  sized : Option (Fin 8) := none
  fits : ∀ more ∈ sized, payload.length < 128 ^ (more.val + 1) := by simp

namespace Obu

/-- The header octet of a unit of a kind, with its flags. -/
def headerOctet (kind : Fin 16) (forbidden extended sized reserved : Bool) : UInt8 :=
  UInt8.ofNat (128 * forbidden.toNat + 8 * kind.val + 4 * extended.toNat + 2 * sized.toNat + reserved.toNat)

/-- The header octet of the unit. -/
def header (u : Obu) : UInt8 :=
  headerOctet u.kind u.forbidden u.extension.isSome u.sized.isSome u.reserved

/-- The size as the unit states it. -/
def size (u : Obu) : Octets := u.sized.elim [] fun more => lebOctets more u.payload.length

/-- The unit as it is written. -/
def octets (u : Obu) : Octets := u.header :: (u.extension.toList ++ (u.size ++ u.payload))

/-- The header octet says what it was made of. -/
theorem headerOctet_spec : ∀ (kind : Fin 16) (forbidden extended sized reserved : Bool),
    ((obuType (headerOctet kind forbidden extended sized reserved) == sequenceHeaderType) = decide (kind = 1)) ∧
      hasExtension (headerOctet kind forbidden extended sized reserved) = extended ∧
      hasSize (headerOctet kind forbidden extended sized reserved) = sized := by
  decide

variable (u : Obu) (rest : Octets)

theorem header_spec : ((obuType u.header == sequenceHeaderType) = decide (u.kind = 1)) ∧
    hasExtension u.header = u.extension.isSome ∧ hasSize u.header = u.sized.isSome :=
  headerOctet_spec _ _ _ _ _

theorem afterHeader_extension : afterHeader u.header (u.extension.toList ++ rest) = rest := by
  rw [afterHeader, u.header_spec.2.1]
  cases u.extension <;> rfl

end Obu

/-- **A step of the walk** passes over a unit that states its size. -/
theorem hasSequenceHeader_sized {u : Obu} {more : Fin 8} (hsized : u.sized = some more) (rest : Octets) :
    hasSequenceHeader (u.octets ++ rest) = (decide (u.kind = 1) || hasSequenceHeader rest) := by
  have hsize : u.size = lebOctets more u.payload.length := by rw [Obu.size, hsized]; rfl
  have hread : leb128 8 (u.size ++ (u.payload ++ rest)) = some (u.payload.length, more.val + 1) := by
    rw [hsize]
    exact leb128_lebOctets more.isLt (u.fits more hsized) _
  have hpass : (u.size ++ (u.payload ++ rest)).drop (more.val + 1 + u.payload.length) = rest := by
    rw [← List.append_assoc, List.drop_left']
    rw [List.length_append, hsize, length_lebOctets]
  obtain ⟨hkind, -, hstated⟩ := u.header_spec
  rw [hsized, Option.isSome_some] at hstated
  rw [Obu.octets, List.cons_append, List.append_assoc, List.append_assoc, hasSequenceHeader,
    u.afterHeader_extension, hstated, hkind]
  by_cases hone : u.kind = 1
  · simp [hone]
  · simp only [hone, decide_false, Bool.false_eq_true, if_false, if_true, hread, hpass, Bool.false_or]

/-- At a unit that does not state its size the walk ends. -/
theorem hasSequenceHeader_unsized {u : Obu} (hsized : u.sized = none) :
    hasSequenceHeader u.octets = decide (u.kind = 1) := by
  obtain ⟨hkind, -, hstated⟩ := u.header_spec
  rw [hsized, Option.isSome_none] at hstated
  rw [Obu.octets, hasSequenceHeader, hstated, hkind]
  by_cases hone : u.kind = 1 <;> simp [hone]

/-- **The walk keeps in step** with units that state their size, all but the last. -/
theorem hasSequenceHeader_units {units : List Obu} (hsized : ∀ u ∈ units.dropLast, u.sized.isSome) :
    hasSequenceHeader (units.flatMap Obu.octets) = true ↔ ∃ u ∈ units, u.kind = 1 := by
  induction units with
  | nil => simp [hasSequenceHeader]
  | cons u rest ih =>
    cases hu : u.sized with
    | some more =>
      have hrest : ∀ u ∈ rest.dropLast, u.sized.isSome := by
        cases rest with
        | nil => simp
        | cons v rest => exact fun w hw => hsized w (List.mem_cons_of_mem _ hw)
      rw [List.flatMap_cons, hasSequenceHeader_sized hu, Bool.or_eq_true, decide_eq_true_eq, ih hrest]
      simp
    | none =>
      -- only the last unit need not state its size
      cases rest with
      | nil => rw [List.flatMap_cons, List.flatMap_nil, List.append_nil, hasSequenceHeader_unsized hu]; simp
      | cons v rest =>
        have hstated := hsized u List.mem_cons_self
        rw [hu] at hstated
        cases hstated

/-! ### Positions -/

/-- A LEB128 number of at most so many octets, behind `len` octets that gave `value`.  Each sum must fit 64 bits. -/
def leb128? (value len : Nat) : Nat → Octets → Option (Option (Nat × Nat))
  | 0, _ => some none
  | _ + 1, [] => some none
  | limit + 1, b :: rest =>
    (unsigned? 64 (value + b.toNat % 128 * 2 ^ (7 * len))).bind fun value =>
      if b < 0x80 then some (some (value, len + 1)) else leb128? value (len + 1) limit rest

/-- Eight octets of seven bits fit 64. -/
theorem leb128?_eq {value len limit : Nat} (hvalue : value < 2 ^ (7 * len)) (hlen : len + limit ≤ 8) (data : Octets) :
    leb128? value len limit data
      = some ((leb128 limit data).map fun (high, n) => (value + 2 ^ (7 * len) * high, len + n)) := by
  induction limit generalizing value len data with
  | zero => rfl
  | succ limit ih =>
    cases data with
    | nil => rfl
    | cons b rest =>
      have hlow : b.toNat % 128 < 128 := Nat.mod_lt _ (by decide)
      have hpow : 2 ^ (7 * (len + 1)) = 2 ^ (7 * len) * 128 := Nat.pow_add 2 (7 * len) 7
      have hnext : value + b.toNat % 128 * 2 ^ (7 * len) < 2 ^ (7 * (len + 1)) := by
        rw [hpow]
        nlinarith
      have hword : 2 ^ (7 * (len + 1)) < 2 ^ 64 := Nat.pow_lt_pow_right (by decide) (by omega)
      rw [leb128?, unsigned?_of_lt (hnext.trans hword), Option.bind_some, leb128]
      split
      · next hlast =>
        have hb : b.toNat < 128 := hlast
        rw [Nat.mod_eq_of_lt hb, Nat.mul_comm]
        rfl
      · rw [ih hnext (by omega)]
        cases leb128 limit rest with
        | none => rfl
        | some pair =>
          simp only [Option.map_some, hpow]
          congr 3
          · ring
          · omega

/-- The walk over a temporal unit by position.  It has no result if an octet is fetched from where there is none, a
sum does not fit 64 bits, or a step does not get ahead. -/
def walk? (data : Octets) (pos : Nat) : Option Bool :=
  if pos < data.length then
    data[pos]?.bind fun header =>
      if obuType header == sequenceHeaderType then some true
      else
        (unsigned? 64 (pos + (1 + (hasExtension header).toNat))).bind fun start =>
          if hasSize header then
            (slice? data (min start data.length) data.length).bind fun rest =>
              (leb128? 0 0 8 rest).bind fun
                | none => some false
                | some (size, len) =>
                  (unsigned? 64 (len + size)).bind fun step =>
                    (unsigned? 64 (start + step)).bind fun next =>
                      if pos < next then walk? data next else none
          else some false
  else some false
termination_by data.length - pos

theorem drop_afterHeader (header : UInt8) (data : Octets) (pos : Nat) :
    afterHeader header (data.drop (pos + 1)) = data.drop (pos + (1 + (hasExtension header).toNat)) := by
  rw [afterHeader]
  cases hasExtension header
  · rfl
  · exact List.drop_drop

theorem slice?_toEnd (data : Octets) (start : Nat) :
    slice? data (min start data.length) data.length = some (data.drop start) := by
  rw [slice?_of_le (Nat.min_le_right _ _) (Nat.le_refl _), List.take_of_length_le (List.length_drop ..).le]
  rcases Nat.le_total start data.length with hstart | hstart
  · rw [Nat.min_eq_left hstart]
  · rw [Nat.min_eq_right hstart, List.drop_length, List.drop_eq_nil_of_le hstart]

/-- **No position leaves the octets** or overflows 64 bits, and every step gets ahead. -/
theorem walk?_eq {data : Octets} (hdata : data.length < 2 ^ 63) (pos : Nat) :
    walk? data pos = some (hasSequenceHeader (data.drop pos)) := by
  rw [walk?]
  split
  · next hpos =>
    have hextension : (hasExtension data[pos]).toNat ≤ 1 := Bool.toNat_le _
    rw [List.getElem?_eq_getElem hpos, Option.bind_some, List.drop_eq_getElem_cons hpos, hasSequenceHeader,
      drop_afterHeader, unsigned?_of_lt (by omega), Option.bind_some, slice?_toEnd, Option.bind_some,
      leb128?_eq (by decide) (by decide), Option.bind_some]
    split
    · rfl
    split
    · cases hleb : leb128 8 (data.drop (pos + (1 + (hasExtension data[pos]).toNat))) with
      | none => rfl
      | some pair =>
        obtain ⟨size, len⟩ := pair
        obtain ⟨hlen, hwidth, hlength, hsize⟩ := leb128_eq_some hleb
        have hbits : 128 ^ 8 = 2 ^ 56 := by decide
        simp only [Option.map_some, Nat.zero_add, Nat.mul_zero, Nat.pow_zero, Nat.one_mul]
        rw [unsigned?_of_lt (by omega), Option.bind_some, unsigned?_of_lt (by omega), Option.bind_some,
          if_pos (by omega), walk?_eq hdata, List.drop_drop]
    · rfl
  · next hpos => rw [List.drop_eq_nil_of_le (Nat.not_lt.mp hpos), hasSequenceHeader]
termination_by data.length - pos

/-- **Sequence headers are found** in every temporal unit whose units state their sizes, in however many octets, all
but the last; and the walk over any octets ends with each of its steps ahead of the one before, within the octets and
within 64 bits.  No string of octets in memory has `2 ^ 63` of them. -/
theorem keyframe_iff_sequenceHeader :
    (∀ units : List Obu, (∀ u ∈ units.dropLast, u.sized.isSome) →
      (isKeyframe .av1 (units.flatMap Obu.octets) = true ↔ ∃ u ∈ units, u.kind = 1)) ∧
    ∀ data : Octets, data.length < 2 ^ 63 → walk? data 0 = some (isKeyframe .av1 data) := by
  constructor
  · exact fun units hsized => hasSequenceHeader_units hsized
  · intro data hdata
    rw [walk?_eq hdata, List.drop_zero]
    rfl

/-- A temporal delimiter whose size of zero takes eight octets, a frame whose payload looks like a sequence header,
and a sequence header that does not state its size. -/
def paddedUnits : List Obu :=
  [{ kind := 2, extension := some 0x0a, sized := some 7 },
    { kind := 6, payload := [0x0a, 0x00], sized := some 1 },
    { kind := 1, extension := some 0, payload := [0xff] }]

/-- A frame that claims nearly `2 ^ 56` octets, and behind it what looks like a sequence header. -/
def vastFrame : Octets := [0x32, 0xff, 0xff, 0xff, 0xff, 0xff, 0xff, 0xff, 0x7f, 0x0a, 0x00]

theorem keyframe_iff_sequenceHeader_padded :
    (∀ u ∈ paddedUnits.dropLast, u.sized.isSome) ∧ isKeyframe .av1 (paddedUnits.flatMap Obu.octets) = true ∧
    (∀ u ∈ (paddedUnits.take 2).dropLast, u.sized.isSome) ∧
    ¬ isKeyframe .av1 ((paddedUnits.take 2).flatMap Obu.octets) = true ∧
    vastFrame.length < 2 ^ 63 ∧ walk? vastFrame 0 = some false := by
  obtain ⟨hunits, hwalk⟩ := keyframe_iff_sequenceHeader
  have hsized : ∀ u ∈ paddedUnits.dropLast, u.sized.isSome := by decide
  have hfront : ∀ u ∈ (paddedUnits.take 2).dropLast, u.sized.isSome := by decide
  have hvast : isKeyframe .av1 vastFrame = false := by cbv
  refine ⟨hsized, (hunits _ hsized).mpr (by decide), hfront, fun h => ?_, by decide, ?_⟩
  · exact absurd ((hunits _ hfront).mp h) (by decide)
  · rw [hwalk _ (by decide), hvast]

end EncodedFeed.Av1
