import EncodedFeed.Ivf.Header
import EncodedFeed.Proofs.Words
import EncodedFeed.Timestamp
import Mathlib.Algebra.Order.Floor.Div
import Mathlib.Data.Nat.ModEq

/-!
# The RTP clock

Both ways to an RTP time, from the timestamps of a file and from capture times, scale a time to ninetieths of a
millisecond, round down and keep 32 bits.  Between two readings the clock therefore advances by what has passed,
rounded down or up once, however many readings lie between and however often the 32 bits have wrapped around
(`rounds_sub`).  The products on the way fit 128 bits (`rtpOfTicks?_eq`, `rtpOfMicros?_eq`).
-/

namespace EncodedFeed

/-! ### Products that must fit -/

/-- RTP time of a record's timestamp, computed in 128 bits. -/
def Ivf.rtpOfTicks? (rate scale : UInt32) (ticks : UInt64) : Option UInt32 :=
  if rate = 0 then some 0
  else
    (unsigned? 128 (ticks.toNat * scale.toNat)).bind fun scaled =>
      (unsigned? 128 (scaled * 90000)).map fun counted => UInt32.ofNat (counted / rate.toNat)

/-- RTP time of a capture time, computed in 128 bits. -/
def rtpOfMicros? (us : Int64) : Option UInt32 :=
  (signed? 128 (us.toInt * rtpClockRate)).map fun counted => UInt32.ofInt (Int.tdiv counted 1000000)

theorem Ivf.rtpOfTicks?_eq (rate scale : UInt32) (ticks : UInt64) :
    rtpOfTicks? rate scale ticks = some (rtpOfTicks rate scale ticks) := by
  have hscaled : ticks.toNat * scale.toNat < 2 ^ 96 :=
    calc ticks.toNat * scale.toNat
      _ ≤ ticks.toNat * 2 ^ 32 := Nat.mul_le_mul_left _ (Nat.le_of_lt scale.toNat_lt)
      _ < 2 ^ 64 * 2 ^ 32 := Nat.mul_lt_mul_of_pos_right ticks.toNat_lt (by decide)
      _ = 2 ^ 96 := by decide
  unfold rtpOfTicks? rtpOfTicks
  split
  · rfl
  · rw [unsigned?_of_lt (by omega), Option.bind_some, unsigned?_of_lt (by omega), Option.map_some]

theorem rtpOfMicros?_eq (us : Int64) : rtpOfMicros? us = some (rtpOfMicros us) := by
  have hlow : -2 ^ 63 ≤ us.toInt := Int64.le_toInt us
  have hhigh : us.toInt < 2 ^ 63 := Int64.toInt_lt us
  unfold rtpOfMicros? rtpClockRate
  rw [signed?_of_fits (by omega) (by omega), Option.map_some]
  rfl

/-! ### Rounding -/

/-- A clock advances by `n / d`, rounded down or up, modulo `2 ^ 32`. -/
def Rounds (n d : Nat) (advance : UInt32) : Prop :=
  advance = UInt32.ofNat (n / d) ∨ advance = UInt32.ofNat (n ⌈/⌉ d)

theorem ceilDiv_of_mod_ne_zero {n d : Nat} (hd : 0 < d) (h : n % d ≠ 0) : n ⌈/⌉ d = n / d + 1 := by
  have hmod := Nat.mod_lt n hd
  rw [Nat.ceilDiv_eq_add_pred_div]
  apply Nat.div_eq_of_lt_le
  · have hsplit := Nat.div_add_mod n d
    rw [Nat.succ_mul, Nat.mul_comm]
    omega
  · have hsplit := Nat.div_add_mod n d
    rw [Nat.succ_mul, Nat.succ_mul, Nat.mul_comm (n / d)]
    omega

/-- Two readings that are rounded down are apart by what lies between them, rounded once. -/
theorem rounds_sub (x n : Nat) {d : Nat} (hd : 0 < d) :
    Rounds n d (UInt32.ofNat ((x + n) / d) - UInt32.ofNat (x / d)) := by
  have hcancel (k : Nat) : UInt32.ofNat (x / d + k) - UInt32.ofNat (x / d) = UInt32.ofNat k := by
    rw [UInt32.ofNat_add, UInt32.add_comm, UInt32.add_sub_cancel]
  rw [Nat.add_div hd]
  split
  · next hcarry =>
    -- the rests add up to a whole, so there is one on the side of `n` too
    have hrest : n % d ≠ 0 := by
      have hlt := Nat.mod_lt x hd
      omega
    rw [Nat.add_assoc, hcancel]
    exact .inr (congrArg UInt32.ofNat (ceilDiv_of_mod_ne_zero hd hrest).symm)
  · rw [Nat.add_zero, hcancel]
    exact .inl rfl

/-- How far a clock goes from its first reading to the last of some others, step by step. -/
def travelled (first : UInt32) : List UInt32 → UInt32
  | [] => 0
  | r :: rest => (r - first) + travelled r rest

/-- Steps add up to the whole way, also across a wrap. -/
theorem travelled_eq (first : UInt32) (readings : List UInt32) :
    travelled first readings = readings.getLastD first - first := by
  induction readings generalizing first with
  | nil => exact (UInt32.sub_self first).symm
  | cons r rest ih =>
    rw [travelled, ih, List.getLastD_cons]
    grind

/-! ### Both clocks -/

theorem Ivf.Header.rounds_toRtp (h : Header) (hrate : h.rate ≠ 0) {t₁ t₂ : UInt64} (hle : t₁ ≤ t₂) :
    Rounds ((t₂.toNat - t₁.toNat) * h.scale.toNat * 90000) h.rate.toNat (h.toRtp t₂ - h.toRtp t₁) := by
  have hpos : 0 < h.rate.toNat := by
    refine Nat.pos_of_ne_zero fun hzero => hrate ?_
    exact UInt32.toNat_inj.mp hzero
  have hle : t₁.toNat ≤ t₂.toNat := UInt64.le_iff_toNat_le.mp hle
  have hsum : t₂.toNat * h.scale.toNat * 90000
      = t₁.toNat * h.scale.toNat * 90000 + (t₂.toNat - t₁.toNat) * h.scale.toNat * 90000 := by
    rw [← Nat.add_mul, ← Nat.add_mul, Nat.add_sub_cancel' hle]
  simp only [toRtp, rtpOfTicks, if_neg hrate]
  rw [hsum]
  exact rounds_sub _ _ hpos

/-- A microsecond is nine hundredths of a tick. -/
theorem rtpOfMicros_of_nonneg {us : Int64} (h : 0 ≤ us) :
    rtpOfMicros us = UInt32.ofNat (us.toInt.toNat * 9 / 100) := by
  have hnonneg : 0 ≤ us.toInt := Int64.le_iff_toInt_le.mp h
  have hdiv : us.toInt.toNat * 90000 / 1000000 = us.toInt.toNat * 9 / 100 := by omega
  have hint : us.toInt * rtpClockRate = ((us.toInt.toNat * 90000 : Nat) : Int) := by
    unfold rtpClockRate
    omega
  have htdiv : Int.tdiv ((us.toInt.toNat * 90000 : Nat) : Int) 1000000
      = ((us.toInt.toNat * 90000 / 1000000 : Nat) : Int) := (Int.ofNat_tdiv _ 1000000).symm
  rw [rtpOfMicros, hint, htdiv, ofInt_natCast, hdiv]

theorem rounds_rtpOfMicros {a b : Int64} (ha : 0 ≤ a) (hab : a ≤ b) :
    Rounds ((b.toInt - a.toInt).toNat * 9) 100 (rtpOfMicros b - rtpOfMicros a) := by
  have hle : a.toInt ≤ b.toInt := Int64.le_iff_toInt_le.mp hab
  have hnonneg : 0 ≤ a.toInt := Int64.le_iff_toInt_le.mp ha
  have hb : 0 ≤ b := Int64.le_trans ha hab
  have hsum : b.toInt.toNat * 9 = a.toInt.toNat * 9 + (b.toInt - a.toInt).toNat * 9 := by omega
  rw [rtpOfMicros_of_nonneg ha, rtpOfMicros_of_nonneg hb, hsum]
  exact rounds_sub _ _ (by decide)

/-- **Neither clock drifts.**  No product overflows, and from any time to a later one both clocks advance by what
lies between, rounded once, modulo `2 ^ 32`.  Nor does it matter in how many steps: those of a stream add up to the
same as the one step from its first time to its last. -/
theorem rtp_clocks_round :
    (∀ (h : Ivf.Header) (t : UInt64), Ivf.rtpOfTicks? h.rate h.scale t = some (h.toRtp t)) ∧
    (∀ us : Int64, rtpOfMicros? us = some (rtpOfMicros us)) ∧
    (∀ h : Ivf.Header, h.rate ≠ 0 → ∀ t₁ t₂ : UInt64, t₁ ≤ t₂ →
      Rounds ((t₂.toNat - t₁.toNat) * h.scale.toNat * 90000) h.rate.toNat (h.toRtp t₂ - h.toRtp t₁)) ∧
    (∀ a b : Int64, 0 ≤ a → a ≤ b →
      Rounds ((b.toInt - a.toInt).toNat * 9) 100 (rtpOfMicros b - rtpOfMicros a)) ∧
    (∀ h : Ivf.Header, h.rate ≠ 0 → ∀ (t : UInt64) (stream : List UInt64), t ≤ stream.getLastD t →
      Rounds (((stream.getLastD t).toNat - t.toNat) * h.scale.toNat * 90000) h.rate.toNat
        (travelled (h.toRtp t) (stream.map h.toRtp))) ∧
    ∀ (a : Int64) (stream : List Int64), 0 ≤ a → a ≤ stream.getLastD a →
      Rounds (((stream.getLastD a).toInt - a.toInt).toNat * 9) 100
        (travelled (rtpOfMicros a) (stream.map rtpOfMicros)) := by
  refine ⟨fun h => Ivf.rtpOfTicks?_eq h.rate h.scale, rtpOfMicros?_eq,
    fun h hrate t₁ t₂ => h.rounds_toRtp hrate, fun a b => rounds_rtpOfMicros,
    fun h hrate t stream hle => ?_, fun a stream ha hle => ?_⟩
  · rw [travelled_eq, List.getLastD_map]
    exact h.rounds_toRtp hrate hle
  · rw [travelled_eq, List.getLastD_map]
    exact rounds_rtpOfMicros ha hle

/-- A file that counts in twenty-ninths of a second. -/
def oddRate : Ivf.Header := ⟨.vp9, 640, 480, 29, 1, 3⟩

/-- The last timestamps there are, and capture times between which the 32 bits wrap around. -/
theorem rtp_clocks_round_atLimits :
    (oddRate.rate ≠ 0 ∧ (0xfffffffffffffffd : UInt64) ≤ 0xffffffffffffffff ∧
      [0xfffffffffffffffd, 0xfffffffffffffffe, 0xffffffffffffffff].map oddRate.toRtp
        = [740502292, 740505395, 740508499] ∧
      Rounds 180000 29 (travelled 740502292 [740505395, 740508499])) ∧
    (0 : Int64) ≤ 47721858000 ∧ (47721858000 : Int64) ≤ 47721859000 ∧
    rtpOfMicros 47721858000 = 4294967220 ∧ rtpOfMicros 47721859000 = 14 ∧ Rounds 9000 100 (14 - 4294967220) := by
  obtain ⟨-, -, -, hmicros, hstream, -⟩ := rtp_clocks_round
  have hticks := hstream oddRate (by decide) 0xfffffffffffffffd [0xfffffffffffffffe, 0xffffffffffffffff] (by decide)
  have htimes := hmicros 47721858000 47721859000 (by decide) (by decide)
  exact ⟨⟨by decide, by decide, by decide, hticks⟩, by decide, by decide, by decide, by decide, htimes⟩

end EncodedFeed
