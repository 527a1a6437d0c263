import EncodedFeed.Words
import Mathlib.Algebra.Ring.Int.Defs
import Mathlib.Algebra.Ring.Nat

/-!
# Numbers that fit their words

Words wrap around, and the numbers of Lean have no bounds.  Beside each computation whose sums and products are
checked stands the condition under which it has a result, and that the result is then the one without checks.
-/

namespace EncodedFeed

variable {bits n : Nat} {k : Int}

theorem unsigned?_eq (bits n : Nat) : unsigned? bits n = if n < 2 ^ bits then some n else none := by
  rw [unsigned?, Nat.one_shiftLeft]

theorem unsigned?_of_lt (h : n < 2 ^ bits) : unsigned? bits n = some n := (unsigned?_eq bits n).trans (if_pos h)

theorem unsigned?_of_le (h : 2 ^ bits ≤ n) : unsigned? bits n = none :=
  (unsigned?_eq bits n).trans (if_neg (Nat.not_lt.mpr h))

theorem signed?_eq (bits : Nat) (k : Int) :
    signed? bits k = if -2 ^ (bits - 1) ≤ k ∧ k < 2 ^ (bits - 1) then some k else none := by
  have hbound : ((1 <<< (bits - 1) : Nat) : Int) = 2 ^ (bits - 1) := by
    rw [Nat.one_shiftLeft, Int.natCast_pow]
    rfl
  rw [signed?, hbound]

theorem signed?_of_fits (hlow : -2 ^ (bits - 1) ≤ k) (hhigh : k < 2 ^ (bits - 1)) : signed? bits k = some k :=
  (signed?_eq bits k).trans (if_pos ⟨hlow, hhigh⟩)

theorem signed?_of_le (h : 2 ^ (bits - 1) ≤ k) : signed? bits k = none :=
  (signed?_eq bits k).trans (if_neg fun hfits => absurd hfits.2 (Int.not_lt.mpr h))

/-! ### Words as numbers -/

theorem toNat_max_one (a : UInt32) : (max a 1).toNat = max a.toNat 1 := by
  show (if a ≤ 1 then 1 else a).toNat = _
  split
  · next hle =>
    have hone : a.toNat ≤ 1 := hle
    rw [Nat.max_eq_right hone]
    rfl
  · next hgt =>
    have hone : ¬ a.toNat ≤ 1 := hgt
    omega

theorem ofInt_natCast (n : Nat) : UInt32.ofInt (n : Int) = UInt32.ofNat n := by
  have hmod : ((n : Int) % 2 ^ 32).toNat = n % 2 ^ 32 := by omega
  apply UInt32.toNat_inj.mp
  rw [UInt32.ofInt, hmod, UInt32.toNat_ofNat', UInt32.toNat_ofNat', Nat.mod_mod]

end EncodedFeed
