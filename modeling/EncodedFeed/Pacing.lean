/-!
# Pacing

Frames pushed at a rate follow each other after a whole number of microseconds.  Without a rate they are
stamped as if there were thirty in a second, and pushed without waiting.
-/

namespace EncodedFeed

/-- Why a run could not be carried out. -/
inductive Abort (α : Type)
  | failed (e : α)
  /-- A factory does not make an encoder that it should make. -/
  | refused (text : String)
  /-- The rate leaves no time between frames. -/
  | zeroInterval
  /-- A number does not fit its word. -/
  | overflow
deriving DecidableEq, Repr

/-- Microseconds between frames. -/
def frameInterval (fps : UInt32) : Nat := if fps = 0 then 33333 else 1000000 / fps.toNat

/-- The rate can be kept. -/
def canPace (fps : UInt32) : Bool := fps == 0 || frameInterval fps != 0

/-- Microseconds a run with a number of frames takes at a rate; without a rate it does not wait. -/
def pacedTime (fps : UInt32) (frames : Nat) : Nat :=
  if fps = 0 then 0 else (frames - 1) * frameInterval fps

/-- Capture time of the frame with an index. -/
def captureTime (fps : UInt32) (index : Nat) : Int64 := Int64.ofNat ((index + 1) * frameInterval fps)

/-- A rate of at most a million frames a second leaves a time between them. -/
theorem canPace_of_le {fps : UInt32} (h : fps ≤ 1000000) : canPace fps = true := by
  unfold canPace frameInterval
  by_cases hzero : fps = 0
  · simp [hzero]
  · have hpos : 0 < fps.toNat := by
      refine Nat.pos_of_ne_zero fun heq => hzero ?_
      exact UInt32.toNat_inj.mp heq
    have hle : fps.toNat ≤ 1000000 := UInt32.le_iff_toNat_le.mp h
    have hdiv : 0 < 1000000 / fps.toNat := Nat.div_pos hle hpos
    rw [if_neg hzero, Bool.or_eq_true]
    right
    exact bne_iff_ne.mpr (Nat.ne_of_gt hdiv)

end EncodedFeed
