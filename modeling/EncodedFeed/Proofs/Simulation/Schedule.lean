import EncodedFeed.Simulation.Run
import Mathlib.Data.Nat.Count

/-!
# The schedule of a simulation

Which frames of which layer are keyframes, and how many keyframes are requested of each layer, is settled by the
setup alone.  The `k`-th request is made before frame `k * requestInterval`, of layer `k % layers`, and the frame
behind it finds it (`findsRequest`).  That payloads carry their indices is here too.
-/

namespace EncodedFeed

namespace Octets

@[simp] theorem length_big (w n : Nat) : (big w n).length = w := by
  rw [big, List.length_reverse, length_little]

theorem ofBig_big (w n : Nat) : ofBig (big w n) = n % range w := by
  rw [ofBig, big, List.reverse_reverse, ofLittle_little]

end Octets

namespace Simulation

/-! ### Payloads -/

theorem payload_ne (layer index : Nat) (isKey : Bool) (area : Nat) : payload layer index isKey area ≠ [] :=
  List.cons_ne_nil _ _

/-- A payload carries its index. -/
theorem payloadIndex?_payload (layer : Nat) {index : Nat} (h : index < 0x100000000) (isKey : Bool) (area : Nat) :
    payloadIndex? (payload layer index isKey area) = some index := by
  have hlength : ¬ (payload layer index isKey area).length < 5 := by
    simp only [payload, List.length_cons, List.length_append, Octets.length_big]
    omega
  have hoctets : ((payload layer index isKey area).drop 1).take 4 = Octets.big 4 index := by
    have htail : (payload layer index isKey area).drop 1 = Octets.big 4 index ++ (if isKey then 1 else 0)
        :: List.replicate (fillerLength area) (UInt8.ofNat (index % 251)) := rfl
    rw [htail, List.take_append_of_le_length (Nat.le_of_eq (Octets.length_big 4 index).symm)]
    exact List.take_of_length_le (Nat.le_of_eq (Octets.length_big 4 index))
  rw [payloadIndex?, if_neg hlength, hoctets, Octets.ofBig_big]
  exact congrArg some (Nat.mod_eq_of_lt h)

/-- Payloads count on from a number if each carries its place behind it. -/
theorem countsFrom_of_getElem? {l : List Octets} {n : Nat}
    (h : ∀ i data, l[i]? = some data → payloadIndex? data = some (n + i)) : countsFrom n l = true := by
  induction l generalizing n with
  | nil => rfl
  | cons data rest ih =>
    have hfirst : payloadIndex? data = some n := h 0 data rfl
    have hrest : countsFrom (n + 1) rest = true := by
      refine ih fun i d hd => ?_
      rw [h (i + 1) d hd]
      congr 1
      omega
    rw [countsFrom, hfirst, hrest, beq_self_eq_true, Bool.and_self]

/-! ### Requests -/

variable {x : Setup} {l i : Nat}

/-- The `k`-th request is made before frame `k * requestInterval`, of layer `k % layers`. -/
theorem requestedLayer?_eq_some :
    requestedLayer? x i = some l
      ↔ 0 < x.requestInterval.toNat ∧ ∃ k, 0 < k ∧ k % x.layers = l ∧ i = k * x.requestInterval.toNat := by
  unfold requestedLayer?
  dsimp only
  constructor
  · intro h
    split at h
    · next hdue =>
      obtain ⟨hinterval, hindex, hmod⟩ := hdue
      have hdvd : i / x.requestInterval.toNat * x.requestInterval.toNat = i :=
        Nat.div_mul_cancel (Nat.dvd_of_mod_eq_zero hmod)
      refine ⟨hinterval, i / x.requestInterval.toNat, ?_, Option.some.inj h, hdvd.symm⟩
      exact Nat.div_pos (Nat.le_of_dvd hindex (Nat.dvd_of_mod_eq_zero hmod)) hinterval
    · cases h
  · rintro ⟨hinterval, k, hk, rfl, rfl⟩
    have hdue : x.requestInterval.toNat > 0 ∧ k * x.requestInterval.toNat > 0 ∧
        k * x.requestInterval.toNat % x.requestInterval.toNat = 0 :=
      ⟨hinterval, Nat.mul_pos hk hinterval, Nat.mul_mod_left _ _⟩
    rw [if_pos hdue, Nat.mul_div_cancel _ hinterval]

/-- A layer that is asked for a keyframe is there. -/
theorem lt_of_requestedLayer? (hx : 0 < x.layers) (h : requestedLayer? x i = some l) : l < x.layers := by
  obtain ⟨-, k, -, rfl, -⟩ := requestedLayer?_eq_some.mp h
  exact Nat.mod_lt k hx

/-- How many requests are made of a layer before a frame. -/
def requestsBefore (x : Setup) (l n : Nat) : Nat := Nat.count (fun i => requestedLayer? x i = some l) n

/-- Requests are counted by their numbers instead of the frames they come with. -/
theorem requestsBefore_eq (x : Setup) (l n : Nat) :
    requestsBefore x l n
      = if x.requestInterval = 0 then 0
        else Nat.count (fun k => 0 < k ∧ k * x.requestInterval.toNat < n ∧ k % x.layers = l) n := by
  set interval := x.requestInterval.toNat with hinterval
  by_cases hzero : x.requestInterval = 0
  · have hnone : ∀ i, ¬ requestedLayer? x i = some l := by
      intro i hi
      have hpos := (requestedLayer?_eq_some.mp hi).1
      rw [hzero] at hpos
      exact absurd hpos (by decide)
    rw [if_pos hzero, requestsBefore, Nat.count_eq_card_filter_range, Finset.filter_false_of_mem fun i _ => hnone i]
    rfl
  · have hpos : 0 < interval := by
      refine Nat.pos_of_ne_zero fun heq => hzero ?_
      exact UInt32.toNat_inj.mp heq
    rw [if_neg hzero, requestsBefore, Nat.count_eq_card_filter_range, Nat.count_eq_card_filter_range]
    -- the `k`-th request comes with frame `k * interval`
    refine (Finset.card_nbij' (· * interval) (· / interval) ?_ ?_ ?_ ?_).symm
    · intro k hk
      simp only [Finset.coe_filter, Finset.mem_range, Set.mem_ofPred_eq] at hk ⊢
      obtain ⟨-, hk, hlt, hmod⟩ := hk
      exact ⟨hlt, requestedLayer?_eq_some.mpr ⟨hpos, k, hk, hmod, rfl⟩⟩
    · intro i hi
      simp only [Finset.coe_filter, Finset.mem_range, Set.mem_ofPred_eq] at hi ⊢
      obtain ⟨hlt, hi⟩ := hi
      obtain ⟨-, k, hk, hmod, rfl⟩ := requestedLayer?_eq_some.mp hi
      rw [← hinterval] at hlt ⊢
      rw [Nat.mul_div_cancel _ hpos]
      exact ⟨Nat.lt_of_le_of_lt (Nat.le_mul_of_pos_right k hpos) hlt, hk, hlt, hmod⟩
    · intro k _
      exact Nat.mul_div_cancel k hpos
    · intro i hi
      simp only [Finset.coe_filter, Finset.mem_range, Set.mem_ofPred_eq] at hi
      obtain ⟨-, k, -, -, rfl⟩ := requestedLayer?_eq_some.mp hi.2
      dsimp only
      rw [← hinterval, Nat.mul_div_cancel _ hpos]

/-! ### Keyframes -/

/-- The frame with an index finds a request that was made of its layer with the frame before. -/
def findsRequest (x : Setup) (l : Nat) : Nat → Bool
  | 0 => false
  | i + 1 => requestedLayer? x i == some l

/-- The frame with an index is a keyframe of its layer. -/
def isKeyAt (x : Setup) (l i : Nat) : Bool := findsRequest x l i || beginsGroup x i

/-- Since the frame before it there was a request. -/
theorem findsRequest_eq (x : Setup) (l n : Nat) :
    findsRequest x l n = decide (requestsBefore x l (n - 1) < requestsBefore x l n) := by
  cases n with
  | zero => rfl
  | succ n =>
    rw [findsRequest, requestsBefore, requestsBefore, Nat.add_sub_cancel, Nat.count_succ]
    by_cases hreq : requestedLayer? x n = some l
    · simp [hreq]
    · simp [hreq]

theorem findsRequest_iff :
    findsRequest x l i = true ↔ 0 < x.requestInterval.toNat ∧
      ∃ k, 0 < k ∧ k % x.layers = l ∧ i = k * x.requestInterval.toNat + 1 := by
  cases i with
  | zero =>
    refine iff_of_false Bool.false_ne_true ?_
    rintro ⟨-, k, -, -, heq⟩
    exact absurd heq (Nat.zero_ne_add_one _)
  | succ i =>
    rw [findsRequest, beq_iff_eq, requestedLayer?_eq_some]
    simp only [Nat.add_right_cancel_iff]

theorem beginsGroup_iff : beginsGroup x i = true ↔ 0 < x.gop.toNat ∧ x.gop.toNat ∣ i := by
  have hzero : x.gop ≠ 0 ↔ 0 < x.gop.toNat := by
    rw [Nat.pos_iff_ne_zero, ne_eq, ne_eq, ← UInt32.toNat_inj]
    rfl
  rw [beginsGroup, Bool.and_eq_true, bne_iff_ne, beq_iff_eq, hzero, Nat.dvd_iff_mod_eq_zero]

/-- **When a frame is a keyframe**: when a group of pictures begins, or behind a request of its layer. -/
theorem isKeyAt_iff :
    isKeyAt x l i = true ↔ (0 < x.gop.toNat ∧ x.gop.toNat ∣ i) ∨
      (0 < x.requestInterval.toNat ∧ ∃ k, 0 < k ∧ k % x.layers = l ∧ i = k * x.requestInterval.toNat + 1) := by
  rw [isKeyAt, Bool.or_eq_true, findsRequest_iff, beginsGroup_iff, or_comm]

end Simulation

end EncodedFeed
