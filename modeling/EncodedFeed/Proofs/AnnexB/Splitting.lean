import EncodedFeed.AnnexB.NalUnit
import Mathlib.Data.List.Chain

/-!
# Splitting and joining

Units that stand back to back are found again where they were put: no start code reaches from the end of
one payload into the start code behind it, unless the payload ends in zero and the start code is short.
-/

namespace EncodedFeed

namespace StartCode

theorem at?_octets (code : StartCode) (rest : Octets) : at? (code.octets ++ rest) = some code := by
  cases code <;> rfl

theorem find?_cons (b : UInt8) (rest : Octets) :
    find? (b :: rest) = match at? (b :: rest) with
      | some code => some (0, code)
      | none => (find? rest).map fun p => (1 + p.1, p.2) := by
  rw [find?, findFrom]
  cases at? (b :: rest) with
  | some code => rfl
  | none => exact findFrom_eq 1 rest

theorem find?_eq_none_cons {b : UInt8} {rest : Octets} :
    find? (b :: rest) = none ↔ at? (b :: rest) = none ∧ find? rest = none := by
  rw [find?_cons]
  cases at? (b :: rest) <;> simp

theorem find?_octets (code : StartCode) (rest : Octets) :
    find? (code.octets ++ rest) = some (0, code) := by
  obtain ⟨b, tail, hcons⟩ : ∃ b tail, code.octets ++ rest = b :: tail := by
    cases code <;> exact ⟨_, _, rfl⟩
  have hat := at?_octets code rest
  rw [hcons] at hat ⊢
  rw [find?_cons, hat]

theorem at?_eq_none {data : Octets} : at? data = none ↔ ∀ code : StartCode, ¬ code.octets <+: data := by
  constructor
  · intro h code hpre
    rw [← List.isPrefixOf_iff_prefix] at hpre
    unfold at? at h
    split at h
    · cases h
    · split at h
      · cases h
      · cases code <;> contradiction
  · intro h
    have hshort := h short
    have hlong := h long
    rw [← List.isPrefixOf_iff_prefix] at hshort hlong
    rw [at?, if_neg hshort, if_neg hlong]

theorem at?_take {data : Octets} (h : at? data = none) (n : Nat) : at? (data.take n) = none := by
  rw [at?_eq_none] at h ⊢
  exact fun code hpre => h code (hpre.trans (List.take_prefix n data))

/-- In front of the first start code there is none. -/
theorem find?_take {data : Octets} {k : Nat} {code : StartCode} (h : find? data = some (k, code)) :
    find? (data.take k) = none := by
  induction data generalizing k with
  | nil => cases h
  | cons b rest ih =>
    rw [find?_cons] at h
    cases hat : at? (b :: rest) with
    | some c =>
      rw [hat] at h
      cases h
      rfl
    | none =>
      simp only [hat, Option.map_eq_some_iff] at h
      obtain ⟨⟨j, c⟩, hj, hpair⟩ := h
      cases hpair
      have hcut := at?_take hat (j + 1)
      rw [List.take_succ_cons] at hcut
      rw [Nat.add_comm, List.take_succ_cons]
      exact find?_eq_none_cons.mpr ⟨hcut, ih hj⟩

/-- No start code begins at an octet of a string and ends in the start code behind the string. -/
theorem at?_append_octets {b : UInt8} {p : Octets} {code : StartCode} (h : at? (b :: p) = none)
    (hlast : code = short → (b :: p).getLast? ≠ some 0) (rest : Octets) :
    at? (b :: (p ++ (code.octets ++ rest))) = none := by
  rw [at?_eq_none] at h ⊢
  have hshort : ¬ [0, 0, 1] <+: b :: p := h short
  have hlong : ¬ [0, 0, 0, 1] <+: b :: p := h long
  clear h
  intro c hpre
  -- a start code that is not wholly in the string ends in the first octets of the next one
  match p with
  | [] => cases code <;> cases c <;> grind [octets]
  | [x] => cases code <;> cases c <;> grind [octets]
  | [x, y] => cases code <;> cases c <;> grind [octets]
  | x :: y :: z :: p => cases c <;> grind [octets]

/-- **The first start code** behind a string that has none is the one that was put there. -/
theorem find?_append_octets {p : Octets} {code : StartCode} (h : find? p = none)
    (hlast : code = short → p.getLast? ≠ some 0) (rest : Octets) :
    find? (p ++ (code.octets ++ rest)) = some (p.length, code) := by
  induction p with
  | nil => exact find?_octets code rest
  | cons b p ih =>
    obtain ⟨hat, hp⟩ := find?_eq_none_cons.mp h
    have hend : code = short → p.getLast? ≠ some 0 := by
      intro hcode
      cases p with
      | nil => exact fun h => by cases h
      | cons x p =>
        have := hlast hcode
        rwa [List.getLast?_cons_cons] at this
    rw [List.cons_append, find?_cons, at?_append_octets hat hlast rest, ih hp hend]
    simp [Nat.add_comm]

end StartCode

namespace NalUnit

/-- Something stands behind the start code of the unit, and no other start code. -/
def Plain (u : NalUnit) : Prop := u.payload ≠ [] ∧ StartCode.find? u.payload = none

/-- The end of a unit and the start code of the next one are not taken for a longer start code. -/
def Apart (u v : NalUnit) : Prop := v.startCode = .short → u.payload.getLast? ≠ some 0

theorem join_cons (u : NalUnit) (rest : List NalUnit) :
    join (u :: rest) = u.startCode.octets ++ (u.payload ++ join rest) := by
  rw [join, List.flatMap_cons, octets, List.append_assoc, join]

theorem join_append (us vs : List NalUnit) : join (us ++ vs) = join us ++ join vs :=
  List.flatMap_append

/-- Up to the next start code there is one payload, which may be empty. -/
theorem splitBody_append {code next : StartCode} {payload : Octets} (h : StartCode.find? payload = none)
    (hlast : next = .short → payload.getLast? ≠ some 0) (rest : Octets) :
    splitBody code (payload ++ (next.octets ++ rest)) = ofPayload? code payload ++ splitBody next rest := by
  have hfind := StartCode.find?_append_octets h hlast rest
  have hdrop : (payload ++ (next.octets ++ rest)).drop (payload.length + next.length) = rest := by
    rw [← List.drop_drop, List.drop_left, List.drop_left' (StartCode.length_octets next)]
  rw [splitBody]
  split
  · next heq => rw [hfind] at heq; cases heq
  · next k c heq =>
    rw [hfind] at heq
    cases heq
    rw [List.take_left, hdrop]

theorem splitBody_join {u : NalUnit} {rest : List NalUnit} (hplain : ∀ v ∈ u :: rest, v.Plain)
    (hapart : (u :: rest).IsChain Apart) :
    splitBody u.startCode (u.payload ++ join rest) = u :: rest := by
  induction rest generalizing u with
  | nil =>
    obtain ⟨hne, hnone⟩ := hplain u List.mem_cons_self
    rw [join, List.flatMap_nil, List.append_nil, splitBody]
    split
    · rw [ofPayload?, if_neg hne]
    · next h => rw [hnone] at h; cases h
  | cons v rest ih =>
    obtain ⟨hne, hnone⟩ := hplain u List.mem_cons_self
    rw [List.isChain_cons_cons] at hapart
    rw [join_cons, splitBody_append hnone hapart.1, ofPayload?, if_neg hne,
      ih (fun w hw => hplain w (List.mem_cons_of_mem _ hw)) hapart.2]
    rfl

/-- **Units are found again** where they were put, if no start code can be misread. -/
theorem split_join {units : List NalUnit} (hplain : ∀ u ∈ units, u.Plain)
    (hapart : units.IsChain Apart) : split (join units) = units := by
  cases units with
  | nil => rfl
  | cons u rest =>
    rw [split, join_cons, StartCode.find?_octets]
    simp only [Nat.zero_add, List.drop_left' (StartCode.length_octets u.startCode)]
    exact splitBody_join hplain hapart

theorem plain_ofPayload? {code : StartCode} {payload : Octets} (h : StartCode.find? payload = none) :
    ∀ u ∈ ofPayload? code payload, u.Plain := by
  unfold ofPayload?
  split
  · simp
  · next hne =>
    intro u hu
    rw [List.mem_singleton.mp hu]
    exact ⟨hne, h⟩

theorem plain_splitBody (code : StartCode) (body : Octets) : ∀ u ∈ splitBody code body, u.Plain := by
  fun_induction splitBody code body with
  | case1 code body h => exact plain_ofPayload? h
  | case2 code body k next h ih =>
    intro u hu
    rcases List.mem_append.mp hu with hu | hu
    · exact plain_ofPayload? (StartCode.find?_take h) u hu
    · exact ih u hu

theorem plain_split (data : Octets) : ∀ u ∈ split data, u.Plain := by
  unfold split
  split
  · simp
  · exact plain_splitBody _ _

end NalUnit

end EncodedFeed
