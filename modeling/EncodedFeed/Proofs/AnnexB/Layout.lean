import EncodedFeed.Proofs.AnnexB.Splitting

/-!
# The layout of a stream

A stream is what comes before its first start code, and then start codes, each with what stands behind it
up to the next one.  Splitting gives just those with something behind their start code: every octet is
accounted for, and no start code is overlooked or read in the middle of a longer one.
-/

namespace EncodedFeed

namespace StartCode

/-- The three octets every start code ends in stand somewhere in a string. -/
def Within (data : Octets) : Prop := short.octets <:+: data

instance (data : Octets) : Decidable (Within data) :=
  inferInstanceAs (Decidable (short.octets <:+: data))

theorem short_within_octets (code : StartCode) : Within code.octets := by
  cases code with
  | short => exact List.infix_rfl
  | long => exact (List.suffix_cons 0 [0, 0, 1]).isInfix

theorem find?_eq_none_iff {data : Octets} : find? data = none ↔ ¬ Within data := by
  induction data with
  | nil => exact ⟨fun _ => by decide, fun _ => rfl⟩
  | cons b rest ih =>
    rw [find?_eq_none_cons, ih, at?_eq_none, Within, Within, List.infix_cons_iff, not_or]
    refine ⟨fun ⟨hat, hrest⟩ => ⟨hat short, hrest⟩, fun ⟨hat, hrest⟩ => ⟨fun code hcode => ?_, hrest⟩⟩
    cases code with
    | short => exact hat hcode
    | long =>
      -- behind its first zero a long start code is a short one
      obtain ⟨-, htail⟩ := List.cons_prefix_cons.mp (show 0 :: short.octets <+: b :: rest from hcode)
      exact hrest htail.isInfix

/-- What is found is there. -/
theorem eq_of_find? {data : Octets} {k : Nat} {code : StartCode} (h : find? data = some (k, code)) :
    data = data.take k ++ (code.octets ++ data.drop (k + code.length)) := by
  induction data generalizing k with
  | nil => cases h
  | cons b rest ih =>
    rw [find?_cons] at h
    cases hat : at? (b :: rest) with
    | some c =>
      rw [hat] at h
      cases h
      have hpre : code.octets <+: b :: rest := by
        unfold at? at hat
        split at hat
        · next hshort => cases hat; exact List.isPrefixOf_iff_prefix.mp hshort
        · split at hat
          · next hlong => cases hat; exact List.isPrefixOf_iff_prefix.mp hlong
          · cases hat
      obtain ⟨after, hafter⟩ := hpre
      rw [← hafter, Nat.zero_add, ← length_octets, List.drop_left, List.take_zero, List.nil_append]
    | none =>
      simp only [hat, Option.map_eq_some_iff] at h
      obtain ⟨⟨j, c⟩, hj, hpair⟩ := h
      cases hpair
      have hrest := ih hj
      rw [Nat.add_comm 1 j, Nat.add_right_comm, List.take_succ_cons, List.drop_succ_cons,
        List.cons_append, ← hrest]

/-- No start code begins further to the front. -/
theorem le_length_of_find? {data front back : Octets} {k : Nat} {code c : StartCode}
    (h : find? data = some (k, code)) (hdata : data = front ++ (c.octets ++ back)) :
    k ≤ front.length := by
  induction front generalizing data k with
  | nil =>
    rw [hdata, List.nil_append, find?_octets] at h
    cases h
    exact Nat.le_refl 0
  | cons b front ih =>
    rw [hdata, List.cons_append, find?_cons] at h
    split at h
    · cases h
      exact Nat.zero_le _
    · obtain ⟨⟨j, c'⟩, hj, hpair⟩ := Option.map_eq_some_iff.mp h
      cases hpair
      have hle := ih hj rfl
      rw [List.length_cons]
      omega

/-- A zero right before a short start code would make it a long one. -/
theorem getLast?_take_of_find? {data : Octets} {k : Nat} (h : find? data = some (k, short)) :
    (data.take k).getLast? ≠ some 0 := by
  intro hlast
  obtain ⟨front, hfront⟩ := List.getLast?_eq_some_iff.mp hlast
  have hdata := eq_of_find? h
  rw [hfront, List.append_assoc] at hdata
  have hle := le_length_of_find? (c := .long) h hdata
  have hlen := congrArg List.length hfront
  have hk := lt_length_of_find? h
  rw [List.length_take, List.length_append, List.length_singleton] at hlen
  omega

end StartCode

namespace NalUnit

/-- A string cut at its start codes: `lead` comes before the first of them, and each of `pieces` is a start
code with what stands behind it up to the next, which may be nothing. -/
structure LaidOut (data lead : Octets) (pieces : List NalUnit) : Prop where
  whole : data = lead ++ join pieces
  /-- No start code begins in front of the first piece. -/
  first : ∀ front back, ∀ code : StartCode,
    data = front ++ (code.octets ++ back) → lead.length ≤ front.length
  clear : ∀ u ∈ pieces, ¬ StartCode.Within u.payload
  /-- No start code is the end of a longer one. -/
  apart : pieces.IsChain Apart

/-- The piece is no more than a start code. -/
def isBare (u : NalUnit) : Bool := u.payload.isEmpty

theorem ofPayload?_eq_filter (code : StartCode) (payload : Octets) :
    ofPayload? code payload = [⟨code, payload⟩].filter fun u => !u.isBare := by
  cases payload <;> rfl

/-- The pieces from a start code on. -/
theorem exists_pieces (code : StartCode) (body : Octets) :
    ∃ payload rest, body = payload ++ join rest ∧
      splitBody code body = (⟨code, payload⟩ :: rest : List NalUnit).filter (fun u => !u.isBare) ∧
      (∀ u ∈ (⟨code, payload⟩ :: rest : List NalUnit), ¬ StartCode.Within u.payload) ∧
      (⟨code, payload⟩ :: rest : List NalUnit).IsChain Apart := by
  fun_induction splitBody code body with
  | case1 code body h =>
    refine ⟨body, [], (List.append_nil body).symm, ofPayload?_eq_filter code body, ?_, .singleton _⟩
    exact List.forall_mem_singleton.mpr (StartCode.find?_eq_none_iff.mp h)
  | case2 code body k next h ih =>
    obtain ⟨payload, rest, hbody, hsplit, hclear, hchain⟩ := ih
    refine ⟨body.take k, ⟨next, payload⟩ :: rest, ?_, ?_, ?_, ?_⟩
    · rw [join_cons, ← hbody]
      exact StartCode.eq_of_find? h
    · rw [hsplit, ofPayload?_eq_filter, ← List.filter_append, List.singleton_append]
    · exact List.forall_mem_cons.mpr
        ⟨StartCode.find?_eq_none_iff.mp (StartCode.find?_take h), hclear⟩
    · refine List.isChain_cons_cons.mpr ⟨fun hshort => ?_, hchain⟩
      cases (show next = .short from hshort)
      exact StartCode.getLast?_take_of_find? h

theorem laidOut_nil {data : Octets} (h : StartCode.find? data = none) : LaidOut data data [] where
  whole := (List.append_nil data).symm
  first front back code hdata := by
    refine absurd ?_ (StartCode.find?_eq_none_iff.mp h)
    rw [hdata]
    exact (StartCode.short_within_octets code).trans ⟨front, back, (List.append_assoc _ _ _)⟩
  clear := by simp
  apart := .nil

/-- **Every string is laid out** as splitting finds it. -/
theorem exists_laidOut (data : Octets) :
    ∃ lead pieces, LaidOut data lead pieces ∧ split data = pieces.filter fun u => !u.isBare := by
  unfold split
  split
  · next h => exact ⟨data, [], laidOut_nil h, rfl⟩
  · next k code h =>
    obtain ⟨payload, rest, hbody, hsplit, hclear, hchain⟩ :=
      exists_pieces code (data.drop (k + code.length))
    refine ⟨data.take k, ⟨code, payload⟩ :: rest, ⟨?_, ?_, hclear, hchain⟩, hsplit⟩
    · rw [join_cons, ← hbody]
      exact StartCode.eq_of_find? h
    · intro front back c hdata
      exact (List.length_take_le k data).trans (StartCode.le_length_of_find? h hdata)

/-- **Splitting finds the units of a stream and nothing else.**  Any string is laid out as what comes before
its first start code and then start codes with their payloads; splitting gives those that have one, in their
order.  And units whose payloads hold no start code and let none be misread are found again when they are
written back to back. -/
theorem split_cuts :
    (∀ data, ∃ lead pieces, LaidOut data lead pieces ∧ split data = pieces.filter fun u => !u.isBare) ∧
    ∀ units : List NalUnit, (∀ u ∈ units, u.payload ≠ [] ∧ ¬ StartCode.Within u.payload) →
      units.IsChain Apart → split (join units) = units := by
  refine ⟨exists_laidOut, fun units hunits hapart => split_join (fun u hu => ?_) hapart⟩
  exact ⟨(hunits u hu).1, StartCode.find?_eq_none_iff.mpr (hunits u hu).2⟩

/-- Zeros in front of each start code, two start codes right behind one another, and one at the end. -/
def zeroRuns : Octets :=
  [0x12, 0, 0, 0, 0, 1, 0, 0, 1, 0x67, 0x42, 0, 0, 0, 0, 1, 0x65, 0, 0, 0, 1]

theorem split_zeroRuns : split zeroRuns = [⟨.short, [0x67, 0x42, 0]⟩, ⟨.long, [0x65]⟩] := by
  cbv

theorem split_cuts_zeroRuns :
    (∃ lead pieces, LaidOut zeroRuns lead pieces ∧
      [⟨.short, [0x67, 0x42, 0]⟩, ⟨.long, [0x65]⟩] = pieces.filter fun u => !u.isBare) ∧
    (∀ u ∈ [(⟨.short, [0x67, 0x42, 0]⟩ : NalUnit), ⟨.long, [0x65]⟩],
      u.payload ≠ [] ∧ ¬ StartCode.Within u.payload) ∧
    [(⟨.short, [0x67, 0x42, 0]⟩ : NalUnit), ⟨.long, [0x65]⟩].IsChain Apart ∧
    split [0, 0, 1, 0x67, 0x42, 0, 0, 0, 0, 1, 0x65]
      = [⟨.short, [0x67, 0x42, 0]⟩, ⟨.long, [0x65]⟩] := by
  have hunits : ∀ u ∈ [(⟨.short, [0x67, 0x42, 0]⟩ : NalUnit), ⟨.long, [0x65]⟩],
      u.payload ≠ [] ∧ ¬ StartCode.Within u.payload := by decide
  have hapart : [(⟨.short, [0x67, 0x42, 0]⟩ : NalUnit), ⟨.long, [0x65]⟩].IsChain Apart :=
    List.isChain_pair.mpr fun h => by cases h
  obtain ⟨lead, pieces, hlaid, hsplit⟩ := split_cuts.1 zeroRuns
  rw [split_zeroRuns] at hsplit
  exact ⟨⟨lead, pieces, hlaid, hsplit⟩, hunits, hapart, split_cuts.2 _ hunits hapart⟩

end NalUnit

end EncodedFeed
