import EncodedFeed.AnnexB.AccessUnit

/-!
# Grouping

Grouping cuts a stream of NAL units just before each unit that opens an access unit behind a slice.  So it
gives regular groups, and regular groups put one after the other are found again.
-/

namespace EncodedFeed.AccessUnit

/-- After its first slice nothing in the access unit opens the next. -/
def Unbroken (unit : AccessUnit) : Prop :=
  ∀ before u after, unit = before ++ u :: after → hasSlice before = true → opensNext u = false

/-- The access unit begins with a unit that can open one. -/
def Opens (unit : AccessUnit) : Prop := ∃ u rest, unit = u :: rest ∧ opensNext u = true

/-- Access units as grouping makes them: all but the last have a slice, all but the first begin with what
opens them, and nowhere has a cut been missed. -/
structure Regular (groups : List AccessUnit) : Prop where
  nonempty : ∀ g ∈ groups, g ≠ []
  unbroken : ∀ g ∈ groups, Unbroken g
  sliced : ∀ g ∈ groups.dropLast, hasSlice g = true
  opens : ∀ g ∈ groups.tail, Opens g

theorem Regular.of_cons {g : AccessUnit} {groups : List AccessUnit} (h : Regular (g :: groups)) :
    Regular groups where
  nonempty g' hg := h.nonempty g' (List.mem_cons_of_mem _ hg)
  unbroken g' hg := h.unbroken g' (List.mem_cons_of_mem _ hg)
  sliced g' hg := h.sliced g' <| by
    cases groups with
    | nil => cases hg
    | cons x rest => exact List.mem_cons_of_mem _ hg
  opens g' hg := h.opens g' (List.mem_of_mem_tail hg)

/-- An access unit without a slice is the last. -/
theorem Regular.eq_nil_of_not_hasSlice {g : AccessUnit} {groups : List AccessUnit}
    (h : Regular (g :: groups)) (hg : hasSlice g = false) : groups = [] := by
  cases groups with
  | nil => rfl
  | cons x rest =>
    have hslice := h.sliced g List.mem_cons_self
    rw [hg] at hslice
    cases hslice

theorem hasSlice_append (a b : AccessUnit) : hasSlice (a ++ b) = (hasSlice a || hasSlice b) :=
  List.any_append

theorem unbroken_of_not_hasSlice {unit : AccessUnit} (h : hasSlice unit = false) : Unbroken unit := by
  intro before u after heq hbefore
  rw [heq, hasSlice_append, hbefore] at h
  cases h

theorem unbroken_singleton (u : NalUnit) : Unbroken [u] := by
  intro before v after heq hbefore
  cases before with
  | nil => cases hbefore
  | cons w before => simp at heq

/-- An access unit goes on with a unit that does not open the next. -/
theorem Unbroken.snoc {unit : AccessUnit} (h : Unbroken unit) {u : NalUnit}
    (hu : (hasSlice unit && opensNext u) = false) : Unbroken (unit ++ [u]) := by
  intro before v after heq hbefore
  -- the unit in question is the new last one, or stood there before
  rcases List.eq_nil_or_concat after with rfl | ⟨after, w, rfl⟩
  · obtain ⟨rfl, hv⟩ := List.append_inj' heq rfl
    cases hv
    rwa [hbefore, Bool.true_and] at hu
  · rw [List.concat_eq_append, ← List.cons_append, ← List.append_assoc] at heq
    obtain ⟨rfl, -⟩ := List.append_inj' heq rfl
    exact h before v after rfl hbefore

/-- Units in front that have no slice make no cut. -/
theorem Unbroken.prepend {lead unit : AccessUnit} (h : Unbroken unit) (hlead : hasSlice lead = false) :
    Unbroken (lead ++ unit) := by
  intro before v after heq hbefore
  rcases List.append_eq_append_iff.mp heq with ⟨mid, rfl, htail⟩ | ⟨mid, rfl, htail⟩
  · rw [hasSlice_append, hlead, Bool.false_or] at hbefore
    exact h mid v after htail hbefore
  · rw [hasSlice_append, hbefore] at hlead
    cases hlead

/-! ### Groups are found again -/

theorem groupFrom_append {current g : AccessUnit} (h : Unbroken (current ++ g)) (rest : List NalUnit) :
    groupFrom current (g ++ rest) = groupFrom (current ++ g) rest := by
  induction g generalizing current with
  | nil => rw [List.append_nil, List.nil_append]
  | cons u g ih =>
    have hstay : (hasSlice current && opensNext u) = false := by
      cases hcurrent : hasSlice current with
      | false => rfl
      | true => exact h current u g rfl hcurrent
    have happ : current ++ u :: g = current ++ [u] ++ g := List.append_cons current u g
    rw [List.cons_append, groupFrom, hstay, if_neg (by decide), happ]
    exact ih (by rwa [happ] at h)

theorem groupFrom_flatten {g : AccessUnit} {groups : List AccessUnit} (h : Regular (g :: groups)) :
    groupFrom g groups.flatten = g :: groups := by
  induction groups generalizing g with
  | nil => rw [List.flatten_nil, groupFrom, if_neg (h.nonempty g List.mem_cons_self)]
  | cons g' groups ih =>
    have hslice : hasSlice g = true := h.sliced g List.mem_cons_self
    -- the cut is made here, and the rest of the next group follows without one
    obtain ⟨u, rest, rfl, hopens⟩ := h.opens g' List.mem_cons_self
    have hunbroken : Unbroken ([u] ++ rest) := h.unbroken (u :: rest) (by simp)
    rw [List.flatten_cons, List.cons_append, groupFrom, hslice, hopens,
      if_pos (by decide), groupFrom_append hunbroken]
    exact congrArg (g :: ·) (ih h.of_cons)

/-- **Regular groups are found again** in the units put one after the other. -/
theorem group_flatten {groups : List AccessUnit} (h : Regular groups) : group groups.flatten = groups := by
  cases groups with
  | nil => rfl
  | cons g groups =>
    have hunbroken : Unbroken ([] ++ g) := h.unbroken g List.mem_cons_self
    rw [group, List.flatten_cons, groupFrom_append hunbroken]
    exact groupFrom_flatten h

/-! ### Groups are regular -/

theorem flatten_groupFrom (units : List NalUnit) (current : AccessUnit) :
    (groupFrom current units).flatten = current ++ units := by
  induction units generalizing current with
  | nil =>
    rw [groupFrom, List.append_nil]
    split
    · next h => rw [h]; rfl
    · exact List.append_nil current
  | cons u rest ih =>
    rw [groupFrom]
    split
    · rw [List.flatten_cons, ih, List.singleton_append]
    · rw [ih, ← List.append_cons]

/-- Nothing is lost and nothing is moved. -/
theorem flatten_group (units : List NalUnit) : (group units).flatten = units :=
  flatten_groupFrom units []

/-- The first group continues what already belongs together. -/
theorem groupFrom_eq_cons (units : List NalUnit) {current : AccessUnit} (h : current ≠ []) :
    ∃ tail groups, groupFrom current units = (current ++ tail) :: groups := by
  induction units generalizing current with
  | nil => exact ⟨[], [], by rw [groupFrom, if_neg h, List.append_nil]⟩
  | cons u rest ih =>
    rw [groupFrom]
    split
    · exact ⟨[], _, by rw [List.append_nil]⟩
    · obtain ⟨tail, groups, heq⟩ := ih (List.append_ne_nil_of_right_ne_nil current (List.cons_ne_nil u []))
      exact ⟨u :: tail, groups, by rw [heq, ← List.append_cons]⟩

theorem regular_groupFrom (units : List NalUnit) {current : AccessUnit} (h : Unbroken current) :
    Regular (groupFrom current units) := by
  induction units generalizing current with
  | nil =>
    rw [groupFrom]
    split
    · exact ⟨by simp, by simp, by simp, by simp⟩
    · next hne => exact ⟨by simpa using hne, by simpa using h, by simp, by simp⟩
  | cons u rest ih =>
    rw [groupFrom]
    split
    · next hcut =>
      obtain ⟨hslice, hopens⟩ := Bool.and_eq_true_iff.mp hcut
      have hrest := ih (unbroken_singleton u)
      obtain ⟨tail, groups, heq⟩ := groupFrom_eq_cons rest (List.cons_ne_nil u [])
      rw [heq] at hrest ⊢
      have hne : current ≠ [] := fun hnil => by rw [hnil] at hslice; cases hslice
      refine ⟨?_, ?_, ?_, ?_⟩
      · exact List.forall_mem_cons.mpr ⟨hne, hrest.nonempty⟩
      · exact List.forall_mem_cons.mpr ⟨h, hrest.unbroken⟩
      · rw [List.dropLast_cons_cons]
        exact List.forall_mem_cons.mpr ⟨hslice, hrest.sliced⟩
      · exact List.forall_mem_cons.mpr ⟨⟨u, tail, rfl, hopens⟩, hrest.opens⟩
    · next hstay => exact ih (h.snoc (Bool.eq_false_iff.mpr hstay))

/-- **Grouping gives regular groups.** -/
theorem regular_group (units : List NalUnit) : Regular (group units) :=
  regular_groupFrom units (unbroken_of_not_hasSlice rfl)

/-! ### The one way to cut a stream -/

/-- A delimiter, a parameter set, supplemental information, or the slice that a picture begins with. -/
def CanOpen (u : NalUnit) : Prop :=
  u.type ∈ [NalUnit.delimiterType, NalUnit.spsType, NalUnit.ppsType, NalUnit.seiType] ∨
    u.type ∈ [NalUnit.sliceType, NalUnit.idrType] ∧ u.startsPicture = true

/-- The stream is cut into access units: each but the last has a slice, each but the first begins with what
can open one, and behind a slice nothing that can is left within its access unit. -/
structure Cut (units : List NalUnit) (groups : List AccessUnit) : Prop where
  whole : groups.flatten = units
  nonempty : ∀ g ∈ groups, g ≠ []
  sliced : ∀ g ∈ groups.dropLast, ∃ u ∈ g, u.isSlice = true
  closed : ∀ g ∈ groups, g.Pairwise fun s u => s.isSlice = true → ¬ CanOpen u
  opened : ∀ g ∈ groups.tail, ∃ u ∈ g.head?, CanOpen u

theorem canOpen_iff {u : NalUnit} : CanOpen u ↔ opensNext u = true := by
  simp only [CanOpen, opensNext, NalUnit.isSlice, List.mem_cons, List.not_mem_nil, or_false,
    Bool.or_eq_true, Bool.and_eq_true, beq_iff_eq, or_assoc]

theorem unbroken_iff_pairwise {unit : AccessUnit} :
    Unbroken unit ↔ unit.Pairwise fun s u => s.isSlice = true → ¬ CanOpen u := by
  constructor
  · intro h
    rw [List.pairwise_iff_getElem]
    intro i j hi hj hij hslice hopen
    -- the later unit, with all that stands before it
    have hsplit : unit = unit.take j ++ unit[j] :: unit.drop (j + 1) := by
      rw [← List.drop_eq_getElem_cons hj, List.take_append_drop]
    have hbefore : hasSlice (unit.take j) = true :=
      List.any_eq_true.mpr ⟨unit[i], List.mem_take_iff_getElem.mpr ⟨i, by omega, rfl⟩, hslice⟩
    have hstay := h _ _ _ hsplit hbefore
    rw [canOpen_iff.mp hopen] at hstay
    cases hstay
  · intro h before u after heq hbefore
    obtain ⟨s, hs, hslice⟩ := List.any_eq_true.mp hbefore
    rw [heq, List.pairwise_append] at h
    have hclosed := h.2.2 s hs u List.mem_cons_self hslice
    rwa [canOpen_iff, Bool.not_eq_true] at hclosed

theorem opens_iff {unit : AccessUnit} : Opens unit ↔ ∃ u ∈ unit.head?, CanOpen u := by
  constructor
  · rintro ⟨u, rest, rfl, hopens⟩
    exact ⟨u, rfl, canOpen_iff.mpr hopens⟩
  · rintro ⟨u, hu, hopen⟩
    obtain ⟨rest, hunit⟩ := List.head?_eq_some_iff.mp hu
    exact ⟨u, rest, hunit, canOpen_iff.mp hopen⟩

theorem cut_iff {units : List NalUnit} {groups : List AccessUnit} :
    Cut units groups ↔ groups.flatten = units ∧ Regular groups := by
  constructor
  · intro h
    refine ⟨h.whole, h.nonempty, fun g hg => ?_, fun g hg => ?_, fun g hg => ?_⟩
    · exact unbroken_iff_pairwise.mpr (h.closed g hg)
    · exact List.any_eq_true.mpr (h.sliced g hg)
    · exact opens_iff.mpr (h.opened g hg)
  · rintro ⟨hwhole, h⟩
    refine ⟨hwhole, h.nonempty, fun g hg => ?_, fun g hg => ?_, fun g hg => ?_⟩
    · exact List.any_eq_true.mp (h.sliced g hg)
    · exact unbroken_iff_pairwise.mp (h.unbroken g hg)
    · exact opens_iff.mp (h.opens g hg)

/-- **There is one way to cut a stream into access units**, and grouping finds it. -/
theorem group_eq_iff_cut {units : List NalUnit} {groups : List AccessUnit} :
    group units = groups ↔ Cut units groups := by
  rw [cut_iff]
  constructor
  · rintro rfl
    exact ⟨flatten_group units, regular_group units⟩
  · rintro ⟨rfl, h⟩
    exact group_flatten h

/-- The second slice of a picture and a unit of another type stay with it; a parameter set opens the next. -/
example :
    group [⟨.long, [0x67]⟩, ⟨.short, [0x65, 0x88]⟩, ⟨.short, [0x65, 0x08]⟩, ⟨.short, [0x0c]⟩,
      ⟨.long, [0x68]⟩, ⟨.short, [0x41, 0x9a]⟩]
    = [[⟨.long, [0x67]⟩, ⟨.short, [0x65, 0x88]⟩, ⟨.short, [0x65, 0x08]⟩, ⟨.short, [0x0c]⟩],
      [⟨.long, [0x68]⟩, ⟨.short, [0x41, 0x9a]⟩]] := by
  decide

end EncodedFeed.AccessUnit
