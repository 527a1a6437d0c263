import EncodedFeed.Proofs.Words
import EncodedFeed.Timestamp
import Mathlib.Data.List.Forall2
import Mathlib.Order.Bounds.Basic

/-!
# Aligned times

An aligner puts off a candidate only as far as it must: a stamp is the least time after the last one that is not
before its candidate (`isLeast_align`).  So the stamps of a whole history are the least strictly increasing times,
each at least its candidate.  All this goes on as long as there is a time left after the last stamp; `Fits` says so
of a history, `fits_iff` reads it off the candidates, and `pairwise_iff_fits` says that the stamps go up exactly as
long as it holds.
-/

namespace EncodedFeed

theorem Stamped.time_lt (t : Stamped Int64) : t.time < 2 ^ 63 := Int64.toInt_lt t.value

namespace Aligner

/-! ### Sums that must fit -/

/-- There is a time after the last stamp. -/
def Open (a : Aligner) : Prop := ∀ last ∈ a.last, last.time + 1 < 2 ^ 63

variable {a : Aligner} {capture now : Int64}

theorem next?_of_lt {last : Stamped Int64} (h : last.time + 1 < 2 ^ 63) :
    next? last = some (last.map (· + 1)) := by
  have hlow : -2 ^ 63 ≤ last.time := Int64.le_toInt last.value
  rw [next?, signed?_of_fits (by omega) h, Option.map_some, Stamped.map, Stamped.time, Int64.ofInt_add,
    Int64.ofInt_toInt]
  rfl

theorem next?_of_le {last : Stamped Int64} (h : 2 ^ 63 ≤ last.time + 1) : next? last = none := by
  rw [next?, signed?_of_le h, Option.map_none]

theorem align?_of_open (h : a.Open) (capture now : Int64) :
    a.align? capture now = some (a.align capture now) := by
  unfold align? align
  cases hlast : a.last with
  | none => rfl
  | some last =>
    dsimp only
    split
    · rw [next?_of_lt (h last hlast), Option.map_some]
    · rfl

/-- At the end of time no candidate is later than the last stamp. -/
theorem align?_of_not_open (h : ¬a.Open) (capture now : Int64) : a.align? capture now = none := by
  obtain ⟨last, hlast, hend⟩ : ∃ last ∈ a.last, 2 ^ 63 ≤ last.time + 1 := by
    simpa only [Open, not_forall, Int.not_lt, exists_prop] using h
  have hle : (candidate capture now).value ≤ last.value := by
    have hlt := (candidate capture now).time_lt
    rw [Int64.le_iff_toInt_le]
    unfold Stamped.time at hend hlt
    omega
  unfold align?
  rw [Option.mem_def.mp hlast]
  dsimp only
  rw [if_pos hle, next?_of_le hend, Option.map_none]

theorem isSome_align? : (a.align? capture now).isSome ↔ a.Open := by
  by_cases h : a.Open
  · simp [align?_of_open h, h]
  · simp [align?_of_not_open h, h]

/-! ### One stamp -/

@[simp] theorem last_align (a : Aligner) (capture now : Int64) :
    (a.align capture now).2.last = some (a.align capture now).1 := rfl

theorem align_of_lt {last : Stamped Int64} (hlast : a.last = some last)
    (h : last.value < (candidate capture now).value) : (a.align capture now).1 = candidate capture now := by
  unfold align
  rw [hlast]
  exact if_neg (Int64.not_le.mpr h)

theorem align_of_le {last : Stamped Int64} (hlast : a.last = some last)
    (h : (candidate capture now).value ≤ last.value) : (a.align capture now).1 = last.map (· + 1) := by
  unfold align
  rw [hlast]
  exact if_pos h

theorem time_succ {last : Stamped Int64} (h : last.time + 1 < 2 ^ 63) :
    (last.map (· + 1)).time = last.time + 1 := by
  have hlow : -2 ^ 63 ≤ last.time := Int64.le_toInt last.value
  show (last.value + 1).toInt = last.value.toInt + 1
  unfold Stamped.time at h hlow
  rw [Int64.toInt_add, show (1 : Int64).toInt = 1 from rfl]
  exact Int.bmod_eq_of_le (by omega) (by omega)

/-- **A stamp is the least time** after the last one that is not before its candidate. -/
theorem isLeast_align (h : a.Open) (capture now : Int64) :
    IsLeast {t : Int | (∀ last ∈ a.last, last.time < t) ∧ (candidate capture now).time ≤ t}
      (a.align capture now).1.time := by
  cases hlast : a.last with
  | none =>
    have hown : (a.align capture now).1 = candidate capture now := by
      unfold align
      rw [hlast]
    rw [hown]
    exact ⟨⟨fun _ hmem => (nomatch hmem), le_rfl⟩, fun t ht => ht.2⟩
  | some last =>
    by_cases hle : (candidate capture now).value ≤ last.value
    · rw [align_of_le hlast hle, time_succ (h last hlast)]
      have hcandidate : (candidate capture now).time ≤ last.time := Int64.le_iff_toInt_le.mp hle
      refine ⟨⟨fun l hl => ?_, by omega⟩, fun t ht => ht.1 last rfl⟩
      cases hl
      omega
    · have hlt : last.value < (candidate capture now).value := Int64.not_le.mp hle
      rw [align_of_lt hlast hlt]
      refine ⟨⟨fun l hl => ?_, le_rfl⟩, fun t ht => ht.2⟩
      cases hl
      exact Int64.lt_iff_toInt_lt.mp hlt

/-! ### A history -/

/-- The candidates of some calls. -/
def wanted (calls : List (Int64 × Int64)) : List Int := calls.map fun c => (candidate c.1 c.2).time

/-- Times that go up, none of them before the one that was wanted. -/
structure Timely (wanted times : List Int) : Prop where
  increasing : times.Pairwise (· < ·)
  notBefore : List.Forall₂ (· ≤ ·) wanted times

/-- All sums fit that are made for some calls. -/
def Fits : Aligner → List (Int64 × Int64) → Prop
  | _, [] => True
  | a, (capture, now) :: rest => (a.align? capture now).isSome ∧ (a.align capture now).2.Fits rest

/-- After each candidate there is a time for every call that follows. -/
def HasRoom : List Int → Prop
  | [] => True
  | w :: rest => w + rest.length < 2 ^ 63 ∧ HasRoom rest

variable {calls : List (Int64 × Int64)}

theorem alignAll_cons (a : Aligner) (capture now : Int64) (rest : List (Int64 × Int64)) :
    a.alignAll ((capture, now) :: rest)
      = (a.align capture now).1 :: (a.align capture now).2.alignAll rest := rfl

theorem alignAll?_of_fits (h : a.Fits calls) : a.alignAll? calls = some (a.alignAll calls) := by
  induction calls generalizing a with
  | nil => rfl
  | cons c rest ih =>
    obtain ⟨capture, now⟩ := c
    obtain ⟨hopen, hrest⟩ := h
    rw [alignAll?, align?_of_open (isSome_align?.mp hopen), Option.bind_some, ih hrest, alignAll_cons]
    rfl

theorem alignAll?_of_not_fits (h : ¬a.Fits calls) : a.alignAll? calls = none := by
  induction calls generalizing a with
  | nil => exact absurd trivial h
  | cons c rest ih =>
    obtain ⟨capture, now⟩ := c
    by_cases hopen : a.Open
    · have hrest : ¬(a.align capture now).2.Fits rest := fun hfits => h ⟨isSome_align?.mpr hopen, hfits⟩
      rw [alignAll?, align?_of_open hopen, Option.bind_some]
      exact congrArg (Option.map _) (ih hrest)
    · rw [alignAll?, align?_of_not_open hopen, Option.bind_none]

theorem wanted_cons (capture now : Int64) (rest : List (Int64 × Int64)) :
    wanted ((capture, now) :: rest) = (candidate capture now).time :: wanted rest := rfl

theorem timely_alignAll (h : a.Fits calls) :
    (∀ last ∈ a.last, ∀ t ∈ (a.alignAll calls).map Stamped.time, last.time < t) ∧
      Timely (wanted calls) ((a.alignAll calls).map Stamped.time) := by
  induction calls generalizing a with
  | nil => exact ⟨fun _ _ _ ht => (nomatch ht), .nil, .nil⟩
  | cons c rest ih =>
    obtain ⟨capture, now⟩ := c
    obtain ⟨hopen, hrest⟩ := h
    obtain ⟨⟨hafter, hwanted⟩, -⟩ := isLeast_align (isSome_align?.mp hopen) capture now
    obtain ⟨hlater, htimely⟩ := ih hrest
    have hlater := hlater _ rfl
    refine ⟨fun last hlast t ht => ?_, List.pairwise_cons.mpr ⟨hlater, htimely.increasing⟩,
      .cons hwanted htimely.notBefore⟩
    rcases List.mem_cons.mp ht with rfl | ht
    · exact hafter last hlast
    · exact (hafter last hlast).trans (hlater t ht)

theorem alignAll_le (h : a.Fits calls) {others : List Int}
    (hafter : ∀ last ∈ a.last, ∀ t ∈ others, last.time < t) (hothers : Timely (wanted calls) others) :
    List.Forall₂ (· ≤ ·) ((a.alignAll calls).map Stamped.time) others := by
  induction calls generalizing a others with
  | nil =>
    cases hothers.notBefore
    exact .nil
  | cons c rest ih =>
    obtain ⟨capture, now⟩ := c
    obtain ⟨hopen, hrest⟩ := h
    obtain ⟨hincreasing, hbefore⟩ := hothers
    cases hbefore with
    | @cons _ u _ us hu hus =>
    obtain ⟨hfirst, hincreasing⟩ := List.pairwise_cons.mp hincreasing
    have hle : (a.align capture now).1.time ≤ u :=
      (isLeast_align (isSome_align?.mp hopen) capture now).2
        ⟨fun last hlast => hafter last hlast u List.mem_cons_self, hu⟩
    refine .cons hle (ih hrest (fun last hlast t ht => ?_) ⟨hincreasing, hus⟩)
    cases hlast
    exact lt_of_le_of_lt hle (hfirst t ht)

/-- **Which histories fit**, by their candidates. -/
theorem fits_iff : a.Fits calls ↔
    (∀ last ∈ a.last, last.time + calls.length < 2 ^ 63) ∧ HasRoom (wanted calls) := by
  induction calls generalizing a with
  | nil => exact ⟨fun _ => ⟨fun last _ => by simpa using last.time_lt, trivial⟩, fun _ => trivial⟩
  | cons c rest ih =>
    obtain ⟨capture, now⟩ := c
    have hlength : (wanted rest).length = rest.length := List.length_map _
    rw [Fits, wanted_cons, HasRoom, isSome_align?, ih, last_align, hlength, List.length_cons]
    push_cast
    constructor
    · rintro ⟨hopen, hlast, hroom⟩
      have hstamp := hlast _ rfl
      obtain ⟨⟨hafter, hwanted⟩, -⟩ := isLeast_align hopen capture now
      refine ⟨fun last hin => ?_, by omega, hroom⟩
      have hlt := hafter last hin
      omega
    · rintro ⟨hlast, hfirst, hroom⟩
      have hopen : a.Open := fun last hin => by
        have hlt := hlast last hin
        omega
      refine ⟨hopen, fun last hin => ?_, hroom⟩
      cases hin
      -- the last time from which all that follow can still be counted is late enough
      have hle : (a.align capture now).1.time ≤ 2 ^ 63 - 1 - rest.length := by
        apply (isLeast_align hopen capture now).2
        refine ⟨fun l hl => ?_, by omega⟩
        have hlt := hlast l hl
        omega
      omega

/-- Sums fit as long as no stamp but the last is at the end of time. -/
theorem fits_of_ne_max
    (h : ∀ t ∈ (a.last.toList ++ a.alignAll calls).dropLast, t.value ≠ Int64.maxValue) : a.Fits calls := by
  induction calls generalizing a with
  | nil => trivial
  | cons c rest ih =>
    obtain ⟨capture, now⟩ := c
    have hsplit : (a.last.toList ++ a.alignAll ((capture, now) :: rest)).dropLast
        = a.last.toList ++ ((a.align capture now).1 :: (a.align capture now).2.alignAll rest).dropLast :=
      List.dropLast_append_of_ne_nil (List.cons_ne_nil _ _)
    rw [hsplit] at h
    have hopen : a.Open := fun last hlast => by
      have hne := h last (List.mem_append_left _ (Option.mem_toList.mpr hlast))
      have hlt := last.time_lt
      have hmax : last.time ≠ 2 ^ 63 - 1 := fun heq => hne (Int64.toInt_inj.mp heq)
      omega
    exact ⟨isSome_align?.mpr hopen, ih fun t ht => h t (List.mem_append_right _ ht)⟩

/-- **Stamps go up exactly as long as sums fit**: past the end of time there is nothing later. -/
theorem pairwise_iff_fits :
    (a.last.toList ++ a.alignAll calls).Pairwise (fun t u => t.time < u.time) ↔ a.Fits calls := by
  constructor
  · intro h
    induction calls generalizing a with
    | nil => trivial
    | cons c rest ih =>
      obtain ⟨capture, now⟩ := c
      rw [alignAll_cons] at h
      obtain ⟨-, hrest, hafter⟩ := List.pairwise_append.mp h
      have hopen : a.Open := fun last hlast => by
        have hlt := hafter last (Option.mem_toList.mpr hlast) _ List.mem_cons_self
        have hend := (a.align capture now).1.time_lt
        omega
      exact ⟨isSome_align?.mpr hopen, ih hrest⟩
  · intro h
    obtain ⟨hafter, hincreasing, -⟩ := timely_alignAll h
    refine List.pairwise_append.mpr ⟨?_, List.pairwise_map.mp hincreasing, fun last hlast t ht => ?_⟩
    · cases a.last <;> simp
    · exact hafter last (Option.mem_toList.mp hlast) _ (List.mem_map_of_mem ht)

theorem getElem?_alignAll {i : Nat} {t : Stamped Int64} {c : Int64 × Int64}
    (ht : (a.alignAll calls)[i]? = some t) (hc : calls[i + 1]? = some c)
    (hlt : t.value < (candidate c.1 c.2).value) :
    (a.alignAll calls)[i + 1]? = some (candidate c.1 c.2) := by
  induction calls generalizing a i with
  | nil => cases hc
  | cons first rest ih =>
    cases i with
    | zero =>
      cases ht
      cases rest with
      | nil => cases hc
      | cons second rest =>
        cases hc
        exact congrArg some (align_of_lt rfl hlt)
    | succ i => exact ih ht hc

/-- **The stamps of a history**, as long as none but the last is at the end of time: they go up, none is before
its candidate, and no other such times are earlier anywhere.  The first candidate, and each that is later than the
stamp before it, is the stamp itself. -/
theorem stamps_least (calls : List (Int64 × Int64))
    (h : ∀ t ∈ (alignAll {} calls).dropLast, t.value ≠ Int64.maxValue) :
    Timely (wanted calls) ((alignAll {} calls).map Stamped.time) ∧
    (∀ others, Timely (wanted calls) others →
      List.Forall₂ (· ≤ ·) ((alignAll {} calls).map Stamped.time) others) ∧
    (alignAll {} calls).head? = calls.head?.map (fun c => candidate c.1 c.2) ∧
    ∀ i t c, (alignAll {} calls)[i]? = some t → calls[i + 1]? = some c →
      t.value < (candidate c.1 c.2).value → (alignAll {} calls)[i + 1]? = some (candidate c.1 c.2) := by
  have hfits : Fits {} calls := fits_of_ne_max h
  refine ⟨(timely_alignAll hfits).2, fun others hothers => ?_, ?_, fun i t c => getElem?_alignAll⟩
  · exact alignAll_le hfits (fun _ hlast => (nomatch hlast)) hothers
  · cases calls <;> rfl

/-- Capture times that repeat, go back, are missing or lie far ahead, beside a clock that is behind. -/
def unsteady : List (Int64 × Int64) :=
  [(1000, 7), (1000, 7), (500, 7), (0, 900), (-3, 5000), (0x7ffffffffffffffe, 5000), (6000, 5000)]

/-- What becomes of them; the last stamp is the end of time. -/
def steadied : List Int := [1000, 1001, 1002, 1003, 5000, 0x7ffffffffffffffe, 0x7fffffffffffffff]

theorem stamps_least_unsteady :
    (∀ t ∈ (alignAll {} unsteady).dropLast, t.value ≠ Int64.maxValue) ∧
    (alignAll {} unsteady).map Stamped.time = steadied ∧
    Timely (wanted unsteady) steadied ∧
    (∀ others, Timely (wanted unsteady) others → List.Forall₂ (· ≤ ·) steadied others) ∧
    (alignAll {} unsteady)[4]? = some ⟨5000, true⟩ := by
  have hbefore : ∀ t ∈ (alignAll {} unsteady).dropLast, t.value ≠ Int64.maxValue := by decide
  have htimes : (alignAll {} unsteady).map Stamped.time = steadied := by decide
  obtain ⟨htimely, hleast, -, hpassed⟩ := stamps_least unsteady hbefore
  rw [htimes] at htimely hleast
  have hfifth := hpassed 3 ⟨1003, false⟩ (-3, 5000) (by decide) rfl (by decide)
  exact ⟨hbefore, htimes, htimely, hleast, hfifth⟩

end Aligner

end EncodedFeed
