import EncodedFeed.Proofs.Ivf.RoundTrip

/-!
# The layout of a file

Behind its header any string of octets is laid out in one way as whole records and a remainder in which the next
record does not fit; reading finds this layout.  A reader that fetches every octet by its position and stops as
soon as one is not there reads the same: no position is ever outside the file.
-/

namespace EncodedFeed

namespace Octets

/-- The number in the `w` octets from a position on, if they are all there. -/
def field? (data : Octets) (pos w : Nat) : Option Nat :=
  if pos + w ≤ data.length then some (field data pos w) else none

/-- The octets from one position up to another, if they are all there. -/
def slice? (data : Octets) (start stop : Nat) : Option Octets :=
  if start ≤ stop ∧ stop ≤ data.length then some ((data.drop start).take (stop - start)) else none

theorem field?_of_le {data : Octets} {pos w : Nat} (h : pos + w ≤ data.length) :
    field? data pos w = some (field data pos w) := if_pos h

theorem slice?_of_le {data : Octets} {start stop : Nat} (h : start ≤ stop) (hstop : stop ≤ data.length) :
    slice? data start stop = some ((data.drop start).take (stop - start)) := if_pos ⟨h, hstop⟩

theorem field_drop (data : Octets) (start pos w : Nat) :
    field (data.drop start) pos w = field data (start + pos) w := by
  rw [field, field, List.drop_drop]

/-- A number is written as it was read. -/
theorem little_ofLittle (bs : Octets) : little bs.length (ofLittle bs) = bs := by
  induction bs with
  | nil => rfl
  | cons b bs ih =>
    have hb : b.toNat < 256 := b.toNat_lt
    have hhead : UInt8.ofNat (b.toNat + 256 * ofLittle bs) = b := by
      refine UInt8.toNat_inj.mp ?_
      rw [UInt8.toNat_ofNat']
      omega
    have htail : (b.toNat + 256 * ofLittle bs) / 256 = ofLittle bs := by omega
    rw [List.length_cons, ofLittle, little, hhead, htail, ih]

theorem little_field {data : Octets} {pos w : Nat} (h : pos + w ≤ data.length) :
    little w (field data pos w) = (data.drop pos).take w := by
  have hlen : ((data.drop pos).take w).length = w := by
    rw [List.length_take, List.length_drop]
    omega
  have hback := little_ofLittle ((data.drop pos).take w)
  rwa [hlen] at hback

theorem field_lt {data : Octets} {pos w : Nat} (h : pos + w ≤ data.length) : field data pos w < range w := by
  have hlen : ((data.drop pos).take w).length = w := by
    rw [List.length_take, List.length_drop]
    omega
  have hlt := ofLittle_lt ((data.drop pos).take w)
  rwa [hlen] at hlt

end Octets

namespace Ivf

open Octets

/-! ### Whole records and what is left -/

/-- Octets are whole records, one behind the other, and a tail that is shorter than the header of a record or
begins with one that claims more than there is. -/
structure Layout (data : Octets) (all : List Record) (tail : Octets) : Prop where
  whole : data = all.flatMap Record.octets ++ tail
  fitting : Fitting all
  last : tail.length < recordHeaderLength ∨ (tail.drop recordHeaderLength).length < field tail 0 4

/-- The data of records are slices of a file, one behind the other from a position on. -/
inductive Stand (file : Octets) : Nat → List Record → Prop
  | nil (pos : Nat) : Stand file pos []
  | cons {pos start : Nat} {r : Record} {rest : List Record} (behind : pos ≤ start)
      (within : start + r.data.length ≤ file.length)
      (slice : (file.drop start).take r.data.length = r.data)
      (next : Stand file (start + r.data.length) rest) : Stand file pos (r :: rest)

/-- The record at the beginning of octets that hold the whole of one. -/
def firstOf (data : Octets) : Record :=
  ⟨UInt64.ofNat (field data 4 8), (data.drop recordHeaderLength).take (field data 0 4)⟩

theorem length_firstOf {data : Octets} (h : field data 0 4 ≤ (data.drop recordHeaderLength).length) :
    (firstOf data).data.length = field data 0 4 := List.length_take_of_le h

/-- What was read as a record is that record's octets. -/
theorem octets_firstOf {data : Octets} (hlen : recordHeaderLength ≤ data.length)
    (hbody : field data 0 4 ≤ (data.drop recordHeaderLength).length) :
    (firstOf data).octets ++ (data.drop recordHeaderLength).drop (field data 0 4) = data := by
  have h12 : recordHeaderLength = 12 := rfl
  have hsize : little 4 (field data 0 4) = data.take 4 := by
    rw [little_field (by omega), List.drop_zero]
  have hstamp : little 8 (UInt64.ofNat (field data 4 8)).toNat = (data.drop 4).take 8 := by
    have hlt : field data 4 8 < 2 ^ 64 := field_lt (by omega)
    rw [UInt64.toNat_ofNat_of_lt' hlt, little_field (by omega)]
  have hdata : (firstOf data).octets
      = data.take 4 ++ (data.drop 4).take 8 ++ (data.drop recordHeaderLength).take (field data 0 4) := by
    rw [Record.octets, record, length_firstOf hbody, hsize]
    exact congrArg (fun o => data.take 4 ++ o ++ _) hstamp
  have hheader : data.take 4 ++ (data.drop 4).take 8 = data.take recordHeaderLength := List.take_add.symm
  rw [hdata, hheader, List.append_assoc, List.take_append_drop, List.take_append_drop]

/-- Reading finds a layout, and a cut just if the tail has the header of a record. -/
theorem exists_layout (pos : Nat) (data : Octets) :
    ∃ tail, Layout data (records pos data).1 tail ∧
      ((records pos data).2.isSome = true ↔ recordHeaderLength ≤ tail.length) := by
  fun_induction records pos data with
  | case1 pos data hlen size body hbody rest cut hrec ih =>
    obtain ⟨tail, h, hcut⟩ := ih
    rw [hasLength_iff] at hlen hbody
    rw [hrec] at h hcut
    refine ⟨tail, ⟨?_, ?_, h.last⟩, hcut⟩
    · show data = (firstOf data :: rest).flatMap Record.octets ++ tail
      rw [List.flatMap_cons, List.append_assoc, ← h.whole, octets_firstOf hlen hbody]
    · refine List.forall_mem_cons.mpr ⟨?_, h.fitting⟩
      have hlt : field data 0 4 < range 4 := field_lt (Nat.le_trans (by decide) hlen)
      rw [← length_firstOf hbody] at hlt
      exact hlt
  | case2 pos data hlen size body hbody =>
    rw [hasLength_iff] at hlen hbody
    refine ⟨data, ⟨rfl, by simp [Fitting], .inr (Nat.lt_of_not_le hbody)⟩, ?_⟩
    exact iff_of_true rfl hlen
  | case3 pos data hlen =>
    rw [hasLength_iff] at hlen
    refine ⟨data, ⟨rfl, by simp [Fitting], .inl (Nat.lt_of_not_le hlen)⟩, ?_⟩
    exact iff_of_false (by simp) hlen

/-- **Any layout is the one that reading finds.** -/
theorem Layout.eq_records {data tail : Octets} {all : List Record} (h : Layout data all tail) (pos : Nat) :
    all = (records pos data).1 := by
  obtain ⟨rfl, hfit, hlast⟩ := h
  induction all generalizing pos with
  | nil =>
    rw [List.flatMap_nil, List.nil_append]
    rcases hlast with hshort | hcut
    · rw [records_short hshort]
    · by_cases hlen : hasLength recordHeaderLength tail = true
      · have hbody : ¬ hasLength (field tail 0 4) (tail.drop recordHeaderLength) = true := by
          rw [hasLength_iff]
          omega
        rw [records, if_pos hlen]
        simp only [if_neg hbody]
      · rw [records, if_neg hlen]
  | cons r rest ih =>
    rw [List.flatMap_cons, List.append_assoc, records_octets (hfit r List.mem_cons_self)]
    exact congrArg (r :: ·) (ih _ fun r' hr' => hfit r' (List.mem_cons_of_mem _ hr'))

theorem Layout.unique {data tail tail' : Octets} {all all' : List Record} (h : Layout data all tail)
    (h' : Layout data all' tail') : all' = all ∧ tail' = tail := by
  have hall : all' = all := (h'.eq_records 0).trans (h.eq_records 0).symm
  subst hall
  exact ⟨rfl, List.append_cancel_left (h'.whole.symm.trans h.whole)⟩

theorem Stand.mono {file : Octets} {pos pos' : Nat} {all : List Record} (h : Stand file pos all)
    (hpos : pos' ≤ pos) : Stand file pos' all := by
  cases h with
  | nil => exact .nil pos'
  | cons hbehind hwithin hslice hnext => exact .cons (Nat.le_trans hpos hbehind) hwithin hslice hnext

/-- The records of a layout that hold data stand where they were laid. -/
theorem Layout.stand {file tail : Octets} {all : List Record} {pos : Nat}
    (h : Layout (file.drop pos) all tail) : Stand file pos (all.filter fun r => r.data ≠ []) := by
  obtain ⟨hwhole, hfit, hlast⟩ := h
  induction all generalizing pos with
  | nil => exact .nil pos
  | cons r rest ih =>
    rw [List.flatMap_cons, List.append_assoc] at hwhole
    have hlen := congrArg List.length hwhole
    rw [List.length_drop, List.length_append, length_octets] at hlen
    have h12 : recordHeaderLength = 12 := rfl
    have hbody : file.drop (pos + recordHeaderLength) = r.data ++ (rest.flatMap Record.octets ++ tail) := by
      rw [← List.drop_drop, hwhole, drop_octets]
    have hbehind : file.drop (pos + recordHeaderLength + r.data.length)
        = rest.flatMap Record.octets ++ tail := by
      rw [← List.drop_drop, hbody, List.drop_left]
    have hnext := ih hbehind fun r' hr' => hfit r' (List.mem_cons_of_mem _ hr')
    by_cases hempty : r.data = []
    · rw [List.filter_cons_of_neg (by simp [hempty])]
      exact hnext.mono (by omega)
    · rw [List.filter_cons_of_pos (by simp [hempty])]
      exact .cons (Nat.le_add_right _ _) (by omega) (by rw [hbody, List.take_left]) hnext

/-! ### Fetching by position -/

/-- The records of a file from a position on, every octet fetched by its position. -/
def fetchRecords? (file : Octets) (pos : Nat) : Option (List Record × Option Nat) :=
  if pos + recordHeaderLength ≤ file.length then do
    let size ← field? file pos 4
    let timestamp ← field? file (pos + 4) 8
    let start := pos + recordHeaderLength
    if start + size ≤ file.length then
      let data ← slice? file start (start + size)
      let (rest, cut) ← fetchRecords? file (start + size)
      some (⟨UInt64.ofNat timestamp, data⟩ :: rest, cut)
    else some ([], some pos)
  else some ([], none)
termination_by file.length - pos
decreasing_by
  have : recordHeaderLength = 12 := rfl
  omega

/-- A whole file, every octet behind the signature fetched by its position. -/
def fetch? (file : Octets) : Option (Except Fault File) :=
  if !hasSignature file then some (.error .missingSignature)
  else if file.length < headerLength then some (.error (.headerTruncated file.length))
  else do
    let length ← field? file 6 2
    let fourcc ← slice? file 8 12
    match Codec.ofFourcc? fourcc with
    | none => some (.error (.unsupported fourcc))
    | some codec =>
      let width ← field? file 12 2
      let height ← field? file 14 2
      let rate ← field? file 16 4
      let scale ← field? file 20 4
      let frameCount ← field? file 24 4
      let (all, cutAt) ← fetchRecords? file (max length headerLength)
      let header : Header :=
        ⟨codec, UInt16.ofNat width, UInt16.ofNat height, UInt32.ofNat rate, UInt32.ofNat scale,
          UInt32.ofNat frameCount⟩
      some (.ok ⟨header, all.filter fun r => r.data ≠ [], cutAt⟩)

/-- No position of a record is outside the file. -/
theorem fetchRecords?_eq (file : Octets) (pos : Nat) :
    fetchRecords? file pos = some (records pos (file.drop pos)) := by
  fun_induction fetchRecords? file pos with
  | case1 pos hlen ih =>
    have h12 : recordHeaderLength = 12 := rfl
    have hsize : field? file pos 4 = some (field file pos 4) := field?_of_le (by omega)
    have hstamp : field? file (pos + 4) 8 = some (field file (pos + 4) 8) := field?_of_le (by omega)
    have hhere : hasLength recordHeaderLength (file.drop pos) = true := by
      rw [hasLength_iff, List.length_drop]
      omega
    rw [records, if_pos hhere]
    simp only [hsize, hstamp, Option.bind_eq_bind, Option.bind_some, field_drop, Nat.add_zero, List.drop_drop]
    by_cases hbody : pos + recordHeaderLength + field file pos 4 ≤ file.length
    · have hthere : hasLength (field file pos 4) (file.drop (pos + recordHeaderLength)) = true := by
        rw [hasLength_iff, List.length_drop]
        omega
      rw [if_pos hbody, if_pos hthere, slice?_of_le (Nat.le_add_right _ _) hbody, ih _ hbody,
        Nat.add_sub_cancel_left]
      rfl
    · have hthere : ¬ hasLength (field file pos 4) (file.drop (pos + recordHeaderLength)) = true := by
        rw [hasLength_iff, List.length_drop]
        omega
      rw [if_neg hbody, if_neg hthere]
  | case2 pos hlen =>
    have hhere : ¬ hasLength recordHeaderLength (file.drop pos) = true := by
      rw [hasLength_iff, List.length_drop]
      have h12 : recordHeaderLength = 12 := rfl
      omega
    rw [records, if_neg hhere]

/-- **No position is outside the file**, and what is fetched is what is read. -/
theorem fetch?_eq (file : Octets) : fetch? file = some (read file) := by
  unfold fetch? read
  split
  · rfl
  · split
    · rfl
    · next hlen =>
      have h32 : headerLength = 32 := rfl
      have hfield {pos w : Nat} (h : pos + w ≤ 32) : field? file pos w = some (field file pos w) :=
        field?_of_le (by omega)
      have hfourcc : slice? file 8 12 = some ((file.drop 8).take 4) := slice?_of_le (by decide) (by omega)
      rw [hfield (by decide), hfourcc, hfield (by decide), hfield (by decide), hfield (by decide),
        hfield (by decide), hfield (by decide)]
      simp only [Option.bind_eq_bind, Option.bind_some, fetchRecords?_eq, readHeader, firstRecord]
      cases Codec.ofFourcc? ((file.drop 8).take 4) with
      | none => rfl
      | some codec => rfl

/-! ### Whole files -/

theorem readHeader_eq_ok {data : Octets} {header : Header} (h : readHeader data = .ok header) :
    header.codec.fourcc = some ((data.drop 8).take 4) := by
  unfold readHeader at h
  dsimp only at h
  split at h
  · cases h
  · next codec hcodec =>
    cases h
    have hfound := List.find?_some hcodec
    exact beq_iff_eq.mp hfound

theorem exists_readHeader_iff {data : Octets} :
    (∃ header, readHeader data = .ok header) ↔ ∃ c : Codec, c.fourcc = some ((data.drop 8).take 4) := by
  constructor
  · rintro ⟨header, h⟩
    exact ⟨header.codec, readHeader_eq_ok h⟩
  · rintro ⟨c, h⟩
    exact ⟨_, by rw [readHeader, ofFourcc?_fourcc h]⟩

/-- What is read of a file that is no fault. -/
theorem read_eq_ok_iff {data : Octets} {f : File} :
    read data = .ok f ↔ signature <+: data ∧ headerLength ≤ data.length ∧
      ∃ header, readHeader data = .ok header ∧
        f = ⟨header, (records (firstRecord data) (data.drop (firstRecord data))).1.filter (fun r => r.data ≠ []),
          (records (firstRecord data) (data.drop (firstRecord data))).2⟩ := by
  have hsignature : hasSignature data = true ↔ signature <+: data := List.isPrefixOf_iff_prefix
  rw [← hsignature]
  unfold read
  split
  · next hnone =>
    rw [Bool.not_eq_true'] at hnone
    exact iff_of_false nofun fun h => Bool.false_ne_true (hnone.symm.trans h.1)
  · next hsome =>
    rw [Bool.not_eq_true', Bool.not_eq_false] at hsome
    split
    · next hshort => exact iff_of_false nofun fun h => Nat.not_le.mpr hshort h.2.1
    · next hlong =>
      rw [and_iff_right hsome, and_iff_right (Nat.le_of_not_lt hlong)]
      cases readHeader data with
      | error e => exact iff_of_false nofun fun ⟨_, h, _⟩ => by cases h
      | ok header =>
        constructor
        · intro h
          cases h
          exact ⟨header, rfl, rfl⟩
        · rintro ⟨header, h, rfl⟩
          cases h
          rfl

/-- **Reading finds the one layout of a file.**  No octet is fetched from outside it.  It is read just if it begins
with the signature, has a whole header and names a known codec.  Then from the stated end of the header on, but no
earlier than the 32nd octet, it is laid out in one way as whole records and a tail in which no other fits; those
records that hold data are the frames, with their timestamps, their data being slices of the file one behind the
other; and a warning is given just if the tail has the whole header of a record. -/
theorem read_lays_out (data : Octets) :
    fetch? data = some (read data) ∧
    ((∃ f, read data = .ok f) ↔ signature <+: data ∧ headerLength ≤ data.length ∧
      ∃ c : Codec, c.fourcc = some ((data.drop 8).take 4)) ∧
    ∀ f, read data = .ok f → ∃ all tail,
      Layout (data.drop (max (field data 6 2) headerLength)) all tail ∧
      (∀ all' tail', Layout (data.drop (max (field data 6 2) headerLength)) all' tail' →
        all' = all ∧ tail' = tail) ∧
      f.frames = all.filter (fun r => r.data ≠ []) ∧
      Stand data (max (field data 6 2) headerLength) f.frames ∧
      (f.warnings ≠ [] ↔ recordHeaderLength ≤ tail.length) := by
  refine ⟨fetch?_eq data, ?_, fun f hf => ?_⟩
  · rw [← exists_readHeader_iff]
    constructor
    · rintro ⟨f, hf⟩
      obtain ⟨hsignature, hlength, header, hheader, -⟩ := read_eq_ok_iff.mp hf
      exact ⟨hsignature, hlength, header, hheader⟩
    · rintro ⟨hsignature, hlength, header, hheader⟩
      exact ⟨_, read_eq_ok_iff.mpr ⟨hsignature, hlength, header, hheader, rfl⟩⟩
  · obtain ⟨-, -, header, -, rfl⟩ := read_eq_ok_iff.mp hf
    obtain ⟨tail, hlayout, hcut⟩ := exists_layout (firstRecord data) (data.drop (firstRecord data))
    refine ⟨_, tail, hlayout, fun _ _ h => hlayout.unique h, rfl, hlayout.stand, ?_⟩
    rw [← hcut, File.warnings]
    cases (records (firstRecord data) (data.drop (firstRecord data))).2 <;> simp

/-- A VP8 file with a header of 34 octets, a record, an empty one, another one, and the header of a record that
claims nearly `2^32` octets, of which one is there. -/
def overstated : Octets :=
  signature ++ [0, 0, 34, 0, 0x56, 0x50, 0x38, 0x30, 64, 1, 240, 0, 0x90, 0x5f, 1, 0, 1, 0, 0, 0, 4, 0, 0, 0]
    ++ [0, 0, 0, 0, 0xff, 0xff] ++ record 7 [0xaa] ++ record 8 [] ++ record 9 [0xbb, 0xcc]
    ++ [0xff, 0xff, 0xff, 0xff, 10, 0, 0, 0, 0, 0, 0, 0, 0xdd]

/-- What is read of it. -/
def overstatedFile : File :=
  ⟨⟨.vp8, 320, 240, 90000, 1, 4⟩, [⟨7, [0xaa]⟩, ⟨9, [0xbb, 0xcc]⟩], some 73⟩

theorem read_overstated : read overstated = .ok overstatedFile := by
  cbv

theorem read_lays_out_overstated :
    read overstated = .ok overstatedFile ∧ fetch? overstated = some (.ok overstatedFile) ∧
    ∃ all tail, Layout (overstated.drop 34) all tail ∧
      (∀ all' tail', Layout (overstated.drop 34) all' tail' → all' = all ∧ tail' = tail) ∧
      all.filter (fun r => r.data ≠ []) = [⟨7, [0xaa]⟩, ⟨9, [0xbb, 0xcc]⟩] ∧
      Stand overstated 34 [⟨7, [0xaa]⟩, ⟨9, [0xbb, 0xcc]⟩] ∧ recordHeaderLength ≤ tail.length := by
  obtain ⟨hfetch, -, hall⟩ := read_lays_out overstated
  obtain ⟨all, tail, hlayout, hunique, hframes, hstand, hwarned⟩ := hall _ read_overstated
  rw [read_overstated] at hfetch
  exact ⟨read_overstated, hfetch, all, tail, hlayout, hunique, hframes.symm, hstand, hwarned.mp (by decide)⟩

end Ivf

end EncodedFeed
