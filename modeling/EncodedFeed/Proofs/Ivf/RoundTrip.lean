import EncodedFeed.Ivf.Reader
import EncodedFeed.Ivf.Writer
import Mathlib.Tactic.Set

/-!
# Reading what was written as IVF

The reader finds in a written header what was put there, and in a string of written records these records.
Of a string cut off anywhere it finds the records that are whole: `records_take`.
-/

namespace EncodedFeed

namespace Octets

theorem field_append (pre mid post : Octets) :
    field (pre ++ (mid ++ post)) pre.length mid.length = ofLittle mid := by
  rw [field, List.drop_left, List.take_left]

/-- A number of `w` octets is read back from where it stands. -/
theorem field_little (pre : Octets) {data post : Octets} {pos w n : Nat}
    (h : data = pre ++ (little w n ++ post)) (hpos : pre.length = pos) :
    field data pos w = n % range w := by
  have hfield := field_append pre (little w n) post
  rwa [length_little, hpos, ← h, ofLittle_little] at hfield

end Octets

namespace Ivf

open Octets

/-! ### The header -/

theorem length_fourcc {c : Codec} {fourcc : Octets} (h : c.fourcc = some fourcc) : fourcc.length = 4 := by
  cases c <;> cases h <;> rfl

theorem ofFourcc?_fourcc {c : Codec} {fourcc : Octets} (h : c.fourcc = some fourcc) :
    Codec.ofFourcc? fourcc = some c := by
  cases c <;> cases h <;> decide

section
variable {fourcc : Octets} (width height frameCount : Nat) (rest : Octets)

theorem length_header (h : fourcc.length = 4) : (header fourcc width height frameCount).length = 32 := by
  simp only [header, List.length_append, length_little, h]
  rfl

theorem hasSignature_header : hasSignature (header fourcc width height frameCount ++ rest) = true := by
  have happ : header fourcc width height frameCount ++ rest
      = signature ++ (little 2 0 ++ little 2 headerLength ++ fourcc ++ little 2 width ++ little 2 height
          ++ little 4 90000 ++ little 4 1 ++ little 4 frameCount ++ little 4 0 ++ rest) := by
    simp only [header, List.append_assoc]
  rw [hasSignature, happ, List.isPrefixOf_iff_prefix]
  exact List.prefix_append _ _

theorem firstRecord_header : firstRecord (header fourcc width height frameCount ++ rest) = 32 := by
  have hlen : field (header fourcc width height frameCount ++ rest) 6 2 = headerLength % range 2 :=
    field_little (signature ++ little 2 0) (by simp only [header, List.append_assoc]; rfl) rfl
  rw [firstRecord, hlen]
  rfl

theorem readHeader_header {c : Codec} (h : c.fourcc = some fourcc) :
    readHeader (header fourcc width height frameCount ++ rest) =
      .ok ⟨c, UInt16.ofNat width, UInt16.ofNat height, 90000, 1, UInt32.ofNat frameCount⟩ := by
  have h4 := length_fourcc h
  set start := signature ++ little 2 0 ++ little 2 headerLength with hstart
  have hfourcc : ((header fourcc width height frameCount ++ rest).drop 8).take 4 = fourcc := by
    have happ : header fourcc width height frameCount ++ rest
        = start ++ (fourcc ++ (little 2 width ++ little 2 height ++ little 4 90000 ++ little 4 1
          ++ little 4 frameCount ++ little 4 0 ++ rest)) := by
      simp only [header, hstart, List.append_assoc]
    have h8 : start.length = 8 := rfl
    rw [happ, List.drop_left' h8, List.take_left' h4]
  have hwidth : field (header fourcc width height frameCount ++ rest) 12 2 = width % range 2 :=
    field_little (start ++ fourcc) (by simp only [header, hstart, List.append_assoc]; rfl)
      (by rw [List.length_append, h4]; rfl)
  have hheight : field (header fourcc width height frameCount ++ rest) 14 2 = height % range 2 :=
    field_little (start ++ fourcc ++ little 2 width) (by simp only [header, hstart, List.append_assoc]; rfl)
      (by simp only [List.length_append, h4, length_little]; rfl)
  have hrate : field (header fourcc width height frameCount ++ rest) 16 4 = 90000 % range 4 :=
    field_little (start ++ fourcc ++ little 2 width ++ little 2 height)
      (by simp only [header, hstart, List.append_assoc]; rfl)
      (by simp only [List.length_append, h4, length_little]; rfl)
  have hscale : field (header fourcc width height frameCount ++ rest) 20 4 = 1 % range 4 :=
    field_little (start ++ fourcc ++ little 2 width ++ little 2 height ++ little 4 90000)
      (by simp only [header, hstart, List.append_assoc]; rfl)
      (by simp only [List.length_append, h4, length_little]; rfl)
  have hcount : field (header fourcc width height frameCount ++ rest) 24 4 = frameCount % range 4 :=
    field_little (start ++ fourcc ++ little 2 width ++ little 2 height ++ little 4 90000 ++ little 4 1)
      (by simp only [header, hstart, List.append_assoc]; rfl)
      (by simp only [List.length_append, h4, length_little]; rfl)
  simp only [readHeader, hfourcc, ofFourcc?_fourcc h, hwidth, hheight, hrate, hscale, hcount]
  have h16 (n : Nat) : UInt16.ofNat (n % range 2) = UInt16.ofNat n := UInt16.ofNat_mod_size
  have h32 (n : Nat) : UInt32.ofNat (n % range 4) = UInt32.ofNat n := UInt32.ofNat_mod_size
  rw [h16, h16, h32, h32, h32]
  rfl

end

/-! ### Records -/

/-- The octets of a record as this library writes it. -/
def Record.octets (r : Record) : Octets := record r.timestamp.toNat r.data

/-- The data of each record is short enough for its size field. -/
def Fitting (frames : List Record) : Prop := ∀ r ∈ frames, r.data.length < 0x100000000

theorem length_octets (r : Record) : r.octets.length = recordHeaderLength + r.data.length := by
  simp only [Record.octets, record, recordHeaderLength, List.length_append, length_little]

theorem drop_octets (r : Record) (rest : Octets) :
    (r.octets ++ rest).drop recordHeaderLength = r.data ++ rest := by
  rw [Record.octets, record, List.append_assoc _ r.data]
  exact List.drop_left' (by simp [recordHeaderLength])

theorem field_size {r : Record} (h : r.data.length < 0x100000000) (rest : Octets) :
    field (r.octets ++ rest) 0 4 = r.data.length := by
  have hfield : field (r.octets ++ rest) 0 4 = r.data.length % range 4 :=
    field_little [] (by simp only [Record.octets, record, List.append_assoc, List.nil_append]; rfl) rfl
  rw [hfield]
  exact Nat.mod_eq_of_lt h

theorem field_timestamp (r : Record) (rest : Octets) :
    UInt64.ofNat (field (r.octets ++ rest) 4 8) = r.timestamp := by
  have hfield : field (r.octets ++ rest) 4 8 = r.timestamp.toNat % range 8 :=
    field_little (little 4 r.data.length) (by simp only [Record.octets, record, List.append_assoc]; rfl)
      (length_little _ _)
  have hlt : r.timestamp.toNat < range 8 := r.timestamp.toNat_lt
  rw [hfield, Nat.mod_eq_of_lt hlt, UInt64.ofNat_toNat]

/-- A whole record is read, and reading goes on behind it. -/
theorem records_octets {r : Record} (h : r.data.length < 0x100000000) (pos : Nat) (rest : Octets) :
    records pos (r.octets ++ rest) =
      (r :: (records (pos + r.octets.length) rest).1, (records (pos + r.octets.length) rest).2) := by
  have hlen : hasLength recordHeaderLength (r.octets ++ rest) = true := by
    rw [hasLength_iff, List.length_append, length_octets]
    omega
  have hbody : hasLength r.data.length (r.data ++ rest) = true := by
    rw [hasLength_iff, List.length_append]
    omega
  rw [records, if_pos hlen]
  simp only [drop_octets, field_size h, field_timestamp, if_pos hbody, List.drop_left, List.take_left,
    length_octets, Nat.add_assoc]

/-- What is shorter than a record header holds no record. -/
theorem records_short {data : Octets} (h : data.length < recordHeaderLength) (pos : Nat) :
    records pos data = ([], none) := by
  have hlen : ¬ hasLength recordHeaderLength data = true := by
    rw [hasLength_iff]
    omega
  rw [records, if_neg hlen]

/-- A record that is cut short is not read. -/
theorem records_cut {r : Record} (h : r.data.length < 0x100000000) {n : Nat} (hn : n < r.octets.length)
    (pos : Nat) (rest : Octets) : (records pos ((r.octets ++ rest).take n)).1 = [] := by
  rw [List.take_append_of_le_length (Nat.le_of_lt hn)]
  by_cases hshort : n < recordHeaderLength
  · rw [records_short (by rw [List.length_take]; omega)]
  · -- the size field is there, and says more than there is
    have hlen : hasLength recordHeaderLength (r.octets.take n) = true := by
      rw [hasLength_iff, List.length_take]
      omega
    have hsize : field (r.octets.take n) 0 4 = r.data.length := by
      have hfield := field_size h []
      rw [List.append_nil] at hfield
      rw [← hfield, field, field, List.drop_zero, List.drop_zero, List.take_take, Nat.min_eq_left]
      have : recordHeaderLength = 12 := rfl
      omega
    have hbody : ¬ hasLength r.data.length ((r.octets.take n).drop recordHeaderLength) = true := by
      rw [length_octets] at hn
      rw [hasLength_iff, List.length_drop, List.length_take]
      omega
    rw [records, if_pos hlen]
    simp only [hsize, if_neg hbody]

theorem records_flatMap {frames : List Record} (h : Fitting frames) (pos : Nat) :
    records pos (frames.flatMap Record.octets) = (frames, none) := by
  induction frames generalizing pos with
  | nil => exact records_short (by decide) pos
  | cons r rest ih =>
    have hrest := ih (fun r' hr' => h r' (List.mem_cons_of_mem _ hr')) (pos + r.octets.length)
    rw [List.flatMap_cons, records_octets (h r List.mem_cons_self), hrest]

/-- **Records cut off anywhere**: those that are whole are read, and no others. -/
theorem records_take {frames : List Record} (h : Fitting frames) (pos n : Nat) :
    ∃ k, k ≤ frames.length ∧ (records pos ((frames.flatMap Record.octets).take n)).1 = frames.take k ∧
      ((frames.take k).flatMap Record.octets).length ≤ n ∧
      (k < frames.length → n < ((frames.take (k + 1)).flatMap Record.octets).length) := by
  induction frames generalizing pos n with
  | nil =>
    refine ⟨0, Nat.le_refl _, ?_, Nat.zero_le _, fun h => absurd h (Nat.lt_irrefl _)⟩
    rw [List.flatMap_nil, List.take_nil, records_short (by decide)]
    rfl
  | cons r rest ih =>
    have hr := h r List.mem_cons_self
    rw [List.flatMap_cons]
    by_cases hn : n < r.octets.length
    · -- the cut is in the first record
      refine ⟨0, Nat.zero_le _, records_cut hr hn pos _, Nat.zero_le _, fun _ => ?_⟩
      simpa using hn
    · obtain ⟨k, hk, hread, hle, hlt⟩ :=
        ih (fun r' hr' => h r' (List.mem_cons_of_mem _ hr')) (pos + r.octets.length) (n - r.octets.length)
      refine ⟨k + 1, Nat.succ_le_succ hk, ?_, ?_, fun hk' => ?_⟩
      · rw [List.take_append, List.take_of_length_le (Nat.le_of_not_lt hn), records_octets hr, hread]
        rfl
      · rw [List.take_succ_cons, List.flatMap_cons, List.length_append]
        omega
      · have := hlt (Nat.lt_of_succ_lt_succ hk')
        rw [List.take_succ_cons, List.flatMap_cons, List.length_append]
        omega

/-! ### Whole files -/

/-- Behind a written header the reader reads records. -/
theorem read_header_append {c : Codec} {fourcc : Octets} (h : c.fourcc = some fourcc)
    (width height frameCount : Nat) (rest : Octets) :
    read (header fourcc width height frameCount ++ rest) =
      .ok ⟨⟨c, UInt16.ofNat width, UInt16.ofNat height, 90000, 1, UInt32.ofNat frameCount⟩,
        (records 32 rest).1.filter fun r => r.data ≠ [], (records 32 rest).2⟩ := by
  have h32 := length_header width height frameCount (length_fourcc h)
  have hlong : ¬ (header fourcc width height frameCount ++ rest).length < headerLength := by
    rw [List.length_append, h32, headerLength]
    omega
  unfold read
  rw [hasSignature_header, if_neg (by decide), if_neg hlong, readHeader_header _ _ _ _ h]
  simp only [firstRecord_header, List.drop_left' h32]

/-- In its own timebase a timestamp that is an RTP time is this RTP time. -/
theorem toRtp_toUInt64 {h : Header} (hrate : h.rate = 90000) (hscale : h.scale = 1) (rtp : UInt32) :
    h.toRtp rtp.toUInt64 = rtp := by
  rw [Header.toRtp, hrate, hscale, rtpOfTicks, if_neg (by decide)]
  have hticks : rtp.toUInt64.toNat * (1 : UInt32).toNat * 90000 / (90000 : UInt32).toNat = rtp.toNat := by
    simp
  rw [hticks, UInt32.ofNat_toNat]

section
variable {c : Codec} {fourcc : Octets} {frames : List Record}

/-- **A whole file**: all frames are read, if none is empty. -/
theorem read_frames (h : c.fourcc = some fourcc) (hfit : Fitting frames) (hne : ∀ r ∈ frames, r.data ≠ [])
    (width height frameCount : Nat) :
    read (header fourcc width height frameCount ++ frames.flatMap Record.octets) =
      .ok ⟨⟨c, UInt16.ofNat width, UInt16.ofNat height, 90000, 1, UInt32.ofNat frameCount⟩,
        frames, none⟩ := by
  have hfilter : frames.filter (fun r => r.data ≠ []) = frames :=
    List.filter_eq_self.mpr fun r hr => decide_eq_true (hne r hr)
  rw [read_header_append h, records_flatMap hfit, hfilter]

/-- **A file cut off** behind its header: the frames that are whole are read. -/
theorem read_frames_take (h : c.fourcc = some fourcc) (hfit : Fitting frames)
    (hne : ∀ r ∈ frames, r.data ≠ []) (width height frameCount : Nat) {n : Nat} (hn : 32 ≤ n) :
    ∃ k cut, read ((header fourcc width height frameCount ++ frames.flatMap Record.octets).take n) =
        .ok ⟨⟨c, UInt16.ofNat width, UInt16.ofNat height, 90000, 1, UInt32.ofNat frameCount⟩,
          frames.take k, cut⟩ ∧
      k ≤ frames.length ∧ 32 + ((frames.take k).flatMap Record.octets).length ≤ n ∧
      (k < frames.length → n < 32 + ((frames.take (k + 1)).flatMap Record.octets).length) := by
  have h32 := length_header width height frameCount (length_fourcc h)
  obtain ⟨k, hk, hread, hle, hlt⟩ := records_take hfit 32 (n - 32)
  have hfilter : (frames.take k).filter (fun r => r.data ≠ []) = frames.take k :=
    List.filter_eq_self.mpr fun r hr => decide_eq_true (hne r (List.mem_of_mem_take hr))
  refine ⟨k, (records 32 ((frames.flatMap Record.octets).take (n - 32))).2, ?_, hk, by omega, fun hk' => ?_⟩
  · rw [List.take_append, List.take_of_length_le (by omega), h32, read_header_append h, hread, hfilter]
  · have := hlt hk'
    omega

end

end Ivf

end EncodedFeed
