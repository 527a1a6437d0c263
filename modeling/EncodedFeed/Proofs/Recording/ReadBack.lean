import EncodedFeed.Proofs.Ivf.RoundTrip
import EncodedFeed.Proofs.Recording.Written
import Mathlib

/-!
# Reading a recording back

The file of an ended VP8, VP9 or AV1 recording holds the images it was given, with their RTP times as
timestamps.  If the recording was cut off instead, its file holds those that were written in whole.
-/

namespace EncodedFeed

/-- The record an image becomes. -/
def Shot.record (i : Shot) : Ivf.Record := ⟨i.rtp.toUInt64, i.payload⟩

theorem entry_ivf (i : Shot) : Recording.entry .ivf i.rtp i.payload = i.record.octets := by
  simp only [Recording.entry, Container.pieces, Shot.record, Ivf.Record.octets, Ivf.record,
    List.flatten_cons, List.flatten_nil, List.append_nil, List.append_assoc, UInt32.toNat_toUInt64]

/-- What the header says of a recording with these dimensions, besides the frame count. -/
structure Ivf.Header.Describes (h : Ivf.Header) (c : Codec) (width height : UInt32) : Prop where
  codec : h.codec = c
  width : h.width.toNat = width.toNat
  height : h.height.toNat = height.toNat
  rate : h.rate = 90000
  scale : h.scale = 1

theorem describes_of_lt {c : Codec} {width height : UInt32} (hw : width.toNat < 65536)
    (hh : height.toNat < 65536) (count : UInt32) :
    Ivf.Header.Describes
      ⟨c, UInt16.ofNat width.toNat, UInt16.ofNat height.toNat, 90000, 1, count⟩ c width height where
  codec := rfl
  width := Nat.mod_eq_of_lt hw
  height := Nat.mod_eq_of_lt hh
  rate := rfl
  scale := rfl

/-- The frame count is put into the header and changes nothing else. -/
theorem closed_header {fourcc : Octets} (h4 : fourcc.length = 4) (width height frames : Nat)
    (rest : Octets) : Container.ivf.closed frames (Ivf.header fourcc width height 0 ++ rest)
      = Ivf.header fourcc width height frames ++ rest := by
  set before := Ivf.signature ++ Octets.little 2 0 ++ Octets.little 2 Ivf.headerLength ++ fourcc
    ++ Octets.little 2 width ++ Octets.little 2 height ++ Octets.little 4 90000 ++ Octets.little 4 1
    with hbefore
  have hlen : before.length = Ivf.frameCountOffset := by
    simp only [hbefore, List.length_append, h4, Octets.length_little]
    rfl
  have hsplit (n : Nat) : Ivf.header fourcc width height n ++ rest
      = before ++ (Octets.little 4 n ++ (Octets.little 4 0 ++ rest)) := by
    simp only [Ivf.header, hbefore, List.append_assoc]
  rw [hsplit, hsplit, Container.closed, ← hlen,
    FileTree.overwrite_middle _ _ ((Octets.length_little _ _).trans (Octets.length_little _ _).symm)]

theorem fitting_record {images : List Shot} (h : ∀ i ∈ images, i.payload.length < 0x100000000) :
    Ivf.Fitting ((nonempty images).map Shot.record) ∧
      ∀ r ∈ (nonempty images).map Shot.record, r.data ≠ [] := by
  refine ⟨fun r hr => ?_, fun r hr => ?_⟩ <;> obtain ⟨i, hi, rfl⟩ := List.mem_map.mp hr
  · exact h i (List.mem_filter.mp hi).1
  · exact of_decide_eq_true (List.mem_filter.mp hi).2

/-- The octets of the first `k` images. -/
theorem flatMap_take_record (images : List Shot) (k : Nat) :
    ((images.map Shot.record).take k).flatMap Ivf.Record.octets
      = (images.take k).flatMap fun i => i.record.octets := by
  rw [← List.map_take, List.flatMap_map]

/-- **Reading back.**  A VP8, VP9 or AV1 recording refuses empty images and is as if they had not been
offered.  Ended, its file is read as the images in order, under the dimensions it was begun with and with
their number modulo `2^32`; and each timestamp is led back to the RTP time.  What was written has one record
for each image behind the header; of any part of it from the beginning, exactly the images are read whose
records end in that part. -/
theorem recording_reads_back {s s₁ : Session} {path : String} {c : Codec} {width height : UInt32}
    {r : Ref .recording} (hcodec : c = .vp8 ∨ c = .vp9 ∨ c = .av1) (hw : width.toNat < 65536)
    (hh : height.toNat < 65536) (hadd : s.addRecording path c width height = (.ok r, s₁))
    (images : List Shot) (hsize : ∀ i ∈ images, i.payload.length < 0x100000000) :
    ((s₁.recordEach r images).1 = images.map Shot.verdict ∧
      (s₁.recordEach r images).2 = (s₁.recordEach r (nonempty images)).2 ∧
      ∃ x, (s₁.recordEach r images).2.recording? r = some x ∧ x.frames = (nonempty images).length ∧
        x.bytes = ((nonempty images).flatMap Shot.payload).length) ∧
    (∃ data f, ((s₁.recordEach r images).2.finishRecording r).files.read path = .ok data ∧
      Ivf.read data = .ok f ∧ f.header.Describes c width height ∧
      f.header.frameCount.toNat = (nonempty images).length % 0x100000000 ∧
      f.frames = (nonempty images).map Shot.record ∧ f.cutAt = none ∧
      ∀ i : Shot, f.header.toRtp i.record.timestamp = i.rtp) ∧
    ∃ written, ((s₁.recordEach r images).2.dropRecording r).files.read path = .ok written ∧
      written.drop 32 = ((nonempty images).flatMap fun i => i.record.octets) ∧
      (∃ n, n ≤ written.length ∧ (s₁.recordEach r images).2.files.read path = .ok (written.take n)) ∧
      ∀ n, 32 ≤ n → n ≤ written.length →
        ∃ f k, Ivf.read (written.take n) = .ok f ∧ f.header.Describes c width height ∧
          k ≤ (nonempty images).length ∧ f.frames = ((nonempty images).take k).map Shot.record ∧
          32 + (((nonempty images).take k).flatMap fun i => i.record.octets).length ≤ n ∧
          (k < (nonempty images).length →
            n < 32 + (((nonempty images).take (k + 1)).flatMap fun i => i.record.octets).length) := by
  obtain ⟨fourcc, hfourcc⟩ : ∃ fourcc, c.fourcc = some fourcc := by
    rcases hcodec with rfl | rfl | rfl <;> exact ⟨_, rfl⟩
  have hivf : Container.ofCodec c = .ivf := by rw [Container.ofCodec, hfourcc]; rfl
  have hlead : Container.lead c width height = Ivf.header fourcc width.toNat height.toNat 0 := by
    rw [Container.lead, hfourcc]
  have hbegun := Session.records_addRecording hadd
  obtain ⟨hresults, hrec⟩ := Session.records_recordEach images hbegun
  obtain ⟨hfit, hne⟩ := fitting_record hsize
  -- all three parts speak of the same octets: the header, then the records
  have hentries : ((nonempty images).flatMap fun i => Recording.entry .ivf i.rtp i.payload)
      = ((nonempty images).map Shot.record).flatMap Ivf.Record.octets := by
    rw [List.flatMap_map]
    simp only [entry_ivf]
  rw [hlead, hivf, hentries, Nat.zero_add, Nat.zero_add] at hrec
  refine ⟨⟨hresults, Session.recordEach_nonempty images hbegun, ?_⟩, ?_, ?_⟩
  · obtain ⟨x, hx, -, -, hn, hb⟩ := hrec
    exact ⟨x, hx, hn, hb⟩
  · have hclosed := Session.read_finishRecording hrec
    rw [closed_header (Ivf.length_fourcc hfourcc)] at hclosed
    exact ⟨_, _, hclosed, Ivf.read_frames hfourcc hfit hne _ _ _, describes_of_lt hw hh _, rfl, rfl, rfl,
      fun i => Ivf.toRtp_toUInt64 rfl rfl i.rtp⟩
  · have h32 := Ivf.length_header width.toNat height.toNat 0 (Ivf.length_fourcc hfourcc)
    refine ⟨_, Session.read_dropRecording hrec, ?_, Session.read_of_records hrec, fun n hn _ => ?_⟩
    · rw [List.drop_left' h32, List.flatMap_map]
    · obtain ⟨k, cut, hread, hk, hle, hlt⟩ :=
        Ivf.read_frames_take hfourcc hfit hne width.toNat height.toNat 0 hn
      rw [List.length_map] at hk hlt
      rw [flatMap_take_record] at hle hlt
      exact ⟨_, k, hread, describes_of_lt hw hh _, hk, List.map_take.symm, hle, hlt⟩

/-- A VP8 recording that has just begun. -/
def begun : Session := (({} : Session).addRecording "out" .vp8 320 240).2

theorem addRecording_begun : ({} : Session).addRecording "out" .vp8 320 240 = (.ok ⟨1⟩, begun) :=
  Prod.ext (by cbv) rfl

/-- Two images and an empty one. -/
def threeShots : List Shot := [⟨3000, [0xaa, 0xbb]⟩, ⟨6000, []⟩, ⟨9000, [0xcc]⟩]

theorem recording_reads_back_threeShots :
    (begun.recordEach ⟨1⟩ threeShots).1 = [.ok (), .error .emptyPayload, .ok ()] ∧
    ∃ data f, ((begun.recordEach ⟨1⟩ threeShots).2.finishRecording ⟨1⟩).files.read "out" = .ok data ∧
      Ivf.read data = .ok f ∧ f.frames = [⟨3000, [0xaa, 0xbb]⟩, ⟨9000, [0xcc]⟩] := by
  obtain ⟨⟨hresults, -, -⟩, ⟨data, f, hdata, hread, -, -, hframes, -⟩, -⟩ :=
    recording_reads_back (.inl rfl) (by decide) (by decide) addRecording_begun threeShots (by decide)
  exact ⟨hresults, data, f, hdata, hread, hframes⟩

end EncodedFeed
