import EncodedFeed.Config.Preferences
import EncodedFeed.Proofs.Words
import EncodedFeed.Source
import Mathlib

/-!
# The planes of a placeholder

A black picture is its luma plane and two chroma planes of half the size each way, rounded up.  The sizes are products
of 32 bits, and nothing bounds the dimensions of a placeholder.  `black?_eq` says which pictures can be made, and
`black_laid_out_iff` that these are laid out as their dimensions say.  Where products are not checked a larger picture
has too few octets, and may have none.
-/

namespace EncodedFeed

namespace Picture

/-- The planes of a black picture of so many columns and rows. -/
def layout (columns rows : Nat) : Octets :=
  List.replicate (columns * rows) 0 ++ List.replicate (2 * (columns ⌈/⌉ 2) * (rows ⌈/⌉ 2)) 128

theorem length_layout (columns rows : Nat) :
    (layout columns rows).length = columns * rows + 2 * (columns ⌈/⌉ 2) * (rows ⌈/⌉ 2) := by
  simp [layout]

/-! ### Products in 32 bits -/

theorem toNat_halfUp (n : UInt32) : (halfUp n).toNat = n.toNat ⌈/⌉ 2 := by
  have hlt : n.toNat < 2 ^ 32 := n.toNat_lt
  rw [halfUp, UInt32.toNat_add, UInt32.toNat_div, UInt32.toNat_mod, Nat.ceilDiv_eq_add_pred_div]
  show (n.toNat / 2 + n.toNat % 2) % 2 ^ 32 = _
  omega

theorem toNat_lumaSize (p : Picture) : p.lumaSize.toNat = p.width.toNat * p.height.toNat % 2 ^ 32 :=
  UInt32.toNat_mul _ _

theorem toNat_chromaSize (p : Picture) :
    p.chromaSize.toNat = (p.width.toNat ⌈/⌉ 2) * (p.height.toNat ⌈/⌉ 2) % 2 ^ 32 := by
  rw [chromaSize, UInt32.toNat_mul, toNat_halfUp, toNat_halfUp]

/-- A chroma plane is not larger than the luma plane. -/
theorem chroma_le_luma {columns rows : Nat} (hcolumns : 0 < columns) (hrows : 0 < rows) :
    (columns ⌈/⌉ 2) * (rows ⌈/⌉ 2) ≤ columns * rows := by
  have hhalf : ∀ n : Nat, 0 < n → n ⌈/⌉ 2 ≤ n := by
    intro n hn
    rw [Nat.ceilDiv_eq_add_pred_div]
    omega
  exact Nat.mul_le_mul (hhalf columns hcolumns) (hhalf rows hrows)

theorem length_data (p : Picture) :
    p.data.length = p.width.toNat * p.height.toNat % 2 ^ 32
      + 2 * ((p.width.toNat ⌈/⌉ 2) * (p.height.toNat ⌈/⌉ 2) % 2 ^ 32) := by
  simp [data, toNat_lumaSize, toNat_chromaSize]

/-! ### Pictures that fit and pictures that do not -/

variable {p : Picture}

theorem sizes?_of_lt (hwidth : 0 < p.width.toNat) (hheight : 0 < p.height.toNat)
    (h : p.width.toNat * p.height.toNat < 2 ^ 32) :
    p.sizes? = some (p.width.toNat * p.height.toNat,
      p.width.toNat * p.height.toNat + 2 * ((p.width.toNat ⌈/⌉ 2) * (p.height.toNat ⌈/⌉ 2))) := by
  have hchroma := (chroma_le_luma hwidth hheight).trans_lt h
  rw [sizes?, toNat_halfUp, toNat_halfUp, unsigned?_of_lt h, Option.bind_some, unsigned?_of_lt hchroma,
    Option.bind_some, unsigned?_of_lt (by omega), Option.bind_some, unsigned?_of_lt (by omega), Option.map_some]

theorem sizes?_of_le (h : 2 ^ 32 ≤ p.width.toNat * p.height.toNat) : p.sizes? = none := by
  rw [sizes?, unsigned?_of_le h, Option.bind_none]

/-- Without checks a picture that fits is what it is with them. -/
theorem data_of_lt (hwidth : 0 < p.width.toNat) (hheight : 0 < p.height.toNat)
    (h : p.width.toNat * p.height.toNat < 2 ^ 32) :
    p.data = layout p.width.toNat p.height.toNat ∧ p.data? = some p.data := by
  have hchroma := (chroma_le_luma hwidth hheight).trans_lt h
  have hdata : p.data = layout p.width.toNat p.height.toNat := by
    rw [data, toNat_lumaSize, toNat_chromaSize, Nat.mod_eq_of_lt h, Nat.mod_eq_of_lt hchroma, layout, Nat.mul_assoc]
  refine ⟨hdata, ?_⟩
  rw [data?, sizes?_of_lt hwidth hheight h, Option.map_some, Nat.add_sub_cancel_left, hdata, layout, Nat.mul_assoc]

theorem length_data_of_le (h : 2 ^ 32 ≤ p.width.toNat * p.height.toNat) :
    p.data.length < (layout p.width.toNat p.height.toNat).length := by
  rw [length_data, length_layout, Nat.mul_assoc]
  have hluma := Nat.mod_lt (p.width.toNat * p.height.toNat) (show 2 ^ 32 > 0 by decide)
  have hchroma := Nat.mod_le ((p.width.toNat ⌈/⌉ 2) * (p.height.toNat ⌈/⌉ 2)) (2 ^ 32)
  omega

theorem toNat_black (width height : UInt32) :
    (black width height).width.toNat = max width.toNat 1 ∧ (black width height).height.toNat = max height.toNat 1 :=
  ⟨toNat_max_one width, toNat_max_one height⟩

/-- **Which black pictures can be made**: those whose luma plane fits 32 bits. -/
theorem black?_eq (width height : UInt32) : black? width height
    = if max width.toNat 1 * max height.toNat 1 < 2 ^ 32 then some (black width height) else none := by
  obtain ⟨hwidth, hheight⟩ := toNat_black width height
  rw [black?, ← hwidth, ← hheight]
  split
  · next h => rw [sizes?_of_lt (by omega) (by omega) h, Option.map_some]
  · next h => rw [sizes?_of_le (Nat.not_lt.mp h), Option.map_none]

end Picture

/-! ### Placeholders -/

/-- There is a picture of this size, a dimension being at least one. -/
def Resolution.HasPicture (r : Resolution) : Prop := max r.width.toNat 1 * max r.height.toNat 1 < 2 ^ 32

instance (r : Resolution) : Decidable r.HasPicture := Nat.decLt _ _

theorem Resolution.hasPicture_of_area {r : Resolution} (h : r.area < 2 ^ 32) : r.HasPicture := by
  have hwidth := r.width.toNat_lt
  have hheight := r.height.toNat_lt
  unfold HasPicture
  unfold area at h
  rcases Nat.eq_zero_or_pos r.width.toNat with hzero | hpos
  · rw [hzero, Nat.max_eq_right (Nat.zero_le 1), Nat.one_mul]
    omega
  · rcases Nat.eq_zero_or_pos r.height.toNat with hzero' | hpos'
    · rw [hzero', Nat.max_eq_right (Nat.zero_le 1), Nat.mul_one]
      omega
    · rwa [Nat.max_eq_left hpos, Nat.max_eq_left hpos']

theorem Pump.ofSize?_eq (size : Resolution) : ofSize? size = if size.HasPicture then some (ofSize size) else none := by
  rw [ofSize?, Picture.black?_eq]
  split
  · next h => exact (if_pos h).symm
  · next h => exact (if_neg h).symm

theorem Source.ofConfig?_eq (c : SourceConfig) (home : Ref .registry) :
    ofConfig? c home = if c.placeholder.HasPicture then some (ofConfig c home) else none := by
  rw [ofConfig?, Pump.ofSize?_eq]
  split <;> rfl

namespace Picture

/-- **The octets of a black picture.**  One can be made exactly if the product of its dimensions fits 32 bits; then no
product on the way overflows, and its planes are laid out as its dimensions say.  A source can be made exactly if its
placeholder can.  Without checks there is a picture of every size, but exactly these have all their octets. -/
theorem black_laid_out_iff (width height : UInt32) :
    (∀ p, black? width height = some p →
      p.width.toNat = max width.toNat 1 ∧ p.height.toNat = max height.toNat 1 ∧
        p.data = layout (max width.toNat 1) (max height.toNat 1) ∧ p.data? = some p.data) ∧
    ((black? width height).isSome ↔ max width.toNat 1 * max height.toNat 1 < 2 ^ 32) ∧
    (∀ (c : SourceConfig) home, c.placeholder = ⟨width, height⟩ →
      ((Source.ofConfig? c home).isSome ↔ max width.toNat 1 * max height.toNat 1 < 2 ^ 32)) ∧
    ((black width height).data.length = (layout (max width.toNat 1) (max height.toNat 1)).length ↔
      max width.toNat 1 * max height.toNat 1 < 2 ^ 32) := by
  obtain ⟨hwidth, hheight⟩ := toNat_black width height
  refine ⟨fun p hp => ?_, ?_, fun c home hsize => ?_, ?_⟩
  · rw [black?_eq] at hp
    obtain ⟨h, hp⟩ := Option.ite_none_right_eq_some.mp hp
    cases hp
    obtain ⟨hdata, hfits⟩ := data_of_lt (p := black width height) (by omega) (by omega) (by rwa [hwidth, hheight])
    rw [hwidth, hheight] at hdata
    exact ⟨hwidth, hheight, hdata, hfits⟩
  · rw [black?_eq]
    split
    · next h => exact iff_of_true rfl h
    · next h => exact iff_of_false (by decide) h
  · rw [Source.ofConfig?_eq, hsize]
    split
    · next h => exact iff_of_true rfl h
    · next h => exact iff_of_false (by decide) h
  · rw [← hwidth, ← hheight]
    by_cases h : (black width height).width.toNat * (black width height).height.toNat < 2 ^ 32
    · exact iff_of_true (congrArg List.length (data_of_lt (by omega) (by omega) h).1) h
    · exact iff_of_false (length_data_of_le (Nat.not_lt.mp h)).ne h

/-- A configuration file may ask for a placeholder that cannot be made. -/
def vast : String := "[pump]\nplaceholder_width = 131072\nplaceholder_height = 131072\n"

theorem read_vast :
    Preferences.read vast = .ok { placeholderWidth := 131072, placeholderHeight := 131072 } ∧
      Preferences.sourceConfig { placeholderWidth := 131072, placeholderHeight := 131072 }
        = .ok { placeholder := ⟨131072, 131072⟩ } := by
  constructor <;> cbv

/-- Its source cannot be made either.  The picture should have twenty-four gibibytes, and without checks it has no
octets. -/
theorem vast_placeholder_overflows :
    ∃ preferences config, Preferences.read vast = .ok preferences ∧ preferences.sourceConfig = .ok config ∧
      config.placeholder = ⟨131072, 131072⟩ ∧ black? 131072 131072 = none ∧
      (∀ home, Source.ofConfig? config home = none) ∧
      (layout 131072 131072).length = 24 * 2 ^ 30 ∧ (black 131072 131072).data = [] := by
  obtain ⟨hread, hconfig⟩ := read_vast
  refine ⟨_, _, hread, hconfig, rfl, by decide, fun home => ?_, ?_, by decide⟩
  · rw [Source.ofConfig?_eq]
    exact if_neg (by decide)
  · rw [length_layout]
    decide

end Picture

end EncodedFeed
