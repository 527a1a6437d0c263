import EncodedFeed.Config.Preferences
import EncodedFeed.Proofs.Toml.Tables
import Mathlib.Data.Fintype.Defs

/-!
# The fields of a configuration file

A document holds preferences in some of their fields, each under its key in its section, and lacks the others.
Preferences are read out of it as they are held, and the fields it lacks have their defaults, whether or not their
section is there (`ofEntries_of_holds`).
-/

namespace EncodedFeed.Preferences

open Toml (Entries Value)

/-! ### Fields -/

/-- What a configuration file may say. -/
inductive Field
  | codec
  | width
  | height
  | placeholderWidth
  | placeholderHeight
  | warnDepth
  | implementationName
  | packetizationMode
deriving DecidableEq

namespace Field

/-- The fields in the order of the file. -/
def all : List Field :=
  [codec, width, height, placeholderWidth, placeholderHeight, warnDepth, implementationName, packetizationMode]

instance : Fintype Field where
  elems := ⟨all, by decide⟩
  complete f := by cases f <;> decide

/-- The section of a field. -/
def table : Field → String
  | codec | width | height => "source"
  | placeholderWidth | placeholderHeight => "pump"
  | warnDepth => "queue"
  | implementationName | packetizationMode => "encoder"

/-- The key of a field in its section. -/
def key : Field → String
  | codec => "codec"
  | width => "width"
  | height => "height"
  | placeholderWidth => "placeholder_width"
  | placeholderHeight => "placeholder_height"
  | warnDepth => "warn_depth"
  | implementationName => "implementation_name"
  | packetizationMode => "packetization_mode"

end Field

/-- What stands for a field of preferences. -/
def value (p : Preferences) : Field → Value
  | .codec => .string p.codec
  | .width => .integer p.width.toNat
  | .height => .integer p.height.toNat
  | .placeholderWidth => .integer p.placeholderWidth.toNat
  | .placeholderHeight => .integer p.placeholderHeight.toNat
  | .warnDepth => .integer p.warnDepth.toNat
  | .implementationName => .string p.implementationName
  | .packetizationMode => .string p.packetizationMode

/-- Preferences in the given fields, and the defaults in the others. -/
def only (p : Preferences) (given : Finset Field) : Preferences where
  codec := if .codec ∈ given then p.codec else ({} : Preferences).codec
  width := if .width ∈ given then p.width else ({} : Preferences).width
  height := if .height ∈ given then p.height else ({} : Preferences).height
  placeholderWidth := if .placeholderWidth ∈ given then p.placeholderWidth else ({} : Preferences).placeholderWidth
  placeholderHeight := if .placeholderHeight ∈ given then p.placeholderHeight else ({} : Preferences).placeholderHeight
  warnDepth := if .warnDepth ∈ given then p.warnDepth else ({} : Preferences).warnDepth
  implementationName :=
    if .implementationName ∈ given then p.implementationName else ({} : Preferences).implementationName
  packetizationMode :=
    if .packetizationMode ∈ given then p.packetizationMode else ({} : Preferences).packetizationMode

theorem only_univ (p : Preferences) : p.only Finset.univ = p := by
  simp only [only, Finset.mem_univ, if_true]

/-- The document holds the given fields of preferences and lacks the others: every section is a table or missing, and
it has just these of its fields. -/
structure Holds (es : Entries) (p : Preferences) (given : Finset Field) : Prop where
  table (f : Field) : es.lookup f.table = none ∨ ∃ origin fields, es.lookup f.table = some (.table origin fields)
  value (f : Field) : es.at? f.table f.key = if f ∈ given then some (p.value f) else none

/-! ### Reading a field -/

section Read

variable {s : Section} {field : String} {i : Nat} {c : Prop} [Decidable c]

theorem text_of_given {t : String} (h : s field i = if c then some (.string t) else none) (default : String) :
    text s field i default = .ok (if c then t else default) := by
  rw [text, h]
  by_cases hc : c
  · simp only [if_pos hc]
  · simp only [if_neg hc]

theorem number_of_given {n limit : Nat} (h : s field i = if c then some (.integer n) else none) (hn : n < limit)
    (default : Nat) : number s field i limit default = .ok (if c then n else default) := by
  rw [number, h]
  by_cases hc : c
  · have hrange : (0 : Int) ≤ n ∧ (n : Int) < limit := ⟨by omega, by omega⟩
    simp only [if_pos hc, if_pos hrange, Int.toNat_natCast]
  · simp only [if_neg hc]

theorem number32_of_given {w : UInt32} (h : s field i = if c then some (.integer w.toNat) else none)
    (default : UInt32) : number32 s field i default = .ok (if c then w else default) := by
  rw [number32, number_of_given h w.toNat_lt_size, ← apply_ite]
  exact congrArg Except.ok (UInt32.ofNat_toNat)

theorem number64_of_given {w : UInt64} (h : s field i = if c then some (.integer w.toNat) else none)
    (default : UInt64) : number64 s field i default = .ok (if c then w else default) := by
  rw [number64, number_of_given h w.toNat_lt_size, ← apply_ite]
  exact congrArg Except.ok (UInt64.ofNat_toNat)

end Read

variable {es : Entries} {p : Preferences} {given : Finset Field}

/-- The section of a field holds the given ones of its fields, also where it is missing. -/
theorem Holds.section? (h : Holds es p given) (f : Field) : ∃ s, section? f.table es = .ok s ∧
    ∀ g i, g.table = f.table → s g.key i = if g ∈ given then some (p.value g) else none := by
  obtain hnone | ⟨origin, fields, htable⟩ := h.table f
  · refine ⟨fun _ _ => none, by rw [Preferences.section?, hnone], fun g i hg => ?_⟩
    rw [← h.value, Entries.at?, hg, hnone]
  · refine ⟨fun field _ => fields.lookup field, by rw [Preferences.section?, htable], fun g i hg => ?_⟩
    rw [← h.value, Entries.at?, hg, htable]

/-- **Preferences are read out of a document that holds them in some fields**, and the other fields have their
defaults. -/
theorem ofEntries_of_holds (h : Holds es p given) : ofEntries es = .ok (p.only given) := by
  obtain ⟨source, hsource, hsources⟩ := h.section? .codec
  obtain ⟨pump, hpump, hpumps⟩ := h.section? .placeholderWidth
  obtain ⟨queue, hqueue, hqueues⟩ := h.section? .warnDepth
  obtain ⟨encoder, hencoder, hencoders⟩ := h.section? .implementationName
  have hcodec := text_of_given (hsources .codec 0 rfl)
  have hwidth := number32_of_given (hsources .width 1 rfl)
  have hheight := number32_of_given (hsources .height 2 rfl)
  have hplaceholderWidth := number32_of_given (hpumps .placeholderWidth 0 rfl)
  have hplaceholderHeight := number32_of_given (hpumps .placeholderHeight 1 rfl)
  have hdepth := number64_of_given (hqueues .warnDepth 0 rfl)
  have hname := text_of_given (hencoders .implementationName 0 rfl)
  have hmode := text_of_given (hencoders .packetizationMode 1 rfl)
  dsimp only [Field.table] at hsource hpump hqueue hencoder
  dsimp only [Field.key] at hcodec hwidth hheight hplaceholderWidth hplaceholderHeight hdepth hname hmode
  simp only [ofEntries, hsource, hpump, hqueue, hencoder, hcodec, hwidth, hheight, hplaceholderWidth,
    hplaceholderHeight, hdepth, hname, hmode, bind, Except.bind]
  rfl

end EncodedFeed.Preferences
