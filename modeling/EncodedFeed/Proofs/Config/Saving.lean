import EncodedFeed.Config.File
import EncodedFeed.Proofs.Config.Fields
import EncodedFeed.Proofs.Recording.Written
import EncodedFeed.Proofs.Toml.Documents
import Mathlib

/-!
# Preferences are loaded as they were saved

Saving preferences and loading them from the same path gives them back, whatever texts they hold; where
the warning depth is too great to be written, saving fails and leaves every file as it was.
-/

namespace EncodedFeed

theorem Octets.toText?_ofText (s : String) : Octets.toText? (Octets.ofText s) = some s := by
  have hoctets : (⟨(Octets.ofText s).toArray⟩ : ByteArray) = s.toByteArray := by
    rw [Octets.ofText, Array.toArray_toList]
    rfl
  rw [Octets.toText?, hoctets, String.fromUTF8?, dif_pos s.isValidUTF8]
  rfl

/-! ### Files -/

namespace FileTree

variable {t t' t'' : FileTree} {path : String}

/-- Directories may have come, and nothing else is new or different. -/
def GainsDirectories (t t' : FileTree) : Prop :=
  ∀ p, t'.find? p = t.find? p ∨ t.find? p = none ∧ t'.find? p = some .directory

theorem GainsDirectories.refl (t : FileTree) : t.GainsDirectories t := fun _ => .inl rfl

theorem GainsDirectories.trans (h : t.GainsDirectories t') (h' : t'.GainsDirectories t'') :
    t.GainsDirectories t'' := by
  intro p
  obtain h | ⟨h, hnew⟩ := h p <;> obtain h' | ⟨h', hnew'⟩ := h' p
  · exact .inl (h'.trans h)
  · exact .inr ⟨h ▸ h', hnew'⟩
  · exact .inr ⟨h, h'.trans hnew⟩
  · rw [hnew] at h'
    cases h'

theorem GainsDirectories.find? (h : t.GainsDirectories t') {p : Place} {e : Entry} (hp : t.find? p = some e) :
    t'.find? p = some e := by
  obtain h | ⟨h, -⟩ := h p
  · exact h.trans hp
  · rw [h] at hp
    cases hp

theorem find?_of_read {data : Octets} (h : t.read path = .ok data) :
    ∃ p, t.place path = .ok p ∧ t.find? p = some (.file data) := by
  unfold FileTree.read at h
  split at h
  · cases h
  · next p hp =>
    split at h
    · cases h
    · cases h
    · next hfile =>
      cases h
      exact ⟨p, hp, hfile⟩

theorem contains_of_read {data : Octets} (h : t.read path = .ok data) : t.contains path = true := by
  obtain ⟨p, hp, hfile⟩ := find?_of_read h
  simp only [contains, hp, hfile, Option.isSome_some]

/-- Files are read as before when there are more directories. -/
theorem GainsDirectories.read (h : t.GainsDirectories t') {data : Octets} (hread : t.read path = .ok data) :
    t'.read path = .ok data := by
  obtain ⟨p, hp, hfile⟩ := find?_of_read hread
  exact read_of_find? (place_of_directories (fun _ => h.find?) hp) (h.find? hfile)

theorem gainsDirectories_put {p : Place} (h : t.find? p = none) : t.GainsDirectories (t.put p .directory) := by
  intro q
  have hne : t.find? p ≠ some .directory := by rw [h]; exact fun h => nomatch h
  rw [find?_put hne]
  split
  · next hq => exact .inr ⟨hq ▸ h, rfl⟩
  · exact .inl rfl

theorem gainsDirectories_makeFrom {here : Place} {names : List String} (h : t.makeFrom here names = .ok t') :
    t.GainsDirectories t' := by
  induction names generalizing t here with
  | nil =>
    cases h
    exact .refl _
  | cons name rest ih =>
    rw [makeFrom] at h
    split at h
    · exact ih h
    split at h
    · exact ih h
    split at h
    · cases h
    split at h
    · cases h
    · exact ih h
    · next hnone => exact (gainsDirectories_put hnone).trans (ih h)

theorem gainsDirectories_makeDirectories (h : t.makeDirectories path = .ok t') : t.GainsDirectories t' := by
  unfold makeDirectories at h
  split at h
  · cases h
  · exact gainsDirectories_makeFrom h

/-- What is written where a file can be created is read there. -/
theorem exists_write_of_create {r : Place × FileTree} (h : t.create path = .ok r) (data : Octets) :
    ∃ t', t.write path data = .ok t' ∧ t'.read path = .ok data := by
  obtain ⟨p, t₁⟩ := r
  obtain ⟨hplace, hfile⟩ := find?_of_create h
  have hne : t₁.find? p ≠ some .directory := by rw [hfile]; exact fun h => nomatch h
  refine ⟨t₁.put p (.file data), by rw [write, h], ?_⟩
  exact read_of_find? (place_put hne data hplace) (by rw [find?_put hne, if_pos rfl])

end FileTree

namespace Preferences

open Toml (integerLimit)

/-! ### Preferences as a document -/

variable (p : Preferences)

theorem sections_plain : ∀ s ∈ p.sections, s.Plain := by
  have hnames : ∀ names ∈ [("source", ["codec", "width", "height"]),
      ("pump", ["placeholder_width", "placeholder_height"]), ("queue", ["warn_depth"]),
      ("encoder", ["implementation_name", "packetization_mode"])],
      Toml.IsBare names.1 ∧ (∀ key ∈ names.2, Toml.IsBare key) ∧ names.2.Nodup := by
    decide
  intro s hs
  obtain ⟨hname, hkeys, hdistinct⟩ :=
    hnames _ (List.mem_map_of_mem (f := fun s : Toml.Section => (s.1, s.2.map Prod.fst)) hs)
  exact ⟨hname, hkeys, hdistinct⟩

theorem sections_fit : (∀ s ∈ p.sections, ∀ pair ∈ s.2, pair.2.Fits) ↔ p.warnDepth.toNat < integerLimit := by
  have hfits (w : UInt32) : w.toNat < integerLimit := Nat.lt_trans w.toNat_lt (by decide)
  simp only [sections, List.forall_mem_cons]
  simp [Toml.Scalar.Fits, hfits]

/-- Each field is found in its section under its key. -/
theorem holds_sections : Holds (p.sections.map Toml.Section.entry) p Finset.univ where
  table f := by cases f <;> exact .inr ⟨_, _, rfl⟩
  value f := by cases f <;> rfl

theorem ofEntries_sections : ofEntries (p.sections.map Toml.Section.entry) = .ok p := by
  rw [ofEntries_of_holds p.holds_sections, only_univ]

/-- Preferences are written where the warning depth can be, and read from the text as they were. -/
theorem exists_write (h : p.warnDepth.toNat < integerLimit) : ∃ text, p.write = .ok text ∧ read text = .ok p := by
  obtain ⟨text, htext⟩ := (Toml.exists_writeDocument_iff p.sections).mpr (p.sections_fit.mpr h)
  have hdistinct : (p.sections.map Prod.fst).Nodup :=
    show ["source", "pump", "queue", "encoder"].Nodup by decide
  have hread : Toml.readDocument text >>= ofEntries = .ok p := by
    rw [Toml.readDocument_writeDocument htext p.sections_plain hdistinct]
    exact (pure_bind _ _).trans p.ofEntries_sections
  exact ⟨text, by rw [write, htext], by rw [read, hread]⟩

theorem write_eq_error (h : integerLimit ≤ p.warnDepth.toNat) : ∃ detail, p.write = .error (.config detail) := by
  rw [write]
  split
  · next text htext =>
    have hfits := p.sections_fit.mp ((Toml.exists_writeDocument_iff p.sections).mp ⟨text, htext⟩)
    exact absurd hfits (Nat.not_lt.mpr h)
  · exact ⟨_, rfl⟩

/-! ### Saving and loading -/

variable {p}

/-- A file can be put at the path: the directory that is to hold it is there or can be made, and a file can
be created in it. -/
def CanHold (t : FileTree) (path : String) : Prop :=
  ∃ t' created, makeRoom t path = .ok t' ∧ t'.create path = .ok created

theorem gainsDirectories_makeRoom {t t' : FileTree} {path : String} (h : makeRoom t path = .ok t') :
    t.GainsDirectories t' := by
  unfold makeRoom at h
  split at h
  · cases h
    exact .refl t
  · exact FileTree.gainsDirectories_makeDirectories h

theorem load_of_read {t : FileTree} {path text : String} (h : t.read path = .ok (Octets.ofText text)) :
    load t path = Preferences.read text := by
  have htext : t.readText path = .ok text := by
    simp only [FileTree.readText, h, Octets.toText?_ofText]
  rw [load, if_pos (FileTree.contains_of_read h), htext]

/-- What is saved where a file can be put is loaded as it was. -/
theorem load_save {t : FileTree} {path : String} (hdepth : p.warnDepth.toNat < integerLimit)
    (hpath : CanHold t path) : ∃ t', p.save t path = (.ok (), t') ∧ load t' path = .ok p := by
  obtain ⟨t₁, created, hroom, hcreate⟩ := hpath
  obtain ⟨text, hwrite, hread⟩ := p.exists_write hdepth
  obtain ⟨t₂, hfile, hdata⟩ := FileTree.exists_write_of_create hcreate (Octets.ofText text)
  exact ⟨t₂, by simp only [save, hroom, hwrite, hfile], (load_of_read hdata).trans hread⟩

/-- Preferences that cannot be written are not saved, and no file changes. -/
theorem save_eq_error {t : FileTree} {path : String} (hdepth : integerLimit ≤ p.warnDepth.toNat) :
    ∃ detail t', p.save t path = (.error (.config detail), t') ∧ t.GainsDirectories t' := by
  unfold save
  split
  · exact ⟨_, t, rfl, .refl t⟩
  · next t₁ hroom =>
    obtain ⟨detail, hwrite⟩ := p.write_eq_error hdepth
    rw [hwrite]
    exact ⟨detail, t₁, rfl, gainsDirectories_makeRoom hroom⟩

/-- Preferences come back from the path they were saved to as they were, field by field, unless the warning
depth does not fit an integer of 64 bits with a sign: then saving fails, and every file there was is read as
before. -/
theorem load_save_or_refused (p : Preferences) (t : FileTree) (path : String) :
    (p.warnDepth.toNat < 2 ^ 63 → CanHold t path →
        ∃ t', p.save t path = (.ok (), t') ∧ load t' path = .ok p)
      ∧ (2 ^ 63 ≤ p.warnDepth.toNat → ∃ detail t', p.save t path = (.error (.config detail), t')
        ∧ ∀ file data, t.read file = .ok data → t'.read file = .ok data) := by
  constructor
  · exact load_save
  · intro hdepth
    obtain ⟨detail, t', hsave, hgains⟩ := save_eq_error hdepth
    exact ⟨detail, t', hsave, fun _ _ => hgains.read⟩

/-- Preferences with quotes, backslashes, line breaks and control characters, and the greatest depth that can
be written. -/
def awkward : Preferences where
  codec := "\n'''\"\\\r\x00"
  implementationName := "say \"\"\"it\"\"\" on\ntwo lines\\"
  packetizationMode := "C:\\temp \"x\""
  warnDepth := 0x7fffffffffffffff

/-- A tree with a configuration file. -/
def configured : FileTree where
  entries := [(["rc"], .file (Octets.ofText "[queue]\n"))]

/-- In the empty tree a directory can be made to hold a file. -/
theorem canHold_empty : CanHold {} "d/rc" := by
  have hroom : makeRoom {} "d/rc" = .ok ⟨[(["d"], .directory)]⟩ := by cbv
  have hcreate : FileTree.create ⟨[(["d"], .directory)]⟩ "d/rc"
      = .ok (["d", "rc"], ⟨[(["d", "rc"], .file []), (["d"], .directory)]⟩) := by cbv
  exact ⟨_, _, hroom, hcreate⟩

/-- Awkward preferences come back from a file in a directory that has to be made, and a depth one greater is
refused over a file. -/
theorem load_save_or_refused_awkward :
    (awkward.warnDepth.toNat < 2 ^ 63 ∧ CanHold {} "d/rc"
      ∧ ∃ t', awkward.save {} "d/rc" = (.ok (), t') ∧ load t' "d/rc" = .ok awkward)
    ∧ (2 ^ 63 ≤ ({ warnDepth := 0x8000000000000000 } : Preferences).warnDepth.toNat
      ∧ configured.read "rc" = .ok (Octets.ofText "[queue]\n")
      ∧ ∃ detail t', ({ warnDepth := 0x8000000000000000 } : Preferences).save configured "rc"
          = (.error (.config detail), t')
        ∧ t'.read "rc" = .ok (Octets.ofText "[queue]\n")) := by
  have hread : configured.read "rc" = .ok (Octets.ofText "[queue]\n") := by
    have hplace : configured.place "rc" = .ok ["rc"] := by cbv
    exact FileTree.read_of_find? hplace rfl
  obtain ⟨hsaved, -⟩ := load_save_or_refused awkward {} "d/rc"
  obtain ⟨-, hrefused⟩ := load_save_or_refused { warnDepth := 0x8000000000000000 } configured "rc"
  obtain ⟨detail, t', hsave, hkeeps⟩ := hrefused (by decide)
  exact ⟨⟨by decide, canHold_empty, hsaved (by decide) canHold_empty⟩,
    by decide, hread, detail, t', hsave, hkeeps _ _ hread⟩

end Preferences

end EncodedFeed
