import EncodedFeed.Proofs.Config.Saving
import EncodedFeed.Proofs.Toml.Limits

/-!
# What a configuration file leaves out has its default

A configuration file gives some of the fields, in sections and lines of any order, among other sections and keys.
Where these alone make a document, the file is read as preferences that have its values in the fields it gives and
the defaults in the others (`load_only`).
-/

namespace EncodedFeed.Preferences

open Toml (Entries Line ValueText Written)

/-! ### The lines of a file -/

/-- The keys of a section. -/
def keysOf (table : String) : List String :=
  (Field.all.filter fun f => f.table = table).map Field.key

theorem mem_keysOf {name key : String} : key ∈ keysOf name ↔ ∃ f : Field, f.table = name ∧ f.key = key := by
  have hall (f : Field) : f ∈ Field.all := Fintype.complete f
  simp only [keysOf, List.mem_map, List.mem_filter, hall, true_and, decide_eq_true_iff]

/-- The lines give the given fields of preferences, each once and under the header of its section; without them they
make a document that has nothing to say of any field. -/
structure Says (lines : List Line) (p : Preferences) (given : Finset Field) : Prop where
  once (f : Field) : Toml.valuesOf f.table f.key none lines = if f ∈ given then [p.value f] else []
  others : ∃ rest, Toml.build [] [] (Toml.otherLines keysOf none lines) = .ok rest ∧ Holds rest p ∅

variable {p : Preferences} {given : Finset Field}

theorem Holds.lacks {es : Entries} (h : Holds es p ∅) : Entries.Lacks keysOf es := by
  intro name key hkey
  obtain ⟨f, rfl, rfl⟩ := mem_keysOf.mp hkey
  exact h.value f

/-- Such lines make a document that holds the given fields. -/
theorem Says.holds {lines : List Line} (h : Says lines p given) :
    ∃ es, Toml.build [] [] lines = .ok es ∧ Holds es p given := by
  obtain ⟨rest, hrest, hnothing⟩ := h.others
  have hnone : Entries.Extends keysOf (fun _ _ => none) [] [] := fun _ => .inl ⟨rfl, fun _ _ => rfl⟩
  have honce : Toml.Once keysOf (fun _ _ => none) none lines := by
    intro name key hkey
    obtain ⟨f, rfl, rfl⟩ := mem_keysOf.mp hkey
    rw [h.once]
    split <;> simp
  have hstands : Toml.Stands none [] [] := nofun
  obtain ⟨es, hes, hext⟩ := Toml.build_of_otherLines hstands hnone hrest hnothing.lacks honce
  refine ⟨es, hes, fun f => ?_, fun f => ?_⟩
  · obtain ⟨hsame, -⟩ | ⟨origin, fields, -, -, htable, -⟩ := hext f.table
    · rw [hsame]
      exact hnothing.table f
    · exact .inr ⟨origin, fields, htable⟩
  · rw [hext.at?_eq hnothing.lacks (mem_keysOf.mpr ⟨f, rfl, rfl⟩), Toml.collected, h.once]
    split <;> rfl

/-- The values of all fields can be written just if the warning depth fits. -/
theorem exists_valueText_iff : (∀ f, ∃ w, ValueText (p.value f) w) ↔ p.warnDepth.toNat < 2 ^ 63 := by
  have hdepth : (∃ w, ValueText (p.value .warnDepth) w) ↔ p.warnDepth.toNat < 2 ^ 63 :=
    Toml.exists_valueText_integer_iff
  have hstring (t : String) : ∃ w, ValueText (.string t) w := ⟨_, Toml.valueText_write? (s := .string t) rfl⟩
  have hsize (w : UInt32) : ∃ v, ValueText (.integer w.toNat) v :=
    Toml.exists_valueText_integer_iff.mpr (Nat.lt_trans w.toNat_lt (by decide))
  refine ⟨fun h => hdepth.mp (h .warnDepth), fun h f => ?_⟩
  cases f with
  | codec | implementationName | packetizationMode => exact hstring _
  | width | height | placeholderWidth | placeholderHeight => exact hsize _
  | warnDepth => exact hdepth.mpr h

/-! ### Loading a file -/

theorem load_of_readDocument {t : FileTree} {path text : String} {es : Entries}
    (hfile : t.read path = .ok (Octets.ofText text)) (hes : Toml.readDocument text = .ok es) (h : Holds es p given) :
    load t path = .ok (p.only given) := by
  have hread : Toml.readDocument text >>= ofEntries = .ok (p.only given) := by
    rw [hes]
    exact ofEntries_of_holds h
  rw [load_of_read hfile, read, hread]

/-- **What a file gives is loaded, and what it leaves out has its default.**  The file may be any text that is read as
a document holding the given fields; and a text is if its lines give these fields, each once under the header of its
section, in any order and among other lines that make a document without them.  All values can be written in a file
just if the warning depth fits an integer of 64 bits with a sign. -/
theorem load_only (p : Preferences) (given : Finset Field) (t : FileTree) (path text : String)
    (hfile : t.read path = .ok (Octets.ofText text)) :
    (∀ es, Toml.readDocument text = .ok es → Holds es p given → load t path = .ok (p.only given))
      ∧ (∀ lines, Written lines (Toml.skipMark text.toList) → Says lines p given →
        load t path = .ok (p.only given))
      ∧ ((∀ f, ∃ w, ValueText (p.value f) w) ↔ p.warnDepth.toNat < 2 ^ 63) := by
  refine ⟨fun es hes => load_of_readDocument hfile hes, fun lines hlines hsays => ?_, exists_valueText_iff⟩
  obtain ⟨es, hes, hholds⟩ := hsays.holds
  exact load_of_readDocument hfile (Toml.readDocument_of_written hlines hes) hholds

/-! ### Files -/

/-- A tree with a text as its configuration file. -/
def fileOf (text : String) : FileTree where
  entries := [(["rc"], .file (Octets.ofText text))]

theorem read_fileOf (text : String) : (fileOf text).read "rc" = .ok (Octets.ofText text) := by
  have hplace : (fileOf text).place "rc" = .ok ["rc"] := by cbv
  exact FileTree.read_of_find? hplace rfl

/-- A file that gives two fields, with an unknown section and an unknown key. -/
def partialText : String := "[queue]\nwarn_depth = 9\n[extra]\n[source]\nlevel = \"high\"\nheight = 480\n"

/-- Its lines. -/
def partialLines : List Line :=
  [.header ["queue"] false, .pair ["warn_depth"] (.integer 9), .header ["extra"] false,
    .header ["source"] false, .pair ["level"] (.string "high"), .pair ["height"] (.integer 480)]

/-- What it says. -/
def tall : Preferences where
  height := 480
  warnDepth := 9

theorem written_partial : Written partialLines (Toml.skipMark partialText.toList) := by
  have hdepth : ValueText (.integer 9) "9".toList := Toml.valueText_write? (s := .integer 9) rfl
  have hlevel : ValueText (.string "high") "\"high\"".toList := Toml.valueText_write? (s := .string "high") rfl
  have hheight : ValueText (.integer 480) "480".toList := Toml.valueText_write? (s := .integer 480) rfl
  have hsource : Written [.header ["source"] false, .pair ["level"] (.string "high"), .pair ["height"] (.integer 480)]
      "[source]\nlevel = \"high\"\nheight = 480\n".toList :=
    .bareHeader (by decide) (.barePair (by decide) hlevel (.barePair (by decide) hheight .done))
  exact .bareHeader (by decide) (.barePair (by decide) hdepth (.bareHeader (by decide) hsource))

theorem says_partial : Says partialLines tall {.height, .warnDepth} where
  once f := by cases f <;> rfl
  others := by
    refine ⟨_, rfl, fun f => ?_, fun f => ?_⟩
    · cases f with
      | codec | width | height | warnDepth => exact .inr ⟨_, _, rfl⟩
      | placeholderWidth | placeholderHeight | implementationName | packetizationMode => exact .inl rfl
    · cases f <;> rfl

/-- What the file gives is loaded, and the other fields have their defaults. -/
theorem load_only_tall :
    (fileOf partialText).read "rc" = .ok (Octets.ofText partialText)
      ∧ (∃ es, Toml.readDocument partialText = .ok es ∧ Holds es tall {.height, .warnDepth}
        ∧ load (fileOf partialText) "rc" = .ok tall)
      ∧ (Written partialLines (Toml.skipMark partialText.toList) ∧ Says partialLines tall {.height, .warnDepth}
        ∧ load (fileOf partialText) "rc" = .ok tall)
      ∧ ∀ f, ∃ w, ValueText (tall.value f) w := by
  obtain ⟨hdocument, hlines, hvalues⟩ :=
    load_only tall {.height, .warnDepth} (fileOf partialText) "rc" partialText (read_fileOf partialText)
  obtain ⟨es, hes, hholds⟩ := says_partial.holds
  have hread := Toml.readDocument_of_written written_partial hes
  have honly : tall.only {.height, .warnDepth} = tall := by decide
  rw [honly] at hdocument hlines
  exact ⟨read_fileOf partialText, ⟨es, hread, hholds, hdocument es hread hholds⟩,
    ⟨written_partial, says_partial, hlines _ written_partial says_partial⟩, hvalues.mpr (by decide)⟩

theorem load_refused {text : String} {fault : Toml.Fault} (h : Toml.readDocument text = .error fault) :
    load (fileOf text) "rc" = .error (.config ("Failed to parse config file: " ++ fault.message)) := by
  have hread : Toml.readDocument text >>= ofEntries = .error fault := by
    rw [h]
    rfl
  rw [load_of_read (read_fileOf text), read, hread]

/-- A file that gives the least warning depth that does not fit. -/
def deepQueue : String := "queue.warn_depth=9223372036854775808\n"

/-- A file with an unknown key whose value is nested so deep. -/
def nested (levels : Nat) : String :=
  String.ofList ('x' :: '=' :: (List.replicate levels '[' ++ List.replicate levels ']'))

theorem readDocument_deepQueue : Toml.readDocument deepQueue = .error (.numberOutOfRange "9223372036854775808") := by
  have hlast : Toml.KeyText ["warn_depth"] ("warn_depth".toList ++ []) := .bare (by decide) .nil
  have hkey : Toml.KeyText ["queue", "warn_depth"]
      ([] ++ ("queue".toList ++ ([] ++ '.' :: ("warn_depth".toList ++ [])))) :=
    .dotted .nil (.bare (by decide)) .nil hlast
  exact Toml.readDocument_refused (w := "9223372036854775808\n".toList) rfl hkey (by decide) rfl

theorem readDocument_nested {levels : Nat} (h : Toml.depthLimit < levels) :
    Toml.readDocument (nested levels) = .error .tooDeep := by
  have hkey : Toml.KeyText ["x"] ("x".toList ++ []) := .bare (by decide) .nil
  have hblank (n : Nat) (rest : List Char) :
      Toml.skipBlanks (List.replicate (n + 1) '[' ++ rest) = List.replicate (n + 1) '[' ++ rest := rfl
  obtain ⟨more, rfl⟩ := Nat.exists_eq_add_of_le (Nat.succ_le_of_lt h)
  have hrefused := Toml.readValue_brackets Toml.depthLimit
    (List.replicate more '[' ++ List.replicate (Toml.depthLimit + 1 + more) ']')
  rw [← hblank, ← List.append_assoc, List.replicate_append_replicate] at hrefused
  refine Toml.readDocument_refused ?_ hkey (by decide) hrefused
  rw [nested, String.toList_ofList]
  rfl

/-- Neither is loaded. -/
theorem deep_refused :
    (∃ detail, load (fileOf deepQueue) "rc" = .error (.config detail))
      ∧ ∃ detail, load (fileOf (nested 80)) "rc" = .error (.config detail) :=
  ⟨⟨_, load_refused readDocument_deepQueue⟩, _, load_refused (readDocument_nested (by decide))⟩

end EncodedFeed.Preferences
