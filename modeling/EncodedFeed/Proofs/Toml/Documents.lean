import EncodedFeed.Proofs.Toml.Lines

/-!
# Documents are read as they were written

A document of plain sections can be written just when all its integers can be kept, and is then read as
the tables it was written for: its text writes the lines of its sections, and these make their tables.
-/

namespace EncodedFeed.Toml

/-! ### Sections -/

/-- Nothing in a section but its values has to be put between quotes, and no key comes twice. -/
structure Section.Plain (s : Section) : Prop where
  name : IsBare s.1
  keys : ∀ key ∈ s.2.map Prod.fst, IsBare key
  distinct : (s.2.map Prod.fst).Nodup

/-- The pairs of a section as they are read. -/
def Section.fields (s : Section) : Entries := s.2.map fun pair => (pair.1, pair.2.value)

/-- A section as it is read. -/
def Section.entry (s : Section) : String × Value := (s.1, .table .header s.fields)

/-- The lines of a section. -/
def Section.lines (s : Section) : List Line :=
  .header [s.1] false :: s.2.map fun pair => .pair [pair.1] pair.2.value

/-! ### Tables -/

namespace Entries

variable {key : String} {es : Entries}

/-- A new key comes last. -/
theorem alter_new (h : key ∉ es.map Prod.fst) (f : Option Value → Except Fault Value) :
    es.alter key f = (f none).map fun v => es ++ [(key, v)] := by
  induction es with
  | nil => rfl
  | cons entry es ih =>
    rw [List.map_cons, List.mem_cons, not_or] at h
    rw [alter, if_neg (Ne.symm h.1), ih h.2]
    cases f none <;> rfl

/-- The last of several keys is found behind the others. -/
theorem alter_last (h : key ∉ es.map Prod.fst) (v : Value) (f : Option Value → Except Fault Value) :
    alter key f (es ++ [(key, v)]) = (f (some v)).map fun v => es ++ [(key, v)] := by
  induction es with
  | nil =>
    rw [List.nil_append, alter, if_pos rfl]
    rfl
  | cons entry es ih =>
    rw [List.map_cons, List.mem_cons, not_or] at h
    rw [List.cons_append, alter, if_neg (Ne.symm h.1), ih h.2]
    cases f (some v) <;> rfl

/-- A header of a new name opens an empty table. -/
theorem openTable_new (h : key ∉ es.map Prod.fst) :
    es.openTable [key] false = .ok (es ++ [(key, .table .header [])]) := by
  exact alter_new h (asHeader key)

/-- A pair of a new key goes to the end of the table that was opened last. -/
theorem within_putDotted {name : String} (hname : name ∉ es.map Prod.fst) {fields : Entries}
    (hkey : key ∉ fields.map Prod.fst) (v : Value) :
    within [name] (putDotted [] key v true) (es ++ [(name, .table .header fields)])
      = .ok (es ++ [(name, .table .header (fields ++ [(key, v)]))]) := by
  rw [within, alter_last hname]
  simp only [within, putDotted, if_true, alter_new hkey, ifAbsent]
  rfl

end Entries

/-! ### What lines of sections make -/

section Build

variable {es : Entries} {name : String} {table : List String}

theorem build_pairs {pairs : List (String × Scalar)} {fields : Entries} (hname : name ∉ es.map Prod.fst)
    (hdistinct : (fields.map Prod.fst ++ pairs.map Prod.fst).Nodup) (rest : List Line) :
    build [name] (es ++ [(name, .table .header fields)])
        ((pairs.map fun pair => .pair [pair.1] pair.2.value) ++ rest)
      = build [name]
        (es ++ [(name, .table .header (fields ++ pairs.map fun pair => (pair.1, pair.2.value)))]) rest := by
  induction pairs generalizing fields with
  | nil => rw [List.map_nil, List.map_nil, List.append_nil, List.nil_append]
  | cons p pairs ih =>
    have hkey : p.1 ∉ fields.map Prod.fst := fun hmem =>
      (List.nodup_append.mp hdistinct).2.2 _ hmem _ List.mem_cons_self rfl
    have hput : Entries.within [name] (Entries.putDotted [p.1].dropLast ([p.1].getLastD "") p.2.value true)
          (es ++ [(name, .table .header fields)])
        = .ok (es ++ [(name, .table .header (fields ++ [(p.1, p.2.value)]))]) :=
      Entries.within_putDotted hname hkey p.2.value
    have hnames : ((fields ++ [(p.1, p.2.value)]).map Prod.fst ++ pairs.map Prod.fst).Nodup := by
      simpa using hdistinct
    have hrest := ih hnames
    rw [List.append_assoc] at hrest
    rw [List.map_cons, List.cons_append, build, hput]
    exact hrest

/-- The lines of a section make its table. -/
theorem build_section {s : Section} (hs : s.Plain) (hname : s.1 ∉ es.map Prod.fst) (rest : List Line) :
    build table es (s.lines ++ rest) = build [s.1] (es ++ [s.entry]) rest := by
  rw [Section.lines, List.cons_append, build, Entries.openTable_new hname]
  have hdistinct : (([] : Entries).map Prod.fst ++ s.2.map Prod.fst).Nodup := hs.distinct
  exact build_pairs hname hdistinct rest

/-- The lines of sections make their tables. -/
theorem build_sections {sections : List Section} (hplain : ∀ s ∈ sections, s.Plain)
    (hdistinct : (es.map Prod.fst ++ sections.map Prod.fst).Nodup) :
    build table es (sections.flatMap Section.lines) = .ok (es ++ sections.map Section.entry) := by
  induction sections generalizing table es with
  | nil =>
    rw [List.flatMap_nil, List.map_nil, List.append_nil]
    rfl
  | cons s rest ih =>
    obtain ⟨hs, hrest⟩ := List.forall_mem_cons.mp hplain
    have hname : s.1 ∉ es.map Prod.fst := fun hmem =>
      (List.nodup_append.mp hdistinct).2.2 _ hmem _ List.mem_cons_self rfl
    have hnames : ((es ++ [s.entry]).map Prod.fst ++ rest.map Prod.fst).Nodup := by
      simpa [Section.entry] using hdistinct
    rw [List.flatMap_cons, build_section hs hname, ih hrest hnames, List.map_cons, ← List.append_cons]

end Build

/-! ### Documents -/

theorem writePair_eq_ok {pair : String × Scalar} {line : String} (h : writePair pair = .ok line) :
    ∃ w, pair.2.write? = .ok w ∧ line = pair.1 ++ " = " ++ w ++ "\n" :=
  exists_of_map_eq_ok h

theorem writeSection_eq_ok {s : Section} {text : String} (h : writeSection s = .ok text) :
    ∃ lines, writePairs s.2 = .ok lines ∧ text = "[" ++ s.1 ++ "]\n" ++ lines :=
  exists_of_map_eq_ok h

theorem writePairs_cons_eq_ok {pair : String × Scalar} {pairs : List (String × Scalar)} {text : String}
    (h : writePairs (pair :: pairs) = .ok text) :
    ∃ line lines, writePair pair = .ok line ∧ writePairs pairs = .ok lines ∧ text = line ++ lines := by
  rw [writePairs] at h
  split at h
  · next hline hlines => exact ⟨_, _, hline, hlines, (Except.ok.inj h).symm⟩
  · cases h
  · cases h

theorem written_pairs {pairs : List (String × Scalar)} {text : String} (htext : writePairs pairs = .ok text)
    (hbare : ∀ key ∈ pairs.map Prod.fst, IsBare key) {lines : List Line} {cs : List Char} (h : Written lines cs) :
    Written ((pairs.map fun pair => .pair [pair.1] pair.2.value) ++ lines) (text.toList ++ cs) := by
  induction pairs generalizing text with
  | nil =>
    cases htext
    exact h
  | cons p pairs ih =>
    obtain ⟨line, more, hline, hmore, rfl⟩ := writePairs_cons_eq_ok htext
    obtain ⟨w, hw, rfl⟩ := writePair_eq_ok hline
    obtain ⟨hp, hrest⟩ := List.forall_mem_cons.mp hbare
    have htext : (p.1 ++ " = " ++ w ++ "\n" ++ more).toList ++ cs
        = p.1.toList ++ ' ' :: '=' :: ' ' :: (w.toList ++ '\n' :: (more.toList ++ cs)) := by
      simp
    rw [htext]
    exact .barePair hp (valueText_write? hw) (ih hmore hrest)

/-- A section is written line by line. -/
theorem written_section {s : Section} {text : String} (htext : writeSection s = .ok text) (hs : s.Plain)
    {lines : List Line} {cs : List Char} (h : Written lines cs) : Written (s.lines ++ lines) (text.toList ++ cs) := by
  obtain ⟨pairs, hpairs, rfl⟩ := writeSection_eq_ok htext
  have htext : ("[" ++ s.1 ++ "]\n" ++ pairs).toList ++ cs
      = '[' :: (s.1.toList ++ ']' :: '\n' :: (pairs.toList ++ cs)) := by
    simp
  rw [htext]
  exact .bareHeader hs.name (written_pairs hpairs hs.keys h)

/-- A document of several sections has a blank line behind the first. -/
theorem writeDocument_cons_eq_ok {s s' : Section} {rest : List Section} {text : String}
    (h : writeDocument (s :: s' :: rest) = .ok text) :
    ∃ lines more, writeSection s = .ok lines ∧ writeDocument (s' :: rest) = .ok more
      ∧ text = lines ++ "\n" ++ more := by
  rw [writeDocument] at h
  · split at h
    · next hlines hmore => exact ⟨_, _, hlines, hmore, (Except.ok.inj h).symm⟩
    · cases h
    · cases h
  · exact List.cons_ne_nil s' rest

/-- A document is written section by section. -/
theorem written_document {sections : List Section} {text : String} (htext : writeDocument sections = .ok text)
    (hplain : ∀ s ∈ sections, s.Plain) : Written (sections.flatMap Section.lines) text.toList := by
  induction sections generalizing text with
  | nil =>
    cases htext
    exact .done
  | cons s rest ih =>
    obtain ⟨hs, hrest⟩ := List.forall_mem_cons.mp hplain
    rw [List.flatMap_cons]
    match rest with
    | [] =>
      rw [← List.append_nil text.toList]
      exact written_section htext hs .done
    | s' :: rest =>
      obtain ⟨lines, more, hlines, hmore, rfl⟩ := writeDocument_cons_eq_ok htext
      have htext : (lines ++ "\n" ++ more).toList = lines.toList ++ '\n' :: more.toList := by simp
      rw [htext]
      exact written_section hlines hs (.blank (ih hmore hrest))

/-- No document that is written begins with a byte order mark. -/
theorem skipMark_writeDocument {sections : List Section} {text : String}
    (htext : writeDocument sections = .ok text) : skipMark text.toList = text.toList := by
  have hsection {s : Section} {lines : String} (h : writeSection s = .ok lines) :
      ∃ rest, lines.toList = '[' :: rest := by
    obtain ⟨pairs, -, rfl⟩ := writeSection_eq_ok h
    exact ⟨s.1.toList ++ ']' :: '\n' :: pairs.toList, by simp⟩
  match sections with
  | [] =>
    cases htext
    rfl
  | [s] =>
    obtain ⟨rest, hrest⟩ := hsection htext
    rw [hrest]
    rfl
  | s :: s' :: rest =>
    obtain ⟨lines, more, hlines, -, rfl⟩ := writeDocument_cons_eq_ok htext
    obtain ⟨rest, hrest⟩ := hsection hlines
    rw [String.toList_append, String.toList_append, hrest]
    rfl

/-- Reading what was written for plain sections of different names gives their tables. -/
theorem readDocument_writeDocument {sections : List Section} {text : String}
    (htext : writeDocument sections = .ok text) (hplain : ∀ s ∈ sections, s.Plain)
    (hdistinct : (sections.map Prod.fst).Nodup) :
    readDocument text = .ok (sections.map Section.entry) := by
  have hwritten : Written (sections.flatMap Section.lines) (skipMark text.toList) := by
    rw [skipMark_writeDocument htext]
    exact written_document htext hplain
  have hbuild : build [] [] (sections.flatMap Section.lines) = .ok ([] ++ sections.map Section.entry) :=
    build_sections hplain hdistinct
  exact readDocument_of_written hwritten hbuild

/-! ### What can be written -/

theorem exists_map_eq_ok_iff {α β : Type} {x : Except Fault α} {f : α → β} :
    (∃ b, x.map f = .ok b) ↔ ∃ a, x = .ok a := by
  constructor
  · rintro ⟨b, h⟩
    obtain ⟨a, ha, -⟩ := exists_of_map_eq_ok h
    exact ⟨a, ha⟩
  · rintro ⟨a, rfl⟩
    exact ⟨f a, rfl⟩

theorem exists_writePairs_iff (pairs : List (String × Scalar)) :
    (∃ lines, writePairs pairs = .ok lines) ↔ ∀ pair ∈ pairs, pair.2.Fits := by
  induction pairs with
  | nil => exact ⟨fun _ _ h => (List.not_mem_nil h).elim, fun _ => ⟨"", rfl⟩⟩
  | cons pair pairs ih =>
    have hpair : (∃ line, writePair pair = .ok line) ↔ pair.2.Fits :=
      exists_map_eq_ok_iff.trans Scalar.exists_write?_iff
    rw [List.forall_mem_cons, ← hpair, ← ih, writePairs]
    cases writePair pair <;> cases writePairs pairs <;> simp

theorem exists_writeSection_iff (s : Section) :
    (∃ lines, writeSection s = .ok lines) ↔ ∀ pair ∈ s.2, pair.2.Fits :=
  exists_map_eq_ok_iff.trans (exists_writePairs_iff s.2)

/-- A document can be written when all its values can, and then only. -/
theorem exists_writeDocument_iff (sections : List Section) :
    (∃ text, writeDocument sections = .ok text) ↔ ∀ s ∈ sections, ∀ pair ∈ s.2, pair.2.Fits := by
  induction sections with
  | nil => exact ⟨fun _ _ h => (List.not_mem_nil h).elim, fun _ => ⟨"", rfl⟩⟩
  | cons s rest ih =>
    match rest with
    | [] =>
      rw [List.forall_mem_singleton, ← exists_writeSection_iff]
      rfl
    | s' :: rest =>
      rw [List.forall_mem_cons, ← ih, ← exists_writeSection_iff, writeDocument]
      · cases writeSection s <;> cases writeDocument (s' :: rest) <;> simp
      · exact List.cons_ne_nil s' rest

end EncodedFeed.Toml
