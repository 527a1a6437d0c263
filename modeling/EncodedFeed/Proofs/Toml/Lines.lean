import EncodedFeed.Proofs.Toml.Values
import Mathlib.Data.List.DropRight

/-!
# The lines of a document

A document is written line by line, in many ways: blanks may stand around keys, keys between quotes, comments behind
everything, and blank lines anywhere.  `Written` says which texts write given lines, and `build` what document lines
make; every text is read as the document that its lines make (`readDocument_of_written`).  What a value may look like
is left to the reader of values: `ValueText`.
-/

namespace EncodedFeed.Toml

/-! ### Lines and what they make -/

/-- What a line says, blank lines and comments apart. -/
inductive Line
  /-- A value for a key in the table at hand. -/
  | pair (path : List String) (value : Value)
  /-- The header of another table, or of one more of several tables. -/
  | header (path : List String) (isItem : Bool)

/-- The document that lines make, given the table at hand and what came before. -/
def build : List String → Entries → List Line → Except Fault Entries
  | _, es, [] => .ok es
  | table, es, .pair path value :: rest =>
    (es.within table (Entries.putDotted path.dropLast (path.getLastD "") value true)).bind fun es =>
      build table es rest
  | _, es, .header path isItem :: rest => (es.openTable path isItem).bind fun es => build path es rest

/-! ### How lines are written -/

/-- Spaces and tabs. -/
def Blanks (w : List Char) : Prop := ∀ c ∈ w, isBlank c = true

/-- The text writes one part of a key: as it is, or between quotes or apostrophes. -/
inductive PartText (name : String) : List Char → Prop
  | bare (h : IsBare name) : PartText name name.toList
  | basic {words : List (List Char)} (h : List.Forall₂ Spells name.toList words) :
    PartText name ('"' :: (words.flatten ++ ['"']))
  | literal (h : ∀ c ∈ name.toList, isVisible c = true ∧ c ≠ '\'') : PartText name ('\'' :: (name.toList ++ ['\'']))

/-- The text writes a key, dots between its parts. -/
inductive KeyText : List String → List Char → Prop
  | last {name : String} {before part after : List Char} (hbefore : Blanks before) (hpart : PartText name part)
    (hafter : Blanks after) : KeyText [name] (before ++ (part ++ after))
  | dotted {name : String} {path : List String} {before part after rest : List Char} (hbefore : Blanks before)
    (hpart : PartText name part) (hafter : Blanks after) (hrest : KeyText path rest) :
    KeyText (name :: path) (before ++ (part ++ (after ++ '.' :: rest)))

/-- Blanks and perhaps a comment. -/
inductive Trailing : List Char → Prop
  | blanks {w : List Char} (h : Blanks w) : Trailing w
  | comment {w cs : List Char} (h : Blanks w) (hcs : ∀ c ∈ cs, isVisible c = true) : Trailing (w ++ '#' :: cs)

/-- The text is the rest of a line, with its line break, and the lines behind it; or the rest of the last line. -/
inductive LineEnd : List Char → List Char → Prop
  | last {w : List Char} (h : Trailing w) : LineEnd w []
  | feed {w cs : List Char} (h : Trailing w) : LineEnd (w ++ '\n' :: cs) cs
  | returnFeed {w cs : List Char} (h : Trailing w) : LineEnd (w ++ '\r' :: '\n' :: cs) cs

/-- The text writes a value: with the rest of a line behind it, it is read as that value. -/
def ValueText (value : Value) (w : List Char) : Prop :=
  ∀ rest cs, LineEnd rest cs → readValue depthLimit (skipBlanks (w ++ rest)) = .ok (value, rest)

/-- The text writes a line up to blanks and a comment, or nothing. -/
inductive LineText : Option Line → List Char → Prop
  | nothing : LineText none []
  | pair {path : List String} {value : Value} {key w : List Char} (hkey : KeyText path key)
    (hdepth : path.length ≤ depthLimit) (hvalue : ValueText value w) :
    LineText (some (.pair path value)) (key ++ '=' :: w)
  | header {path : List String} {before key : List Char} (hbefore : Blanks before) (hkey : KeyText path key)
    (hdepth : path.length ≤ depthLimit) : LineText (some (.header path false)) (before ++ '[' :: (key ++ [']']))
  | item {path : List String} {before key : List Char} (hbefore : Blanks before) (hkey : KeyText path key)
    (hdepth : path.length ≤ depthLimit) :
    LineText (some (.header path true)) (before ++ '[' :: '[' :: (key ++ [']', ']']))

/-- The text writes lines, blank lines and comments among them. -/
inductive Written : List Line → List Char → Prop
  | done : Written [] []
  | line {line? : Option Line} {lines : List Line} {w rest cs : List Char} (hline : LineText line? w)
    (hend : LineEnd rest cs) (hrest : Written lines cs) : Written (line?.toList ++ lines) (w ++ rest)

theorem exists_of_map_eq_ok {α β : Type} {x : Except Fault α} {f : α → β} {b : β} (h : x.map f = .ok b) :
    ∃ a, x = .ok a ∧ b = f a := by
  cases x with
  | error e => cases h
  | ok a => exact ⟨a, rfl, (Except.ok.inj h).symm⟩

theorem exists_of_bind_eq_ok {α β : Type} {x : Except Fault α} {f : α → Except Fault β} {b : β}
    (h : x.bind f = .ok b) : ∃ a, x = .ok a ∧ f a = .ok b := by
  cases x with
  | error e => cases h
  | ok a => exact ⟨a, rfl, h⟩

/-! ### Blanks -/

theorem Blanks.nil : Blanks [] := List.forall_mem_nil _

theorem skipBlanks_append {w : List Char} (h : Blanks w) (cs : List Char) :
    skipBlanks (w ++ cs) = skipBlanks cs :=
  List.dropWhile_append_of_pos h

theorem skipBlanks_skipBlanks (cs : List Char) : skipBlanks (skipBlanks cs) = skipBlanks cs :=
  List.dropWhile_idempotent ..

theorem not_blank_of_not_visible {c : Char} (h : isVisible c = false) : isBlank c = false := by
  rw [isBlank, Bool.or_eq_false_iff, beq_eq_false_iff_ne, beq_eq_false_iff_ne]
  constructor
  · rintro rfl
    cases h
  · rintro rfl
    cases h

/-! ### The ends of lines -/

/-- Blanks and a comment are passed over up to what is not visible. -/
theorem Trailing.skip {w : List Char} (h : Trailing w) {tail : List Char}
    (htail : ∀ c ∈ tail.head?, isVisible c = false) : skipComment (skipBlanks (w ++ tail)) = tail := by
  cases h with
  | blanks hblanks =>
    rw [skipBlanks_append hblanks]
    cases tail with
    | nil => rfl
    | cons c tail =>
      have hc := htail c rfl
      have hhash : c ≠ '#' := by
        rintro rfl
        cases hc
      rw [skipBlanks_cons (not_blank_of_not_visible hc)]
      unfold skipComment
      split
      · next heq => exact absurd (List.cons.inj heq).1 hhash
      · rfl
  | @comment w cs hblanks hcs =>
    rw [List.append_assoc, skipBlanks_append hblanks, List.cons_append, skipBlanks_cons rfl, skipComment,
      List.dropWhile_append_of_pos hcs]
    cases tail with
    | nil => rfl
    | cons c tail => rw [List.dropWhile_cons, htail c rfl, if_neg Bool.false_ne_true]

theorem LineEnd.newline (cs : List Char) : LineEnd ('\n' :: cs) cs := .feed (w := []) (.blanks .nil)

theorem LineEnd.lineEnd {w cs : List Char} (h : LineEnd w cs) : lineEnd w = .ok cs := by
  cases h with
  | last h =>
    have hskip : skipComment (skipBlanks (w ++ [])) = [] := h.skip (by simp)
    rw [List.append_nil] at hskip
    rw [Toml.lineEnd, hskip]
  | feed h => rw [Toml.lineEnd, h.skip (by simp [isVisible])]; rfl
  | returnFeed h => rw [Toml.lineEnd, h.skip (by simp [isVisible])]; rfl

theorem lineEnd_skipBlanks (w : List Char) : lineEnd (skipBlanks w) = lineEnd w := by
  rw [lineEnd, lineEnd, skipBlanks_skipBlanks]

/-! ### Keys -/

section Keys

variable {name : String} {path : List String} {part w : List Char}

theorem PartText.head (h : PartText name part) (rest : List Char) :
    ∃ c tail, part ++ rest = c :: tail ∧ BeginsKey c := by
  cases h with
  | bare h =>
    obtain ⟨c, tail, htail, hc⟩ := isBareKeyChar_of_head? h rest
    exact ⟨c, tail, htail, .inl hc⟩
  | basic => exact ⟨_, _, rfl, .inr (.inl rfl)⟩
  | literal => exact ⟨_, _, rfl, .inr (.inr rfl)⟩

theorem PartText.skip_before {before : List Char} (h : PartText name part) (hbefore : Blanks before)
    (rest : List Char) : skipBlanks (before ++ (part ++ rest)) = part ++ rest := by
  obtain ⟨c, tail, htail, hc⟩ := h.head rest
  rw [skipBlanks_append hbefore, htail, skipBlanks_cons hc.not_blank]

theorem PartText.readSimpleKey (h : PartText name part) {rest : List Char}
    (hrest : ∀ c ∈ rest.head?, isBareKeyChar c = false) : readSimpleKey (part ++ rest) = .ok (name, rest) := by
  cases h with
  | bare h => exact readSimpleKey_bare h hrest
  | basic h =>
    have hread := basicBody_spelled h [] rest
    rw [List.reverse_nil, List.nil_append, String.ofList_toList] at hread
    rw [List.cons_append, List.append_assoc]
    exact hread
  | literal h =>
    have hread := literalBody_text h rest
    rw [String.ofList_toList] at hread
    rw [List.cons_append, List.append_assoc]
    exact hread

/-- The last part of a key is read up to what is no dot. -/
theorem PartText.readKey_last {before tail : List Char} (h : PartText name part) (hbefore : Blanks before)
    (htail : ∀ c ∈ tail.head?, isBareKeyChar c = false) (hdot : (skipBlanks tail).head? ≠ some '.') (n : Nat) :
    readKey (n + 1) (before ++ (part ++ tail)) = .ok ([name], skipBlanks tail) := by
  rw [readKey, h.skip_before hbefore, h.readSimpleKey htail]
  dsimp only
  split
  · next heq =>
    rw [heq] at hdot
    exact absurd rfl hdot
  · rfl

/-- Another part of a key is read up to its dot. -/
theorem PartText.readKey_dotted {before tail rest cs : List Char} {n : Nat} (h : PartText name part)
    (hbefore : Blanks before) (htail : ∀ c ∈ tail.head?, isBareKeyChar c = false)
    (hdot : skipBlanks tail = '.' :: rest) (hrest : readKey n rest = .ok (path, cs)) :
    readKey (n + 1) (before ++ (part ++ tail)) = .ok (name :: path, cs) := by
  rw [readKey, h.skip_before hbefore, h.readSimpleKey htail]
  simp only [hdot, hrest]

theorem head?_blanks_append {w cs : List Char} (h : Blanks w) (hcs : ∀ c ∈ cs.head?, isBareKeyChar c = false) :
    ∀ c ∈ (w ++ cs).head?, isBareKeyChar c = false := by
  cases w with
  | nil => exact hcs
  | cons b w =>
    intro c hc
    cases hc
    have hblank := h b List.mem_cons_self
    rw [isBlank, Bool.or_eq_true, beq_iff_eq, beq_iff_eq] at hblank
    obtain rfl | rfl := hblank <;> rfl

/-- **A key is read** off any text that writes it, up to an equals sign or a bracket. -/
theorem KeyText.readKey (h : KeyText path w) {c : Char} (hc : c = '=' ∨ c = ']') {n : Nat} (hn : path.length ≤ n)
    (rest : List Char) : readKey n (w ++ c :: rest) = .ok (path, c :: rest) := by
  induction h generalizing n with
  | @last name before part after hbefore hpart hafter =>
    obtain ⟨n, rfl⟩ := Nat.exists_eq_add_one_of_ne_zero (Nat.ne_zero_of_lt hn)
    have hend : skipBlanks (after ++ c :: rest) = c :: rest := by
      rw [skipBlanks_append hafter]
      obtain rfl | rfl := hc <;> exact skipBlanks_cons rfl rest
    have htail : ∀ x ∈ (after ++ c :: rest).head?, isBareKeyChar x = false := by
      refine head?_blanks_append hafter fun x hx => ?_
      cases hx
      obtain rfl | rfl := hc <;> rfl
    have hdot : (skipBlanks (after ++ c :: rest)).head? ≠ some '.' := by
      rw [hend]
      obtain rfl | rfl := hc <;> simp
    rw [List.append_assoc, List.append_assoc, hpart.readKey_last hbefore htail hdot, hend]
  | @dotted name path before part after w hbefore hpart hafter _ ih =>
    obtain ⟨n, rfl⟩ := Nat.exists_eq_add_one_of_ne_zero (Nat.ne_zero_of_lt hn)
    have hdot : skipBlanks (after ++ '.' :: (w ++ c :: rest)) = '.' :: (w ++ c :: rest) := by
      rw [skipBlanks_append hafter]
      exact skipBlanks_cons rfl _
    have htail : ∀ x ∈ (after ++ '.' :: (w ++ c :: rest)).head?, isBareKeyChar x = false := by
      refine head?_blanks_append hafter fun x hx => ?_
      cases hx
      rfl
    rw [List.append_assoc, List.append_assoc, List.append_assoc, List.cons_append]
    exact hpart.readKey_dotted hbefore htail hdot (ih (Nat.le_of_succ_le_succ hn))

/-- A key begins behind blanks. -/
theorem KeyText.head (h : KeyText path w) (rest : List Char) :
    ∃ before c tail, w ++ rest = before ++ c :: tail ∧ Blanks before ∧ BeginsKey c := by
  cases h with
  | @last _ before part after hbefore hpart =>
    obtain ⟨c, tail, htail, hc⟩ := hpart.head (after ++ rest)
    exact ⟨before, c, tail, by rw [← htail]; simp, hbefore, hc⟩
  | @dotted _ _ before part after more hbefore hpart =>
    obtain ⟨c, tail, htail, hc⟩ := hpart.head (after ++ '.' :: (more ++ rest))
    exact ⟨before, c, tail, by rw [← htail]; simp, hbefore, hc⟩

theorem KeyText.head?_ne (h : KeyText path w) (rest : List Char) : (w ++ rest).head? ≠ some '[' := by
  obtain ⟨before, c, tail, htext, hbefore, hc⟩ := h.head rest
  rw [htext]
  cases before with
  | nil => simpa using hc.ne (by decide)
  | cons b before =>
    intro hb
    obtain rfl : b = '[' := Option.some.inj hb
    cases hbefore '[' List.mem_cons_self

end Keys

/-! ### Reading line by line -/

/-- The line of a header changes the table that pairs go into. -/
theorem readLines_header {table path : List String} {es es' : Entries} {isItem : Bool}
    {rest after cs : List Char} (hheader : readHeader ('[' :: rest) = .ok ((path, isItem), after))
    (hend : lineEnd after = .ok cs) (hopen : es.openTable path isItem = .ok es') (fuel : Nat) :
    readLines (fuel + 1) table es ('[' :: rest) = readLines fuel path es' cs := by
  rw [readLines, skipBlanks_cons rfl]
  simp only [hheader, hend, hopen]

/-- A line that begins as a key is a pair. -/
theorem readLines_key {c : Char} (hc : BeginsKey c) (fuel : Nat) (table : List String) (es : Entries)
    (rest : List Char) :
    readLines (fuel + 1) table es (c :: rest) =
      match readPair (readValue depthLimit) (c :: rest) with
      | .error e => .error e
      | .ok ((path, v), cs) =>
        match lineEnd cs, es.within table fun es => es.putDotted path.dropLast (path.getLastD "") v true with
        | .ok cs, .ok es => readLines fuel table es cs
        | .error e, _ => .error e
        | _, .error e => .error e := by
  have hfeed : c ≠ '\n' := hc.ne (by decide)
  have hreturn : c ≠ '\r' := hc.ne (by decide)
  have hnone : afterNewline? (c :: rest) = none :=
    afterNewline?_eq_none (by simpa using hfeed) (by simpa using hreturn)
  rw [readLines, skipBlanks_cons hc.not_blank]
  split
  · next h => cases h
  · next h => exact absurd (List.cons.inj h).1 (hc.ne (by decide))
  · next h => exact absurd (List.cons.inj h).1 (hc.ne (by decide))
  · generalize afterNewline? (c :: rest) = line at hnone ⊢
    subst hnone
    rfl

/-- The line of a pair puts its value into the table at hand. -/
theorem readLines_pair {table path : List String} {es es' : Entries} {v : Value} {c : Char}
    {rest after cs : List Char} (hc : BeginsKey c)
    (hpair : readPair (readValue depthLimit) (c :: rest) = .ok ((path, v), after))
    (hend : lineEnd after = .ok cs)
    (hput : es.within table (Entries.putDotted path.dropLast (path.getLastD "") v true) = .ok es') (fuel : Nat) :
    readLines (fuel + 1) table es (c :: rest) = readLines fuel table es' cs := by
  rw [readLines_key hc]
  simp only [hpair, hend, hput]

/-- The lines that are left add up to a document, given the table they go into and what came before. -/
def ReadsTo (table : List String) (es : Entries) (cs : List Char) (result : Entries) : Prop :=
  ∀ fuel, cs.length < fuel → readLines fuel table es cs = .ok result

namespace ReadsTo

variable {table : List String} {es fields result : Entries} {cs : List Char} {name : String}

theorem done : ReadsTo table es [] es := by
  intro fuel hfuel
  obtain ⟨fuel, rfl⟩ := Nat.exists_eq_add_one_of_ne_zero (Nat.ne_of_gt hfuel)
  rfl

/-- A line is read off and the others add up to the document from there on. -/
theorem line {table' : List String} {es' : Entries} {cs' : List Char} (hlength : cs'.length < cs.length)
    (hstep : ∀ fuel, readLines (fuel + 1) table es cs = readLines fuel table' es' cs')
    (h : ReadsTo table' es' cs' result) : ReadsTo table es cs result := by
  intro fuel hfuel
  obtain ⟨fuel, rfl⟩ := Nat.exists_eq_add_one_of_ne_zero (Nat.ne_zero_of_lt hfuel)
  rw [hstep]
  exact h fuel (by omega)

end ReadsTo

section Lines

variable {table path : List String} {es es' result : Entries} {key w rest cs : List Char}

/-- The header of a table, read up to what follows its bracket. -/
theorem readHeader_table (hkey : KeyText path key) (hdepth : path.length ≤ depthLimit) (rest : List Char) :
    readHeader ('[' :: (key ++ ']' :: rest)) = .ok ((path, false), rest) := by
  have hread := hkey.readKey (.inr rfl) hdepth rest
  unfold readHeader
  split
  · next heq =>
    have hhead := hkey.head?_ne (']' :: rest)
    rw [(List.cons.inj heq).2] at hhead
    exact absurd rfl hhead
  · next heq =>
    rw [← (List.cons.inj heq).2, hread]
    rfl
  · next hne => exact absurd rfl (hne _)

/-- The header of one of several tables. -/
theorem readHeader_item (hkey : KeyText path key) (hdepth : path.length ≤ depthLimit) (rest : List Char) :
    readHeader ('[' :: '[' :: (key ++ ']' :: ']' :: rest)) = .ok ((path, true), rest) := by
  rw [readHeader, hkey.readKey (.inr rfl) hdepth]
  rfl

theorem readPair_text (hkey : KeyText path key) (hdepth : path.length ≤ depthLimit) {value : Value}
    (hvalue : ValueText value w) (hend : LineEnd rest cs) :
    readPair (readValue depthLimit) (key ++ '=' :: (w ++ rest)) = .ok ((path, value), skipBlanks rest) := by
  simp only [readPair, hkey.readKey (.inl rfl) hdepth, hvalue rest cs hend]

theorem readPair_skipBlanks (value : Reader Value) (cs : List Char) :
    readPair value (skipBlanks cs) = readPair value cs := by
  rw [readPair, readPair, depthLimit, readKey, readKey, skipBlanks_skipBlanks]

theorem readLines_skipBlanks (fuel : Nat) (table : List String) (es : Entries) (cs : List Char) :
    readLines (fuel + 1) table es (skipBlanks cs) = readLines (fuel + 1) table es cs := by
  rw [readLines, readLines, skipBlanks_skipBlanks]

theorem LineEnd.length_lt (h : LineEnd w cs) (hw : w ≠ []) : cs.length < w.length := by
  cases h with
  | last => exact List.length_pos_iff.mpr hw
  | feed => simp only [List.length_append, List.length_cons]; omega
  | returnFeed => simp only [List.length_append, List.length_cons]; omega

theorem LineEnd.length_le (h : LineEnd w cs) : cs.length ≤ w.length := by
  cases h <;> simp only [List.length_append, List.length_cons, List.length_nil] <;> omega

/-- Behind its blanks the rest of a line is a comment, or over. -/
theorem LineEnd.skip (h : LineEnd w cs) :
    (∃ v, skipBlanks w = '#' :: v) ∨ skipBlanks w = [] ∧ cs = [] ∨ afterNewline? (skipBlanks w) = some cs := by
  have hbegins {w : List Char} (h : Trailing w) (tail : List Char) :
      (∃ v, skipBlanks (w ++ tail) = '#' :: v) ∨ skipBlanks (w ++ tail) = skipBlanks tail := by
    cases h with
    | blanks h => exact .inr (skipBlanks_append h tail)
    | @comment w v h =>
      refine .inl ⟨v ++ tail, ?_⟩
      rw [List.append_assoc, skipBlanks_append h]
      exact skipBlanks_cons rfl _
  cases h with
  | last h =>
    have hskip := hbegins h []
    rw [List.append_nil] at hskip
    exact hskip.imp_right fun hskip => .inl ⟨hskip, rfl⟩
  | feed h => exact (hbegins h _).imp_right fun hskip => .inr (by rw [hskip]; rfl)
  | returnFeed h => exact (hbegins h _).imp_right fun hskip => .inr (by rw [hskip]; rfl)

/-- A line that says nothing changes nothing. -/
theorem ReadsTo.nothing (hend : LineEnd w cs) (h : ReadsTo table es cs result) : ReadsTo table es w result := by
  by_cases hw : w = []
  · subst hw
    have hcs : cs = [] := List.length_eq_zero_iff.mp (Nat.le_zero.mp hend.length_le)
    rwa [hcs] at h
  rcases hend.skip with ⟨v, hskip⟩ | ⟨hskip, rfl⟩ | hskip
  · refine .line (hend.length_lt hw) (fun fuel => ?_) h
    have hline := hend.lineEnd
    rw [← lineEnd_skipBlanks, hskip] at hline
    rw [← readLines_skipBlanks, hskip, readLines, skipBlanks_cons rfl]
    simp only [hline]
  · intro fuel hfuel
    obtain ⟨fuel, rfl⟩ := Nat.exists_eq_add_one_of_ne_zero (Nat.ne_zero_of_lt hfuel)
    rw [← readLines_skipBlanks, hskip]
    exact h _ (Nat.succ_pos fuel)
  · refine .line (hend.length_lt hw) (fun fuel => ?_) h
    rw [← readLines_skipBlanks, readLines, skipBlanks_skipBlanks]
    split
    · next heq => rw [heq] at hskip; cases hskip
    · next heq => rw [heq] at hskip; cases hskip
    · next heq => rw [heq] at hskip; cases hskip
    · simp only [hskip]

/-- The line of a pair. -/
theorem ReadsTo.pairLine (hkey : KeyText path key) (hdepth : path.length ≤ depthLimit) {value : Value}
    (hvalue : ValueText value w) (hend : LineEnd rest cs)
    (hput : es.within table (Entries.putDotted path.dropLast (path.getLastD "") value true) = .ok es')
    (h : ReadsTo table es' cs result) : ReadsTo table es (key ++ '=' :: (w ++ rest)) result := by
  have hpair := readPair_text hkey hdepth hvalue hend
  have hline : lineEnd (skipBlanks rest) = .ok cs := (lineEnd_skipBlanks rest).trans hend.lineEnd
  obtain ⟨before, c, tail, htext, hbefore, hc⟩ := hkey.head ('=' :: (w ++ rest))
  have hskip : skipBlanks (key ++ '=' :: (w ++ rest)) = c :: tail := by
    rw [htext, skipBlanks_append hbefore, skipBlanks_cons hc.not_blank]
  refine .line ?_ (fun fuel => ?_) h
  · have hle := hend.length_le
    simp only [List.length_append, List.length_cons]
    omega
  · rw [← readPair_skipBlanks, hskip] at hpair
    rw [← readLines_skipBlanks, hskip]
    exact readLines_pair hc hpair hline hput fuel

/-- The line of a header, its brackets and all before them left open. -/
theorem ReadsTo.headerLine {before opened : List Char} {isItem : Bool} (hbefore : Blanks before)
    (hheader : readHeader ('[' :: opened) = .ok ((path, isItem), rest)) (hlength : rest.length ≤ opened.length)
    (hend : LineEnd rest cs) (hopen : es.openTable path isItem = .ok es') (h : ReadsTo path es' cs result) :
    ReadsTo table es (before ++ '[' :: opened) result := by
  refine .line ?_ (fun fuel => ?_) h
  · have hle := hend.length_le
    simp only [List.length_append, List.length_cons]
    omega
  · rw [← readLines_skipBlanks, skipBlanks_append hbefore, skipBlanks_cons rfl]
    exact readLines_header hheader hend.lineEnd hopen fuel

/-- **Lines that are written are read** as what they make. -/
theorem Written.readsTo {lines : List Line} (h : Written lines cs) (hbuild : build table es lines = .ok result) :
    ReadsTo table es cs result := by
  induction h generalizing table es with
  | done =>
    obtain rfl : es = result := Except.ok.inj hbuild
    exact .done
  | @line line? lines w rest cs hline hend _ ih =>
    cases hline with
    | nothing => exact .nothing hend (ih hbuild)
    | @pair path value key w hkey hdepth hvalue =>
      obtain ⟨es', hput, hbuild⟩ := exists_of_bind_eq_ok hbuild
      rw [List.append_assoc, List.cons_append]
      exact .pairLine hkey hdepth hvalue hend hput (ih hbuild)
    | @header path before key hbefore hkey hdepth =>
      obtain ⟨es', hopen, hbuild⟩ := exists_of_bind_eq_ok hbuild
      have hread := readHeader_table hkey hdepth rest
      rw [List.append_assoc, List.cons_append, List.append_assoc, List.singleton_append]
      exact .headerLine hbefore hread (by simp; omega) hend hopen (ih hbuild)
    | @item path before key hbefore hkey hdepth =>
      obtain ⟨es', hopen, hbuild⟩ := exists_of_bind_eq_ok hbuild
      have hread := readHeader_item hkey hdepth rest
      rw [List.append_assoc, List.cons_append, List.cons_append, List.append_assoc]
      exact .headerLine hbefore hread (by simp; omega) hend hopen (ih hbuild)

end Lines

/-- **A document is read** as what the lines of its text make. -/
theorem readDocument_of_written {text : String} {lines : List Line} {es : Entries}
    (h : Written lines (skipMark text.toList)) (hbuild : build [] [] lines = .ok es) :
    readDocument text = .ok es :=
  h.readsTo hbuild _ (Nat.lt_succ_self _)

/-! ### Values -/

theorem Trailing.endsValue {w : List Char} (h : Trailing w) {tail : List Char} (htail : EndsValue tail) :
    EndsValue (w ++ tail) := by
  have hblanks {w : List Char} (hw : Blanks w) {tail : List Char} (htail : EndsValue tail) :
      EndsValue (w ++ tail) := by
    cases w with
    | nil => exact htail
    | cons b w =>
      intro c hc
      cases hc
      have hblank := hw b List.mem_cons_self
      rw [isBlank, Bool.or_eq_true, beq_iff_eq, beq_iff_eq] at hblank
      obtain rfl | rfl := hblank <;> decide
  cases h with
  | blanks hw => exact hblanks hw htail
  | comment hw =>
    rw [List.append_assoc]
    refine hblanks hw fun c hc => ?_
    cases hc
    decide

theorem LineEnd.endsValue {w cs : List Char} (h : LineEnd w cs) : EndsValue w := by
  cases h with
  | @last w h =>
    have hends : EndsValue (w ++ []) := h.endsValue (by simp [EndsValue])
    rwa [List.append_nil] at hends
  | feed h => exact h.endsValue (endsValue_feed _)
  | returnFeed h =>
    refine h.endsValue fun c hc => ?_
    cases hc
    decide

/-- What is written for a value is one of its texts. -/
theorem valueText_write? {s : Scalar} {w : String} (h : s.write? = .ok w) : ValueText s.value w.toList :=
  fun _ _ hend => readValue_write? h depthLimit hend.endsValue

/-! ### Plain lines -/

theorem KeyText.bare {name : String} (h : IsBare name) {after : List Char} (hafter : Blanks after) :
    KeyText [name] (name.toList ++ after) := by
  have hkey : KeyText [name] ([] ++ (name.toList ++ after)) := .last .nil (.bare h) hafter
  exact hkey

namespace Written

variable {lines : List Line} {cs : List Char}

theorem blank (h : Written lines cs) : Written lines ('\n' :: cs) :=
  .line .nothing (.newline cs) h

theorem bareHeader {name : String} (hname : IsBare name) (h : Written lines cs) :
    Written (.header [name] false :: lines) ('[' :: (name.toList ++ ']' :: '\n' :: cs)) := by
  have hline : LineText (some (.header [name] false)) ([] ++ '[' :: (name.toList ++ [] ++ [']'])) :=
    .header .nil (.bare hname .nil) (by simp [depthLimit])
  simpa using Written.line hline (.newline cs) h

theorem barePair {key : String} {value : Value} {w : List Char} (hkey : IsBare key) (hvalue : ValueText value w)
    (h : Written lines cs) :
    Written (.pair [key] value :: lines) (key.toList ++ ' ' :: '=' :: ' ' :: (w ++ '\n' :: cs)) := by
  have hvalue' : ValueText value (' ' :: w) := hvalue
  have hline : LineText (some (.pair [key] value)) (key.toList ++ [' '] ++ '=' :: ' ' :: w) :=
    .pair (.bare hkey (by simp [Blanks, isBlank])) (by simp [depthLimit]) hvalue'
  simpa using Written.line hline (.newline cs) h

end Written

end EncodedFeed.Toml
