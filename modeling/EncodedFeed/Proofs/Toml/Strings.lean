import Mathlib.Data.List.TakeDrop
import EncodedFeed.Toml.Text
import EncodedFeed.Toml.Writer

/-!
# Strings are read as they were written

A string may be written in any of four forms, and its content decides which; reading gives the string
back out of each of them, provided that no further quote stands right behind it.
-/

namespace EncodedFeed.Toml

/-! ### Lists -/

/-- A word ends where no more of its characters follow. -/
theorem span_append {α : Type} {p : α → Bool} {word rest : List α} (hword : ∀ c ∈ word, p c = true)
    (hrest : ∀ c ∈ rest.head?, p c = false) : (word ++ rest).span p = (word, rest) := by
  rw [List.span_eq_takeWhile_dropWhile, List.takeWhile_append_of_pos hword, List.dropWhile_append_of_pos hword]
  cases rest with
  | nil => simp
  | cons c rest => simp [hrest c rfl]

/-- What is read goes from the text to the end of what was read before, which is kept backwards. -/
theorem reverse_append_cons {α : Type} (done : List α) (c : α) (cs : List α) :
    done.reverse ++ c :: cs = (c :: done).reverse ++ cs := by
  rw [List.reverse_cons, List.append_assoc, List.singleton_append]

/-! ### Escapes -/

/-- The text stands for a character in both basic forms: it is the character itself, or a backslash with an
escape behind it that does not end the line. -/
inductive Spells (c : Char) : List Char → Prop
  | plain (visible : isVisible c = true) (quote : c ≠ '"') (backslash : c ≠ '\\') : Spells c [c]
  | escaped {e : Char} {w : List Char} (stays : ∀ tail, endsLine (e :: (w ++ tail)) = false)
      (means : ∀ tail, escape? (e :: (w ++ tail)) = some (c, w.length + 1)) : Spells c ('\\' :: e :: w)

theorem fourHexDigits_spec : ∀ n < 128,
    (fourHexDigits n).length = 4 ∧ codePoint? (fourHexDigits n) = some (Char.ofNat n) := by
  decide

theorem escape?_fourHexDigits {n : Nat} (h : n < 128) (tail : List Char) :
    escape? ('u' :: (fourHexDigits n ++ tail)) = some (Char.ofNat n, (fourHexDigits n).length + 1) := by
  obtain ⟨hlength, hpoint⟩ := fourHexDigits_spec n h
  rw [escape?, List.take_left' hlength, hpoint, Option.bind_some, List.length_append, hlength,
    if_pos (Nat.le_add_right 4 tail.length)]

/-- What is not visible is a control character. -/
theorem toNat_lt_of_not_visible {c : Char} (h : isVisible c = false) : c.toNat < 128 := by
  simp only [isVisible, Bool.or_eq_false_iff, Bool.and_eq_false_iff, decide_eq_false_iff_not,
    bne_eq_false_iff_eq] at h
  obtain ⟨-, hlow | rfl⟩ := h
  · have hlt : c.toNat < ' '.toNat := by
      rw [Char.not_le] at hlow
      exact hlow
    exact Nat.lt_trans hlt (by decide)
  · decide

theorem skipBlanks_cons {c : Char} (h : isBlank c = false) (cs : List Char) : skipBlanks (c :: cs) = c :: cs := by
  simp only [skipBlanks, List.dropWhile_cons, h, Bool.false_eq_true, if_false]

theorem afterNewline?_eq_none {cs : List Char} (hfeed : cs.head? ≠ some '\n') (hreturn : cs.head? ≠ some '\r') :
    afterNewline? cs = none := by
  unfold afterNewline?
  split
  · exact absurd rfl hfeed
  · exact absurd rfl hreturn
  · rfl

theorem endsLine_of_letter {e : Char} (hblank : isBlank e = false) (hfeed : e ≠ '\n') (hreturn : e ≠ '\r')
    (tail : List Char) : endsLine (e :: tail) = false := by
  have hnone : afterNewline? (e :: tail) = none :=
    afterNewline?_eq_none (by simpa using hfeed) (by simpa using hreturn)
  rw [endsLine, skipBlanks_cons hblank, hnone]
  rfl

theorem escape?_letter {c e : Char} (hmeans : letterEscape? e = some c) (tail : List Char) :
    escape? (e :: tail) = some (c, 1) := by
  unfold escape?
  split
  · next h => cases h; cases hmeans
  · next h => cases h; cases hmeans
  · next h => cases h; rw [hmeans]; rfl
  · next h => cases h

theorem endsLine_of_letterEscape {c e : Char} (hmeans : letterEscape? e = some c) (tail : List Char) :
    endsLine (e :: tail) = false := by
  unfold letterEscape? at hmeans
  split at hmeans
  case h_8 => cases hmeans
  all_goals exact endsLine_of_letter rfl (by decide) (by decide) tail

/-- A letter behind a backslash spells the character it means. -/
theorem Spells.letter {c e : Char} (hmeans : letterEscape? e = some c) : Spells c ['\\', e] :=
  .escaped (w := []) (endsLine_of_letterEscape hmeans) (escape?_letter hmeans)

/-- A character other than a quote is spelt as it is written. -/
theorem spells_escapeChar {c : Char} (hquote : c ≠ '"') : Spells c (escapeChar c) := by
  unfold escapeChar
  split
  · subst c
    exact .letter rfl
  split
  · subst c
    exact .letter rfl
  split
  · subst c
    exact .letter rfl
  split
  · subst c
    exact .letter rfl
  split
  · subst c
    exact .letter rfl
  split
  · next hbackslash _ _ _ _ hvisible => exact .plain hvisible hquote hbackslash
  · next hvisible =>
    have hlow := toNat_lt_of_not_visible (Bool.eq_false_iff.mpr hvisible)
    refine .escaped (fun tail => endsLine_of_letter rfl (by decide) (by decide) _) fun tail => ?_
    rw [escape?_fourHexDigits hlow, Char.ofNat_toNat]

/-- No spelling begins with a quote or with what is not visible. -/
theorem Spells.head?_ne {c : Char} {w : List Char} (h : Spells c w) {x : Char}
    (hx : x = '"' ∨ isVisible x = false) (tail : List Char) : (w ++ tail).head? ≠ some x := by
  cases h with
  | plain hvisible hquote =>
    rintro hhead
    obtain rfl : c = x := Option.some.inj hhead
    obtain h | h := hx
    · exact hquote h
    · rw [hvisible] at h
      cases h
  | escaped =>
    rintro hhead
    obtain rfl : '\\' = x := Option.some.inj hhead
    obtain h | h := hx <;> cases h

/-! ### Basic strings on one line -/

theorem basicBody_skip (done : List Char) (w tail : List Char) :
    basicBody done w.length (w ++ tail) = basicBody done 0 tail := by
  induction w with
  | nil => rfl
  | cons c w ih =>
    rw [List.cons_append, basicBody, List.length_cons, if_pos (Nat.succ_ne_zero _), Nat.add_sub_cancel]
    exact ih

theorem Spells.basicBody {c : Char} {w : List Char} (h : Spells c w) (done tail : List Char) :
    basicBody done 0 (w ++ tail) = Toml.basicBody (c :: done) 0 tail := by
  cases h with
  | plain hvisible hquote hbackslash =>
    rw [List.singleton_append, Toml.basicBody, if_neg (fun h => h rfl), if_neg hquote, if_neg hbackslash,
      if_pos hvisible]
  | @escaped e w _ hmeans =>
    have hskip := basicBody_skip (c :: done) (e :: w) tail
    rw [List.cons_append, Toml.basicBody, if_neg (fun h => h rfl), if_neg (by decide), if_pos rfl,
      List.cons_append, hmeans]
    exact hskip

theorem basicContent_cons (c : Char) (cs : List Char) :
    ∃ w, Spells c w ∧ basicContent (c :: cs) = w ++ basicContent cs := by
  refine ⟨_, ?_, List.flatMap_cons⟩
  split
  · subst c
    exact .letter rfl
  split
  · subst c
    exact .letter rfl
  · exact spells_escapeChar ‹_›

/-- Characters spelt one behind the other are read up to the quote behind them. -/
theorem basicBody_spelled {cs : List Char} {words : List (List Char)} (h : List.Forall₂ Spells cs words)
    (done rest : List Char) :
    basicBody done 0 (words.flatten ++ '"' :: rest) = .ok (String.ofList (done.reverse ++ cs), rest) := by
  induction h generalizing done with
  | nil =>
    rw [List.append_nil]
    rfl
  | @cons c w cs words hspells _ ih =>
    rw [List.flatten_cons, List.append_assoc, hspells.basicBody, reverse_append_cons]
    exact ih (c :: done)

theorem exists_words_basicContent (cs : List Char) :
    ∃ words, List.Forall₂ Spells cs words ∧ basicContent cs = words.flatten := by
  induction cs with
  | nil => exact ⟨[], .nil, rfl⟩
  | cons c cs ih =>
    obtain ⟨words, hwords, hrest⟩ := ih
    obtain ⟨w, hspells, hcontent⟩ := basicContent_cons c cs
    exact ⟨w :: words, .cons hspells hwords, by rw [hcontent, hrest, List.flatten_cons]⟩

/-- The content of a basic string is read up to the quote behind it. -/
theorem basicBody_basicContent (cs done rest : List Char) :
    basicBody done 0 (basicContent cs ++ '"' :: rest) = .ok (String.ofList (done.reverse ++ cs), rest) := by
  obtain ⟨words, hwords, hcontent⟩ := exists_words_basicContent cs
  rw [hcontent]
  exact basicBody_spelled hwords done rest

/-! ### Basic strings on several lines -/

theorem multiBasicBody_escape_zero (done cs : List Char) :
    multiBasicBody done (.escape 0) cs = multiBasicBody done .none cs := by
  induction cs with
  | nil => rfl
  | cons c cs ih => simp [multiBasicBody, ih]

theorem multiBasicBody_skip (done : List Char) (w tail : List Char) :
    multiBasicBody done (.escape w.length) (w ++ tail) = multiBasicBody done .none tail := by
  induction w with
  | nil => exact multiBasicBody_escape_zero done tail
  | cons c w ih => exact ih

theorem Spells.multiBasicBody {c : Char} {w : List Char} (h : Spells c w) (done tail : List Char) :
    multiBasicBody done .none (w ++ tail) = Toml.multiBasicBody (c :: done) .none tail := by
  cases h with
  | plain hvisible hquote hbackslash =>
    have hfeed : c ≠ '\n' := by rintro rfl; cases hvisible
    have hreturn : c ≠ '\r' := by rintro rfl; cases hvisible
    simp [Toml.multiBasicBody, hfeed, hreturn, hquote, hbackslash, hvisible]
  | @escaped e w hstays hmeans =>
    simp [Toml.multiBasicBody, hstays, hmeans, multiBasicBody_skip (c :: done) w tail]

theorem multiBasicBody_feed (done tail : List Char) :
    multiBasicBody done .none ('\n' :: tail) = multiBasicBody ('\n' :: done) .none tail := rfl

/-- A quote that two more do not follow is part of the string. -/
theorem multiBasicBody_quote (done : List Char) {tail : List Char} (h : ¬ ['"', '"'] <+: tail) :
    multiBasicBody done .none ('"' :: tail) = multiBasicBody ('"' :: done) .none tail := by
  have hnext (after : List Char) : tail ≠ '"' :: '"' :: after := by
    rintro rfl
    exact h ⟨after, rfl⟩
  simp [multiBasicBody, hnext]

/-- Up to two quotes before the closing ones are part of the string. -/
theorem multiBasicBody_close (done : List Char) {cs : List Char} (hcs : cs = [] ∨ cs = ['"'] ∨ cs = ['"', '"'])
    {rest : List Char} (hrest : rest.head? ≠ some '"') :
    multiBasicBody done .none (cs ++ '"' :: '"' :: '"' :: rest)
      = .ok (String.ofList (done.reverse ++ cs), rest) := by
  have hnext (after : List Char) : rest ≠ '"' :: after := by
    rintro rfl
    exact hrest rfl
  obtain rfl | rfl | rfl := hcs <;> simp [multiBasicBody, hnext]

/-- Content that begins with a quote is that of a string that does, and not behind two more quotes. -/
theorem eq_quote_of_head? {run : Nat} {cs tail : List Char} (hcs : cs ≠ [])
    (h : (multiBasicContent run cs ++ tail).head? = some '"') : ∃ cs', cs = '"' :: cs' ∧ run ≠ 2 := by
  cases cs with
  | nil => exact absurd rfl hcs
  | cons c cs =>
    rw [multiBasicContent] at h
    split at h
    · subst c
      split at h
      · cases h
      · next hrun => exact ⟨cs, rfl, hrun⟩
    · next hquote =>
      split at h
      · cases h
      · rw [List.append_assoc] at h
        exact absurd h ((spells_escapeChar hquote).head?_ne (.inl rfl) _)

/-- Where two quotes stand right behind a quote of the string, at most one of them is part of it. -/
theorem eq_of_quotes_prefix {run : Nat} (hrun : 0 < run) (hle : run ≤ 2) {cs tail : List Char}
    (h : ['"', '"'] <+: multiBasicContent run cs ++ tail) :
    multiBasicContent run cs = cs ∧ (cs = [] ∨ cs = ['"']) := by
  by_cases hcs : cs = []
  · subst cs
    exact ⟨rfl, .inl rfl⟩
  obtain ⟨after, hafter⟩ := h
  have hfirst : (multiBasicContent run cs ++ tail).head? = some '"' := by
    rw [← hafter]
    rfl
  obtain ⟨cs, rfl, hne⟩ := eq_quote_of_head? hcs hfirst
  obtain rfl : run = 1 := by omega
  have hsecond : (multiBasicContent 2 cs ++ tail).head? = some '"' := by
    have htail : '"' :: after = multiBasicContent 2 cs ++ tail := (List.cons.inj hafter).2
    rw [← htail]
    rfl
  by_cases hcs : cs = []
  · subst cs
    exact ⟨rfl, .inr rfl⟩
  · obtain ⟨_, -, habsurd⟩ := eq_quote_of_head? hcs hsecond
    exact absurd rfl habsurd

/-- The content of a basic string on several lines is read up to the three quotes behind it. -/
theorem multiBasicBody_multiBasicContent {run : Nat} (hrun : run ≤ 2) (cs done : List Char)
    {rest : List Char} (hrest : rest.head? ≠ some '"') :
    multiBasicBody done .none (multiBasicContent run cs ++ '"' :: '"' :: '"' :: rest)
      = .ok (String.ofList (done.reverse ++ cs), rest) := by
  induction cs generalizing run done with
  | nil => exact multiBasicBody_close done (.inl rfl) hrest
  | cons c cs ih =>
    rw [multiBasicContent]
    split
    · subst c
      split
      · have hspells : Spells '"' ['\\', '"'] := .letter rfl
        rw [reverse_append_cons, ← ih (Nat.zero_le _) ('"' :: done)]
        exact hspells.multiBasicBody done _
      · next hne =>
        have hlt : run + 1 ≤ 2 := by omega
        by_cases hend : ['"', '"'] <+: multiBasicContent (run + 1) cs ++ '"' :: '"' :: '"' :: rest
        · -- the quote is one of at most two before the closing ones
          obtain ⟨hcontent, hcs⟩ := eq_of_quotes_prefix (Nat.succ_pos run) hlt hend
          rw [hcontent]
          exact multiBasicBody_close done (.inr (hcs.imp (congrArg _) (congrArg _))) hrest
        · rw [List.cons_append, multiBasicBody_quote done hend, reverse_append_cons]
          exact ih hlt ('"' :: done)
    · next hquote =>
      split
      · subst c
        rw [List.cons_append, multiBasicBody_feed, reverse_append_cons]
        exact ih (Nat.zero_le _) ('\n' :: done)
      · rw [List.append_assoc, (spells_escapeChar hquote).multiBasicBody, reverse_append_cons]
        exact ih (Nat.zero_le _) (c :: done)

/-! ### Literal strings -/

theorem literalBody_text {cs : List Char} (hcs : ∀ c ∈ cs, isVisible c = true ∧ c ≠ '\'') (rest : List Char) :
    literalBody (cs ++ '\'' :: rest) = .ok (String.ofList cs, rest) := by
  have hspan : (cs ++ '\'' :: rest).span (fun c => isVisible c && c != '\'') = (cs, '\'' :: rest) := by
    refine span_append (fun c hc => ?_) fun c hc => ?_
    · rw [(hcs c hc).1, bne_iff_ne.mpr (hcs c hc).2]
      rfl
    · cases hc
      rfl
  simp only [literalBody, hspan]

theorem le_longestRun (q : Char) (n : Nat) (cs : List Char) : n ≤ longestRun q n cs := by
  induction cs generalizing n with
  | nil => exact Nat.le_refl n
  | cons c cs ih =>
    rw [longestRun]
    split
    · exact Nat.le_trans (Nat.le_succ n) (ih (n + 1))
    · exact Nat.le_max_left n _

/-- An apostrophe that two more do not follow is part of the string. -/
theorem multiLiteralBody_quote (done : List Char) {tail : List Char} (h : ¬ ['\'', '\''] <+: tail) :
    multiLiteralBody done ('\'' :: tail) = multiLiteralBody ('\'' :: done) tail := by
  have hnext (after : List Char) : tail ≠ '\'' :: '\'' :: after := by
    rintro rfl
    exact h ⟨after, rfl⟩
  simp [multiLiteralBody, hnext]

/-- Up to two apostrophes before the closing ones are part of the string. -/
theorem multiLiteralBody_close (done : List Char) {cs : List Char}
    (hcs : cs = [] ∨ cs = ['\''] ∨ cs = ['\'', '\'']) {rest : List Char} (hrest : rest.head? ≠ some '\'') :
    multiLiteralBody done (cs ++ '\'' :: '\'' :: '\'' :: rest)
      = .ok (String.ofList (done.reverse ++ cs), rest) := by
  have hnext (after : List Char) : rest ≠ '\'' :: after := by
    rintro rfl
    exact hrest rfl
  obtain rfl | rfl | rfl := hcs <;> simp [multiLiteralBody, hnext]

/-- Where two apostrophes stand right behind one of a text without three in a row, at most one of them is
part of the text. -/
theorem eq_of_apostrophes_prefix {run : Nat} (hrun : 0 < run) {cs tail : List Char}
    (hlong : longestRun '\'' run cs < 3) (h : ['\'', '\''] <+: cs ++ tail) : cs = [] ∨ cs = ['\''] := by
  match cs with
  | [] => exact .inl rfl
  | [c] =>
    have hc : '\'' = c := (List.cons_prefix_cons.mp h).1
    exact .inr (by rw [hc])
  | c :: d :: cs =>
    obtain ⟨hc, h⟩ := List.cons_prefix_cons.mp h
    have hd : '\'' = d := (List.cons_prefix_cons.mp h).1
    subst c d
    have hle := le_longestRun '\'' (run + 1 + 1) cs
    rw [longestRun, if_pos rfl, longestRun, if_pos rfl] at hlong
    omega

/-- A text without three apostrophes in a row is read up to the three behind it. -/
theorem multiLiteralBody_text {run : Nat} {cs : List Char} (hcs : ∀ c ∈ cs, c = '\n' ∨ isVisible c = true)
    (hlong : longestRun '\'' run cs < 3) (done : List Char) {rest : List Char} (hrest : rest.head? ≠ some '\'') :
    multiLiteralBody done (cs ++ '\'' :: '\'' :: '\'' :: rest)
      = .ok (String.ofList (done.reverse ++ cs), rest) := by
  induction cs generalizing run done with
  | nil => exact multiLiteralBody_close done (.inl rfl) hrest
  | cons c cs ih =>
    obtain ⟨hc, htext⟩ := List.forall_mem_cons.mp hcs
    rw [longestRun] at hlong
    split at hlong
    · subst c
      by_cases hend : ['\'', '\''] <+: cs ++ '\'' :: '\'' :: '\'' :: rest
      · have hends := eq_of_apostrophes_prefix (Nat.succ_pos run) hlong hend
        exact multiLiteralBody_close done (.inr (hends.imp (congrArg _) (congrArg _))) hrest
      · rw [List.cons_append, multiLiteralBody_quote done hend, reverse_append_cons]
        exact ih htext hlong _
    · next hquote =>
      have hreturn : c ≠ '\r' := by
        rintro rfl
        obtain h | h := hc <;> cases h
      have hstep (tail : List Char) : multiLiteralBody done (c :: tail) = multiLiteralBody (c :: done) tail := by
        simp [multiLiteralBody, hquote, hreturn, hc]
      rw [List.cons_append, hstep, reverse_append_cons]
      exact ih htext (Nat.lt_of_le_of_lt (Nat.le_max_right _ _) hlong) _

/-! ### Forms -/

theorem StringForm.of_eq_literal {cs : List Char} (h : StringForm.of cs = .literal) :
    cs ≠ [] ∧ ∀ c ∈ cs, isVisible c = true ∧ c ≠ '\'' := by
  have hne : cs ≠ [] := by
    rintro rfl
    cases h
  unfold StringForm.of at h
  grind

theorem StringForm.of_eq_multiLiteral {cs : List Char} (h : StringForm.of cs = .multiLiteral) :
    (∀ c ∈ cs, c = '\n' ∨ isVisible c = true) ∧ longestRun '\'' 0 cs < 3 := by
  unfold StringForm.of at h
  grind

/-- A text that begins with no quotes is read on one line. -/
theorem readString_basic {tail : List Char} (h : ¬ ['"', '"'] <+: tail) :
    readString ('"' :: tail) = basicBody [] 0 tail := by
  unfold readString
  split
  · next heq => exact absurd ⟨_, (List.cons.inj heq).2.symm⟩ h
  · next heq => rw [(List.cons.inj heq).2]
  · next heq => cases (List.cons.inj heq).1
  · next heq => cases (List.cons.inj heq).1
  · next hne _ _ => exact absurd rfl (hne tail)

theorem readString_literal {tail : List Char} (h : tail.head? ≠ some '\'') :
    readString ('\'' :: tail) = literalBody tail := by
  unfold readString
  split
  · next heq => cases (List.cons.inj heq).1
  · next heq => cases (List.cons.inj heq).1
  · next heq =>
    rw [(List.cons.inj heq).2] at h
    exact absurd rfl h
  · next heq => rw [(List.cons.inj heq).2]
  · next hne => exact absurd rfl (hne tail)

/-- Reading drops what opening a string on several lines puts behind the quotes, and nothing else. -/
theorem opening_eq (quotes : List Char) {cs tail : List Char}
    (h : '\n' ∉ cs → tail.head? ≠ some '\n' ∧ tail.head? ≠ some '\r') :
    ∃ mark, opening quotes cs = quotes ++ mark ∧ skipNewline (mark ++ tail) = tail := by
  unfold opening
  split
  · exact ⟨['\n'], rfl, rfl⟩
  · next hfeed =>
    refine ⟨[], (List.append_nil _).symm, ?_⟩
    obtain ⟨hnofeed, hnoreturn⟩ := h (by simpa using hfeed)
    rw [List.nil_append, skipNewline, afterNewline?_eq_none hnofeed hnoreturn]
    rfl

theorem head?_multiBasicContent {cs : List Char} (h : '\n' ∉ cs) (tail : List Char) :
    (multiBasicContent 0 cs ++ '"' :: tail).head? ≠ some '\n'
      ∧ (multiBasicContent 0 cs ++ '"' :: tail).head? ≠ some '\r' := by
  cases cs with
  | nil => exact ⟨by simp [multiBasicContent], by simp [multiBasicContent]⟩
  | cons c cs =>
    have hfeed : c ≠ '\n' := fun hc => h (hc ▸ List.mem_cons_self)
    rw [multiBasicContent]
    split
    · rw [if_neg (by decide)]
      exact ⟨by simp, by simp⟩
    · next hquote =>
      rw [List.append_assoc]
      have hspells := spells_escapeChar hquote
      exact ⟨hspells.head?_ne (.inr rfl) _, hspells.head?_ne (.inr rfl) _⟩

/-! ### Reading what was written -/

/-- Reading a string gives back the text it was written for, whichever form it has. -/
theorem readString_writeString (text : String) {rest : List Char} (hquote : rest.head? ≠ some '"')
    (hapostrophe : rest.head? ≠ some '\'') :
    readString ((writeString text).toList ++ rest) = .ok (text, rest) := by
  obtain ⟨cs, rfl⟩ : ∃ cs, text = String.ofList cs := ⟨text.toList, (String.ofList_toList).symm⟩
  simp only [writeString, String.toList_ofList]
  cases hform : StringForm.of cs with
  | basic =>
    have hshort : ¬ ['"', '"'] <+: basicContent cs ++ '"' :: rest := by
      rintro ⟨after, hafter⟩
      cases cs with
      | nil =>
        have hrest : '"' :: after = rest := (List.cons.inj hafter).2
        exact hquote (by rw [← hrest]; rfl)
      | cons c cs =>
        obtain ⟨w, hspells, hcontent⟩ := basicContent_cons c cs
        rw [hcontent, List.append_assoc] at hafter
        exact hspells.head?_ne (.inl rfl) _ (by rw [← hafter]; rfl)
    simp only [List.append_assoc, List.cons_append, List.nil_append]
    rw [readString_basic hshort]
    exact basicBody_basicContent cs [] rest
  | literal =>
    obtain ⟨hne, hcs⟩ := StringForm.of_eq_literal hform
    have hhead : (cs ++ '\'' :: rest).head? ≠ some '\'' := by
      cases cs with
      | nil => exact absurd rfl hne
      | cons c cs => exact fun h => (hcs c List.mem_cons_self).2 (Option.some.inj h)
    simp only [List.append_assoc, List.cons_append, List.nil_append]
    rw [readString_literal hhead]
    exact literalBody_text hcs rest
  | multiBasic =>
    have hhead (h : '\n' ∉ cs) := head?_multiBasicContent h ('"' :: '"' :: rest)
    obtain ⟨mark, hopening, hskip⟩ := opening_eq ['"', '"', '"'] hhead
    simp only [hopening, List.append_assoc, List.cons_append, List.nil_append]
    rw [readString, hskip]
    exact multiBasicBody_multiBasicContent (Nat.zero_le 2) cs [] hquote
  | multiLiteral =>
    obtain ⟨hcs, hlong⟩ := StringForm.of_eq_multiLiteral hform
    have hhead (h : '\n' ∉ cs) : (cs ++ '\'' :: '\'' :: '\'' :: rest).head? ≠ some '\n'
        ∧ (cs ++ '\'' :: '\'' :: '\'' :: rest).head? ≠ some '\r' := by
      cases cs with
      | nil => exact ⟨by simp, by simp⟩
      | cons c cs =>
        have hvisible : isVisible c = true := by
          refine (hcs c List.mem_cons_self).resolve_left ?_
          rintro rfl
          exact h List.mem_cons_self
        refine ⟨?_, ?_⟩ <;> intro hc <;> cases Option.some.inj hc <;> cases hvisible
    obtain ⟨mark, hopening, hskip⟩ := opening_eq ['\'', '\'', '\''] hhead
    simp only [hopening, List.append_assoc, List.cons_append, List.nil_append]
    rw [readString, hskip]
    exact multiLiteralBody_text hcs hlong [] hapostrophe

end EncodedFeed.Toml
