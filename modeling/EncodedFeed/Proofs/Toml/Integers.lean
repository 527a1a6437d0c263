import EncodedFeed.Toml.Number
import EncodedFeed.Proofs.Toml.Strings

/-!
# Integers are read as they were written

A number in decimal digits is a word, and no date, no float and no number in another base; reading gives the
number back if it can be kept.
-/

namespace EncodedFeed.Toml

variable {ds : List Char}

/-! ### Digits -/

/-- The value of decimal digits is that of the number they write. -/
theorem ofDigits_eq_ofDigitChars (hds : ∀ c ∈ ds, c.isDigit = true) :
    ofDigits 10 ds = Nat.ofDigitChars 10 ds 0 := by
  have hfold (n : Nat) : ds.foldl (fun n d => n * 10 + digitValue d) n = Nat.ofDigitChars 10 ds n := by
    induction ds generalizing n with
    | nil => rfl
    | cons c ds ih =>
      obtain ⟨hc, hds⟩ := List.forall_mem_cons.mp hds
      rw [List.foldl_cons, Nat.ofDigitChars_cons, digitValue, if_pos hc, Nat.mul_comm n 10]
      exact ih hds _
  exact hfold 0

theorem isDigit_toDigits (n : Nat) : ∀ c ∈ Nat.toDigits 10 n, c.isDigit = true :=
  fun _ hc => Nat.isDigit_of_mem_toDigits (by decide) (by decide) hc

/-- A number of several digits begins with no zero. -/
theorem head?_toDigits {n : Nat} (hn : 0 < n) : (Nat.toDigits 10 n).head? ≠ some '0' := by
  induction n using Nat.strongRecOn with
  | ind n ih =>
    by_cases hlt : n < 10
    · rw [Nat.toDigits_of_lt_base hlt]
      intro h
      have hzero : n = 0 := Nat.digitChar_eq_zero.mp (Option.some.inj h)
      omega
    · have hhead := ih (n / 10) (by omega) (by omega)
      obtain ⟨d, ds, hds⟩ := List.exists_cons_of_ne_nil (Nat.toDigits_ne_nil (n := n / 10) (b := 10))
      rw [Nat.toDigits_of_base_le (by decide) (by omega), hds]
      rwa [hds] at hhead

theorem digits?_eq_some (hne : ds ≠ []) (hds : ∀ c ∈ ds, c.isDigit = true) :
    digits? Char.isDigit ds = some ds := by
  induction ds with
  | nil => exact absurd rfl hne
  | cons c ds ih =>
    obtain ⟨hc, hrest⟩ := List.forall_mem_cons.mp hds
    match ds with
    | [] => rw [digits?, if_pos hc]
    | d :: ds =>
      have hd : d ≠ '_' := by
        rintro rfl
        cases hrest '_' List.mem_cons_self
      have hstep : digits? Char.isDigit (c :: d :: ds) = (digits? Char.isDigit (d :: ds)).map (c :: ·) := by
        rw [digits?.eq_def]
        split
        · next h => cases h
        · next h => cases h
        · next h => exact absurd (List.cons.inj (List.cons.inj h).2).1 hd
        · next h =>
          cases h
          rw [if_pos hc]
      rw [hstep, ih (List.cons_ne_nil d ds) hrest]
      rfl

theorem decimal?_toDigits (n : Nat) : decimal? (Nat.toDigits 10 n) = some (Nat.toDigits 10 n) := by
  rw [decimal?, digits?_eq_some Nat.toDigits_ne_nil (isDigit_toDigits n), Option.filter_some, if_pos]
  by_cases hn : 0 < n
  · simp [head?_toDigits hn]
  · obtain rfl : n = 0 := by omega
    rfl

/-! ### Words of digits -/

theorem isWordChar_of_isDigit {c : Char} (h : c.isDigit = true) : isWordChar c = true := by
  simp [isWordChar, Char.isAlphanum, h]

theorem ne_of_mem {c : Char} {word : List Char} (hds : ∀ c ∈ ds, c.isDigit = true) (hc : c ∈ word)
    (hdigit : c.isDigit = false) : ds ≠ word := by
  rintro rfl
  rw [hds c hc] at hdigit
  cases hdigit

theorem takeSign_digits (hds : ∀ c ∈ ds, c.isDigit = true) : takeSign ds = (false, ds) := by
  unfold takeSign
  split
  · cases hds '-' List.mem_cons_self
  · cases hds '+' List.mem_cons_self
  · rfl

theorem afterDate?_digits (hds : ∀ c ∈ ds, c.isDigit = true) : afterDate? ds = none := by
  unfold afterDate?
  split
  · cases hds '-' (by simp)
  · rfl

theorem afterTime?_digits (hds : ∀ c ∈ ds, c.isDigit = true) : afterTime? ds = none := by
  unfold afterTime?
  split
  · cases hds ':' (by simp)
  · rfl

theorem integer?_toDigits (n : Nat) : integer? (Nat.toDigits 10 n) = some (n : Int) := by
  have hds := isDigit_toDigits n
  unfold integer?
  split
  · next rest h => cases hds 'x' (by simp [h])
  · next rest h => cases hds 'o' (by simp [h])
  · next rest h => cases hds 'b' (by simp [h])
  · rw [takeSign_digits hds]
    simp only [decimal?_toDigits, Option.map_some, ofDigits_eq_ofDigitChars hds, Nat.ofDigitChars_ten_toDigits]
    rfl

/-- Decimal digits write an integer and nothing else. -/
theorem ofWord_toDigits {n : Nat} (hn : n < integerLimit) : ofWord (Nat.toDigits 10 n) = .ok (.integer n) := by
  have hds := isDigit_toDigits n
  have hinf : Nat.toDigits 10 n ≠ "inf".toList := ne_of_mem hds (c := 'n') (by decide) rfl
  have hnan : Nat.toDigits 10 n ≠ "nan".toList := ne_of_mem hds (c := 'n') (by decide) rfl
  have hfloat : isSpecialFloat (Nat.toDigits 10 n) = false := by
    rw [isSpecialFloat, takeSign_digits hds, beq_eq_false_iff_ne.mpr hinf, beq_eq_false_iff_ne.mpr hnan]
    rfl
  have hdate : isDateTime (Nat.toDigits 10 n) = false := by
    rw [isDateTime, afterDate?_digits hds, afterTime?_digits hds]
    rfl
  have hfits : fitsInteger n = true := by
    simp only [fitsInteger, Bool.and_eq_true, decide_eq_true_eq]
    omega
  rw [ofWord, if_neg (ne_of_mem hds (c := 't') (by decide) rfl),
    if_neg (ne_of_mem hds (c := 'f') (by decide) rfl), hfloat, hdate, integer?_toDigits]
  simp only [hfits, Bool.false_eq_true, if_false, if_true]

/-- Reading a number up to the end of its word gives it back. -/
theorem readScalar_toDigits {n : Nat} (hn : n < integerLimit) {rest : List Char}
    (hrest : ∀ c ∈ rest.head?, isWordChar c = false) :
    readScalar (Nat.toDigits 10 n ++ rest) = .ok (.integer n, rest) := by
  have hds := isDigit_toDigits n
  have hspan : (Nat.toDigits 10 n ++ rest).span isWordChar = (Nat.toDigits 10 n, rest) :=
    span_append (fun c hc => isWordChar_of_isDigit (hds c hc)) hrest
  simp only [readScalar, hspan, afterDate?_digits hds, ofWord_toDigits hn]

end EncodedFeed.Toml
