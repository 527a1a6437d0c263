import EncodedFeed.Proofs.Toml.Lines

/-!
# What cannot be read

An integer can be written just if it fits 64 bits with a sign, and values are nested no deeper than the reader goes.
A document is refused where a value is.
-/

namespace EncodedFeed.Toml

/-! ### Integers -/

section Integers

variable {n : Int} {word cs rest : List Char}

theorem fitsInteger_of_ofWord (h : ofWord word = .ok (.integer n)) : fitsInteger n = true := by
  unfold ofWord at h
  split at h
  · cases h
  split at h
  · cases h
  split at h
  · cases h
  split at h
  · cases h
  split at h
  · split at h
    · next hfits =>
      cases h
      exact hfits
    · cases h
  · split at h <;> cases h
  · cases h

theorem fitsInteger_of_readScalar (h : readScalar cs = .ok (.integer n, rest)) : fitsInteger n = true := by
  unfold readScalar at h
  dsimp only at h
  split at h
  · split at h
    · split at h <;> cases h
    · cases h
  · split at h
    · next hword =>
      cases h
      exact fitsInteger_of_ofWord hword
    · cases h
    · cases h

/-- Integers that are read fit. -/
theorem fitsInteger_of_readValue {depth : Nat} (h : readValue depth cs = .ok (.integer n, rest)) :
    fitsInteger n = true := by
  unfold readValue at h
  split at h
  · obtain ⟨_, _, h⟩ := exists_of_map_eq_ok h
    cases h
  · obtain ⟨_, _, h⟩ := exists_of_map_eq_ok h
    cases h
  · split at h
    · cases h
    · obtain ⟨_, _, h⟩ := exists_of_map_eq_ok h
      cases h
  · split at h
    · cases h
    · split at h
      · cases h
      · obtain ⟨_, _, h⟩ := exists_of_map_eq_ok h
        cases h
  · exact fitsInteger_of_readScalar h

/-- The integers that can be written in a document. -/
theorem exists_valueText_integer_iff {n : Nat} : (∃ w, ValueText (.integer n) w) ↔ n < integerLimit := by
  constructor
  · rintro ⟨w, hw⟩
    have hfits := fitsInteger_of_readValue (hw [] [] (.last (.blanks .nil)))
    simp only [fitsInteger, Bool.and_eq_true, decide_eq_true_eq] at hfits
    omega
  · intro hn
    obtain ⟨w, hw⟩ := Scalar.exists_write?_iff.mpr (show (Scalar.integer n).Fits from hn)
    exact ⟨_, valueText_write? hw⟩

end Integers

/-! ### Nested values -/

/-- Values are nested no deeper than the reader goes. -/
theorem readValue_brackets (depth : Nat) (rest : List Char) :
    readValue depth (List.replicate (depth + 1) '[' ++ rest) = .error .tooDeep := by
  induction depth with
  | zero => rfl
  | succ depth ih =>
    have hskip : skipTrivia false (List.replicate (depth + 1) '[' ++ rest) = List.replicate (depth + 1) '[' ++ rest :=
      rfl
    have hitems (fuel : Nat) :
        arrayItems (readValue depth) (fuel + 1) (List.replicate (depth + 1) '[' ++ rest) = .error .tooDeep := by
      rw [arrayItems, hskip]
      split
      · next h => cases h
      · rw [ih]
    rw [List.replicate_succ, List.cons_append, readValue, hitems]
    rfl

/-! ### Documents -/

section Refused

variable {path : List String} {key w : List Char} {fault : Fault}

/-- A line is refused where its value is. -/
theorem readLines_refused (hkey : KeyText path key) (hdepth : path.length ≤ depthLimit)
    (hvalue : readValue depthLimit (skipBlanks w) = .error fault) (fuel : Nat) (table : List String) (es : Entries) :
    readLines (fuel + 1) table es (key ++ '=' :: w) = .error fault := by
  have hpair : readPair (readValue depthLimit) (key ++ '=' :: w) = .error fault := by
    simp only [readPair, hkey.readKey (.inl rfl) hdepth, hvalue]
  obtain ⟨before, c, tail, htext, hbefore, hc⟩ := hkey.head ('=' :: w)
  have hskip : skipBlanks (key ++ '=' :: w) = c :: tail := by
    rw [htext, skipBlanks_append hbefore, skipBlanks_cons hc.not_blank]
  rw [← readPair_skipBlanks, hskip] at hpair
  rw [← readLines_skipBlanks, hskip, readLines_key hc, hpair]

/-- A document is refused where the value of its first line is. -/
theorem readDocument_refused {text : String} (htext : skipMark text.toList = key ++ '=' :: w)
    (hkey : KeyText path key) (hdepth : path.length ≤ depthLimit)
    (hvalue : readValue depthLimit (skipBlanks w) = .error fault) : readDocument text = .error fault := by
  rw [readDocument, htext]
  exact readLines_refused hkey hdepth hvalue _ [] []

end Refused

end EncodedFeed.Toml
