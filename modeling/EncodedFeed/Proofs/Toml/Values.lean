import EncodedFeed.Toml.Document
import EncodedFeed.Toml.Writer
import EncodedFeed.Proofs.Toml.Integers

/-!
# Values are read as they were written

Keys that stand for themselves, and the texts and numbers that can be written.
-/

namespace EncodedFeed.Toml

/-! ### What is written -/

/-- The value something is read as when it has been written. -/
def Scalar.value : Scalar → Value
  | string text => .string text
  | integer n => .integer n

/-- An integer has to be one that can be kept. -/
def Scalar.Fits : Scalar → Prop
  | string _ => True
  | integer n => n < integerLimit

/-- A name that stands for itself as a key. -/
def IsBare (key : String) : Prop := key.toList ≠ [] ∧ ∀ c ∈ key.toList, isBareKeyChar c = true

instance (key : String) : Decidable (IsBare key) :=
  decidable_of_iff ((!key.toList.isEmpty && key.toList.all isBareKeyChar) = true) (by simp [IsBare])

/-! ### Keys -/

section Keys

variable {key : String}

/-- A key can begin with the character. -/
def BeginsKey (c : Char) : Prop := isBareKeyChar c = true ∨ c = '"' ∨ c = '\''

theorem BeginsKey.ne {c x : Char} (h : BeginsKey c) (hx : isBareKeyChar x = false ∧ x ≠ '"' ∧ x ≠ '\'') : c ≠ x := by
  rintro rfl
  obtain h | h | h := h
  · rw [hx.1] at h
    cases h
  · exact hx.2.1 h
  · exact hx.2.2 h

theorem BeginsKey.not_blank {c : Char} (h : BeginsKey c) : isBlank c = false := by
  simp [isBlank, h.ne (x := ' ') (by decide), h.ne (x := '\t') (by decide)]

theorem isBareKeyChar_of_head? (hkey : IsBare key) (rest : List Char) :
    ∃ c tail, key.toList ++ rest = c :: tail ∧ isBareKeyChar c = true := by
  obtain ⟨c, cs, hcs⟩ := List.exists_cons_of_ne_nil hkey.1
  refine ⟨c, cs ++ rest, by rw [hcs]; rfl, hkey.2 c ?_⟩
  rw [hcs]
  exact List.mem_cons_self

theorem readSimpleKey_bare (hkey : IsBare key) {rest : List Char}
    (hrest : ∀ c ∈ rest.head?, isBareKeyChar c = false) :
    readSimpleKey (key.toList ++ rest) = .ok (key, rest) := by
  obtain ⟨c, tail, htail, hc⟩ := isBareKeyChar_of_head? hkey rest
  have hspan := span_append hkey.2 hrest
  unfold readSimpleKey
  split
  · next h =>
    cases htail.symm.trans h
    cases hc
  · next h =>
    cases htail.symm.trans h
    cases hc
  · simp only [hspan, if_neg hkey.1, String.ofList_toList]

end Keys

/-! ### Values -/

section Values

variable {s : Scalar} {w : String}

/-- What can be written is what fits. -/
theorem Scalar.exists_write?_iff : (∃ w, s.write? = .ok w) ↔ s.Fits := by
  cases s with
  | string text => exact ⟨fun _ => trivial, fun _ => ⟨_, rfl⟩⟩
  | integer n =>
    rw [Scalar.write?, Scalar.Fits]
    split
    · next hn => exact ⟨fun _ => hn, fun _ => ⟨_, rfl⟩⟩
    · next hn =>
      constructor
      · rintro ⟨_, h⟩
        cases h
      · exact fun h => absurd h hn

theorem head_writeString (text : String) :
    ∃ q tail, (writeString text).toList = q :: tail ∧ (q = '"' ∨ q = '\'') := by
  rw [writeString, String.toList_ofList]
  split
  · exact ⟨_, _, rfl, .inl rfl⟩
  · exact ⟨_, _, rfl, .inr rfl⟩
  · unfold opening
    split <;> exact ⟨_, _, rfl, .inl rfl⟩
  · unfold opening
    split <;> exact ⟨_, _, rfl, .inr rfl⟩

/-- What follows belongs to no value before it. -/
def EndsValue (rest : List Char) : Prop := ∀ c ∈ rest.head?, isWordChar c = false ∧ c ≠ '"' ∧ c ≠ '\''

theorem endsValue_feed (cs : List Char) : EndsValue ('\n' :: cs) := by
  intro c hc
  cases hc
  decide

theorem readValue_writeString (text : String) (depth : Nat) {rest : List Char} (hrest : EndsValue rest) :
    readValue depth (skipBlanks ((writeString text).toList ++ rest)) = .ok (.string text, rest) := by
  have hread : readString ((writeString text).toList ++ rest) = .ok (text, rest) :=
    readString_writeString text (fun h => (hrest _ h).2.1 rfl) (fun h => (hrest _ h).2.2 rfl)
  obtain ⟨q, tail, hhead, rfl | rfl⟩ := head_writeString text
  · rw [hhead, List.cons_append] at hread ⊢
    rw [skipBlanks_cons rfl, readValue, hread]
    rfl
  · rw [hhead, List.cons_append] at hread ⊢
    rw [skipBlanks_cons rfl, readValue, hread]
    rfl

theorem readValue_toDigits {n : Nat} (hn : n < integerLimit) (depth : Nat) {rest : List Char}
    (hrest : EndsValue rest) :
    readValue depth (skipBlanks (Nat.toDigits 10 n ++ rest)) = .ok (.integer n, rest) := by
  have hread := readScalar_toDigits hn fun c hc => (hrest c hc).1
  obtain ⟨d, ds, hds⟩ := List.exists_cons_of_ne_nil (Nat.toDigits_ne_nil (n := n) (b := 10))
  have hd : d.isDigit = true := isDigit_toDigits n d (by simp [hds])
  have hbare : isBareKeyChar d = true := by simp [isBareKeyChar, Char.isAlphanum, hd]
  rw [hds, List.cons_append] at hread ⊢
  rw [skipBlanks_cons (BeginsKey.not_blank (.inl hbare))]
  unfold readValue
  split
  · next h => cases h; cases hd
  · next h => cases h; cases hd
  · next h => cases h; cases hd
  · next h => cases h; cases hd
  · exact hread

/-- A value that is written is read as itself. -/
theorem readValue_write? (h : s.write? = .ok w) (depth : Nat) {rest : List Char} (hrest : EndsValue rest) :
    readValue depth (skipBlanks (w.toList ++ rest)) = .ok (s.value, rest) := by
  cases s with
  | string text =>
    cases h
    exact readValue_writeString text depth hrest
  | integer n =>
    rw [Scalar.write?] at h
    split at h
    · next hn =>
      obtain rfl : toString n = w := Except.ok.inj h
      rw [Nat.toString_eq_repr, Nat.toList_repr]
      exact readValue_toDigits hn depth hrest
    · cases h

end Values

end EncodedFeed.Toml
