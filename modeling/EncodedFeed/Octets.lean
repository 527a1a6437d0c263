/-!
# Octet strings

Payloads, files and container fields are octet strings.  `little w n` writes a number as `w` octets,
least significant first, and `ofLittle` reads it back; `field` reads one out of a longer string.
-/

namespace EncodedFeed

/-- A string of octets. -/
abbrev Octets := List UInt8

namespace Octets

/-- The `w` octets of `n`, least significant first; bits above `8 * w` are dropped. -/
def little : Nat → Nat → Octets
  | 0, _ => []
  | w + 1, n => UInt8.ofNat n :: little w (n / 256)

/-- The `w` octets of `n`, most significant first. -/
def big (w n : Nat) : Octets := (little w n).reverse

/-- The number whose octets are given, least significant first. -/
def ofLittle : Octets → Nat
  | [] => 0
  | b :: bs => b.toNat + 256 * ofLittle bs

/-- The number whose octets are given, most significant first. -/
def ofBig (bs : Octets) : Nat := ofLittle bs.reverse

/-- The number held by the `w` octets from position `pos` on, least significant first. -/
def field (data : Octets) (pos w : Nat) : Nat := ofLittle ((data.drop pos).take w)

/-- There are at least `n` octets; no octets behind these are looked at. -/
def hasLength (n : Nat) (data : Octets) : Bool := (data.take n).length == n

/-- The UTF-8 octets of a text. -/
def ofText (s : String) : Octets := s.toUTF8.data.toList

/-- The text whose UTF-8 octets these are, if they are well formed. -/
def toText? (data : Octets) : Option String := String.fromUTF8? ⟨data.toArray⟩

/-- Lower-case hexadecimal digit. -/
def hexDigit (n : Nat) : Char := Nat.digitChar n

/-- The octets as pairs of hexadecimal digits. -/
def toHex (data : Octets) : String :=
  String.ofList (data.flatMap fun b => [hexDigit (b.toNat / 16), hexDigit (b.toNat % 16)])

/-- Value of a lower-case hexadecimal digit. -/
def hexValue? (c : Char) : Option Nat :=
  if c.isDigit then some (c.toNat - '0'.toNat)
  else if 'a' ≤ c && c ≤ 'f' then some (c.toNat - 'a'.toNat + 10)
  else none

/-- The octets that pairs of hexadecimal digits write. -/
def ofHex? : List Char → Option Octets
  | [] => some []
  | [_] => none
  | a :: b :: rest =>
    match hexValue? a, hexValue? b, ofHex? rest with
    | some x, some y, some bs => some (UInt8.ofNat (16 * x + y) :: bs)
    | _, _, _ => none

/-- How many numbers `w` octets can hold. -/
def range : Nat → Nat
  | 0 => 1
  | w + 1 => 256 * range w

@[simp] theorem hasLength_iff (n : Nat) (data : Octets) : hasLength n data = true ↔ n ≤ data.length := by
  simp only [hasLength, List.length_take, beq_iff_eq]
  omega

@[simp] theorem length_little (w n : Nat) : (little w n).length = w := by
  induction w generalizing n with
  | zero => rfl
  | succ w ih => simp [little, ih]

theorem ofLittle_little (w n : Nat) : ofLittle (little w n) = n % range w := by
  induction w generalizing n with
  | zero => simp [little, ofLittle, range, Nat.mod_one]
  | succ w ih =>
    have h : (UInt8.ofNat n).toNat = n % 256 := by simp
    rw [little, ofLittle, ih, h, range, Nat.mod_mul]

theorem ofLittle_lt (bs : Octets) : ofLittle bs < range bs.length := by
  induction bs with
  | nil => simp [ofLittle, range]
  | cons b bs ih =>
    have hb : b.toNat < 256 := b.toNat_lt
    rw [ofLittle, List.length_cons, range]
    omega

end Octets

end EncodedFeed
