import EncodedFeed.Octets

/-!
# Lossy UTF-8 decoding

Reads any octets as text: well-formed UTF-8 sequences give their characters, and each maximal prefix of
a sequence that goes wrong, or else a single stray octet, gives one replacement character U+FFFD.
-/

namespace EncodedFeed.Text

/-- What stands for octets that are not UTF-8. -/
def replacement : Char := '\ufffd'

/-- The ranges in which the octets after a leading octet must lie; none if it cannot lead. -/
def continuations (lead : UInt8) : Option (List (UInt8 × UInt8)) :=
  if lead < 0x80 then some []
  else if 0xc2 ≤ lead && lead ≤ 0xdf then some [(0x80, 0xbf)]
  else if lead == 0xe0 then some [(0xa0, 0xbf), (0x80, 0xbf)]
  else if lead == 0xed then some [(0x80, 0x9f), (0x80, 0xbf)]
  else if 0xe1 ≤ lead && lead ≤ 0xef then some [(0x80, 0xbf), (0x80, 0xbf)]
  else if lead == 0xf0 then some [(0x90, 0xbf), (0x80, 0xbf), (0x80, 0xbf)]
  else if lead == 0xf4 then some [(0x80, 0x8f), (0x80, 0xbf), (0x80, 0xbf)]
  else if 0xf1 ≤ lead && lead ≤ 0xf3 then some [(0x80, 0xbf), (0x80, 0xbf), (0x80, 0xbf)]
  else none

/-- How many leading octets lie in the ranges given, one after the other. -/
def matching : List (UInt8 × UInt8) → Octets → Nat
  | (lo, hi) :: ranges, b :: rest => if lo ≤ b && b ≤ hi then matching ranges rest + 1 else 0
  | _, _ => 0

/-- The scalar value of a sequence, from its leading octet and the octets that follow. -/
def scalar (lead : UInt8) (more : Octets) : Nat :=
  let bits := match more.length with
    | 0 => lead.toNat
    | 1 => lead.toNat % 32
    | 2 => lead.toNat % 16
    | _ => lead.toNat % 8
  more.foldl (fun acc b => acc * 64 + b.toNat % 64) bits

/-- The characters of octets that need not be UTF-8. -/
def lossyChars : Octets → List Char
  | [] => []
  | lead :: rest =>
    match continuations lead with
    | none => replacement :: lossyChars rest
    | some ranges =>
      let n := matching ranges rest
      let char := if n = ranges.length then Char.ofNat (scalar lead (rest.take n)) else replacement
      char :: lossyChars (rest.drop n)
termination_by data => data.length
decreasing_by
  · simp
  · simp only [List.length_drop, List.length_cons]; omega

/-- The text of octets that need not be UTF-8. -/
def lossy (data : Octets) : String := String.ofList (lossyChars data)

end EncodedFeed.Text
