import EncodedFeed.Octets

/-!
# AV1 open bitstream units

A temporal unit is a sequence of open bitstream units, each with a header octet, an optional extension
octet and, but for the last, its size as a LEB128 number.  A unit that starts a coded video sequence
contains a sequence header.
-/

namespace EncodedFeed.Av1

/-- A LEB128 number of at most `n` octets and how many octets it takes. -/
def leb128 : Nat → Octets → Option (Nat × Nat)
  | 0, _ => none
  | _ + 1, [] => none
  | n + 1, b :: rest =>
    if b < 0x80 then some (b.toNat, 1)
    else (leb128 n rest).map fun (high, len) => (b.toNat % 128 + 128 * high, len + 1)

/-- Type of the unit a header octet opens. -/
def obuType (header : UInt8) : UInt8 := (header >>> 3) &&& 0x0f

/-- An extension octet follows the header octet. -/
def hasExtension (header : UInt8) : Bool := header &&& 0x04 != 0

/-- The unit states its size. -/
def hasSize (header : UInt8) : Bool := header &&& 0x02 != 0

/-- What follows the header octet and its extension. -/
def afterHeader (header : UInt8) (rest : Octets) : Octets :=
  if hasExtension header then rest.drop 1 else rest

theorem length_afterHeader_le (header : UInt8) (rest : Octets) :
    (afterHeader header rest).length ≤ rest.length := by
  unfold afterHeader
  split <;> simp

/-- Type of sequence headers. -/
def sequenceHeaderType : UInt8 := 1

/-- Some unit of the temporal unit is a sequence header.  The walk ends at a unit without a readable
size. -/
def hasSequenceHeader : Octets → Bool
  | [] => false
  | header :: rest =>
    if obuType header == sequenceHeaderType then true
    else if hasSize header then
      match leb128 8 (afterHeader header rest) with
      | some (size, len) => hasSequenceHeader ((afterHeader header rest).drop (len + size))
      | none => false
    else false
termination_by data => data.length
decreasing_by
  have := length_afterHeader_le header rest
  simp only [List.length_drop, List.length_cons]
  omega

end EncodedFeed.Av1
