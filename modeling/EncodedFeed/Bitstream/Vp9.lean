import EncodedFeed.Octets

/-!
# VP8 and VP9 frame headers

Both codecs say in the first octet of a frame whether it is a keyframe: VP8 in its lowest bit, VP9
behind the frame marker, the profile and the flag for a frame that is merely shown again.
-/

namespace EncodedFeed

/-- The bits of an octet, highest first. -/
def octetBits (b : UInt8) : List Bool :=
  [7, 6, 5, 4, 3, 2, 1, 0].map fun i => b.toNat.testBit i

/-- A VP8 frame is a keyframe when the lowest bit of its first octet is clear. -/
def vp8IsKey : Octets → Bool
  | b :: _ => b &&& 0x01 == 0
  | [] => false

/-- A VP9 frame is a keyframe when, behind the marker `10`, two profile bits and the reserved bit of
profile 3, both the show-existing-frame and the frame-type bit are clear. -/
def vp9IsKey : Octets → Bool
  | b :: _ =>
    match octetBits b with
    | true :: false :: low :: high :: rest =>
      match if low && high then rest.drop 1 else rest with
      | showExisting :: frameType :: _ => !showExisting && !frameType
      | _ => false
    | _ => false
  | [] => false

end EncodedFeed
