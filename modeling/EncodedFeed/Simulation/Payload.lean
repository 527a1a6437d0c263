import EncodedFeed.Octets
import EncodedFeed.Resolution
import EncodedFeed.Words

/-!
# Synthetic payloads

A synthetic payload begins with its layer, its index and a keyframe flag, so that the order in which
payloads come out of a pipeline can be checked.  The rest is filler, more of it for a larger picture.
-/

namespace EncodedFeed.Simulation

/-- Octets of filler for a picture of an area. -/
def fillerLength (area : Nat) : Nat := min (max (area / 1024) 8) 4096

/-- The payload of a layer with an index, for a picture of an area. -/
def payload (layer index : Nat) (isKey : Bool) (area : Nat) : Octets :=
  UInt8.ofNat layer :: Octets.big 4 index ++ (if isKey then 1 else 0)
    :: List.replicate (fillerLength area) (UInt8.ofNat (index % 251))

/-- The payload of a layer with an index, if the area of its pictures is a word of 32 bits. -/
def payload? (layer index : Nat) (isKey : Bool) (r : Resolution) : Option Octets :=
  (unsigned? 32 r.area).map (payload layer index isKey)

/-- The index in a payload, if it is long enough to have one. -/
def payloadIndex? (data : Octets) : Option Nat :=
  if data.length < 5 then none else some (Octets.ofBig ((data.drop 1).take 4))

end EncodedFeed.Simulation
