import EncodedFeed.AnnexB.NalUnit

/-!
# Access units

NAL units belong to one picture until, after its first slice, a unit comes that can only open the next:
a delimiter, a parameter set, supplemental information, or the first slice of another picture.
-/

namespace EncodedFeed

/-- The NAL units of one picture, in stream order. -/
abbrev AccessUnit := List NalUnit

namespace AccessUnit

/-- The unit contains a coded slice. -/
def hasSlice (unit : AccessUnit) : Bool := unit.any NalUnit.isSlice

/-- What opens the next access unit once the present one has a slice. -/
def opensNext (u : NalUnit) : Bool :=
  u.type == NalUnit.delimiterType || u.type == NalUnit.spsType || u.type == NalUnit.ppsType
    || u.type == NalUnit.seiType || (u.isSlice && u.startsPicture)

/-- Group units, of which `current` already belong together. -/
def groupFrom (current : AccessUnit) : List NalUnit → List AccessUnit
  | [] => if current = [] then [] else [current]
  | u :: rest =>
    if hasSlice current && opensNext u then current :: groupFrom [u] rest
    else groupFrom (current ++ [u]) rest

/-- NAL units grouped into access units. -/
def group (units : List NalUnit) : List AccessUnit := groupFrom [] units

end AccessUnit

end EncodedFeed
