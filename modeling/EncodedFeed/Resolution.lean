/-!
# Resolutions

Width and height in pixels, and scaling down by whole factors.
-/

namespace EncodedFeed

/-- Width and height in pixels. -/
structure Resolution where
  width : UInt32
  height : UInt32
deriving DecidableEq, Repr, Inhabited

namespace Resolution

/-- Neither dimension is zero. -/
def isValid (r : Resolution) : Bool := r.width > 0 && r.height > 0

/-- The number of pixels. -/
def area (r : Resolution) : Nat := r.width.toNat * r.height.toNat

/-- Both dimensions divided by `factor`, a factor of zero counting as one, and never below one. -/
def scaledDown (r : Resolution) (factor : UInt32) : Resolution where
  width := max (r.width / max factor 1) 1
  height := max (r.height / max factor 1) 1

/-- Width and height with an `x` between them. -/
def text (r : Resolution) : String := s!"{r.width}x{r.height}"

end Resolution

end EncodedFeed
