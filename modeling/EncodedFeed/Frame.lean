import EncodedFeed.Error
import EncodedFeed.Octets
import EncodedFeed.Resolution
import EncodedFeed.Timestamp

/-!
# Frames

An encoded frame is a compressed payload with what its producer says about it; the payload is never
empty.  A raw frame is what the host pipeline captures: here always a small black picture that stands
for one encoded frame and carries the routing id of its source.
-/

namespace EncodedFeed

/-- Names a source.  Ids are handed out in increasing order and never reused. -/
structure RoutingId where
  number : Nat
deriving DecidableEq, Repr, Inhabited

/-- Text of a routing id. -/
def RoutingId.text (id : RoutingId) : String := s!"RoutingId({id.number})"

/-- Kind of frame asked for by a pipeline or reported on an image. -/
inductive FrameType
  | key
  | delta
deriving DecidableEq, Repr

/-- Key frames and the others. -/
def FrameType.ofKey (isKey : Bool) : FrameType := if isKey then .key else .delta

/-! ### Encoded frames -/

/-- What a producer says about a frame besides its payload. -/
structure FrameTags where
  /-- Capture time in microseconds; zero or less asks for the clock. -/
  captureUs : Int64 := 0
  /-- RTP time; zero leaves it to the pipeline. -/
  rtp : UInt32 := 0
  width : UInt32
  height : UInt32
  isKey : Bool := false
  /-- Parameter sets stand in the payload. -/
  hasParameterSets : Bool := false
deriving DecidableEq, Repr

/-- One compressed frame, waiting in a source's queue until an encoder takes it. -/
structure EncodedFrame extends FrameTags where
  payload : Octets
  payload_ne : payload ≠ []
deriving DecidableEq, Repr

namespace EncodedFrame

/-- The frame with the given tags and payload, which must not be empty. -/
def make (tags : FrameTags) (payload : Octets) : Except Error EncodedFrame :=
  if h : payload = [] then .error .emptyPayload
  else .ok { tags with payload := payload, payload_ne := h }

/-- Declared dimensions. -/
def resolution (f : EncodedFrame) : Resolution := ⟨f.width, f.height⟩

end EncodedFrame

/-! ### Pictures and raw frames -/

/-- A black picture in planar I420 layout, known by its size. -/
structure Picture where
  width : UInt32
  height : UInt32
deriving DecidableEq, Repr

namespace Picture

/-- The black picture of the given size, each dimension at least one. -/
def black (width height : UInt32) : Picture := ⟨max width 1, max height 1⟩

/-- Half of a dimension, rounded up. -/
def halfUp (n : UInt32) : UInt32 := n / 2 + n % 2

/-- Octets of the luma plane, as a 32-bit product. -/
def lumaSize (p : Picture) : UInt32 := p.width * p.height

/-- Octets of each chroma plane, as a 32-bit product. -/
def chromaSize (p : Picture) : UInt32 := halfUp p.width * halfUp p.height

/-- The three planes: luma 0, then both chroma planes 128. -/
def data (p : Picture) : Octets :=
  List.replicate p.lumaSize.toNat 0 ++ List.replicate (2 * p.chromaSize.toNat) 128

/-- Octets of the luma plane and of all planes, if the products fit 32 bits and positions 64. -/
def sizes? (p : Picture) : Option (Nat × Nat) :=
  (unsigned? 32 (p.width.toNat * p.height.toNat)).bind fun luma =>
    (unsigned? 32 ((halfUp p.width).toNat * (halfUp p.height).toNat)).bind fun chroma =>
      (unsigned? 64 (2 * chroma)).bind fun both =>
        (unsigned? 64 (luma + both)).map fun total => (luma, total)

/-- The three planes, if their sizes fit. -/
def data? (p : Picture) : Option Octets :=
  p.sizes?.map fun sizes => List.replicate sizes.1 0 ++ List.replicate (sizes.2 - sizes.1) 128

/-- The black picture of the given size, if its planes can be made. -/
def black? (width height : UInt32) : Option Picture :=
  (black width height).sizes?.map fun _ => black width height

end Picture

/-- Rotation carried along with a raw frame. -/
inductive Rotation
  | deg0
  | deg90
  | deg180
  | deg270
deriving DecidableEq, Repr

/-- Rotation in degrees. -/
def Rotation.degrees : Rotation → Nat
  | deg0 => 0
  | deg90 => 90
  | deg180 => 180
  | deg270 => 270

/-- The rotation by a number of degrees. -/
def Rotation.ofDegrees? (n : Nat) : Option Rotation :=
  [deg0, deg90, deg180, deg270].find? fun r => r.degrees == n

/-- Colour space code points (ITU-T H.273), copied and never interpreted. -/
structure ColorSpace where
  primaries : UInt8
  transfer : UInt8
  matrix : UInt8
  fullRange : Bool
deriving DecidableEq, Repr

/-- BT.709, limited range. -/
def ColorSpace.bt709 : ColorSpace := ⟨1, 1, 1, false⟩

/-- A raw frame as the host pipeline hands it to an encoder. -/
structure RawFrame where
  picture : Picture
  timestamp : Stamped Int64
  /-- RTP time assigned by the pipeline. -/
  rtp : Stamped UInt32 := ⟨0, false⟩
  /-- NTP time in milliseconds, zero if unknown. -/
  ntpMs : Int64 := 0
  rotation : Rotation := .deg0
  color : Option ColorSpace := none
  /-- The encoded source this frame stands for. -/
  source : Option RoutingId := none
deriving DecidableEq, Repr

/-- Render time in milliseconds. -/
def RawFrame.renderMs (f : RawFrame) : Stamped Int64 := f.timestamp.map millisOfMicros

end EncodedFeed
