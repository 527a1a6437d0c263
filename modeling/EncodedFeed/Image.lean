import EncodedFeed.Codec
import EncodedFeed.Frame
import EncodedFeed.Packetization

/-!
# Encoded images

What an encoder hands to an output: the payload with its timing, and the codec's own information.
-/

namespace EncodedFeed

/-- One compressed frame handed back to the host. -/
structure EncodedImage where
  data : Octets
  width : UInt32
  height : UInt32
  rtp : Stamped UInt32
  captureMs : Stamped Int64
  ntpMs : Int64
  rotation : Rotation
  color : Option ColorSpace
  frameType : FrameType
  /-- Simulcast layer the image belongs to. -/
  layer : Option UInt32
  hasParameterSets : Bool
deriving DecidableEq, Repr

/-- The codec's information about an image. -/
structure CodecInfo where
  codec : Codec
  /-- Only H.264 has one. -/
  mode : Option PacketizationMode
  /-- Temporal layer; images are never split into temporal layers. -/
  temporal : Option UInt8
  /-- The image is an H.264 IDR picture. -/
  isIdr : Bool
deriving DecidableEq, Repr

/-- An image as published, with its information. -/
structure EmittedImage where
  image : EncodedImage
  info : CodecInfo
deriving DecidableEq, Repr

end EncodedFeed
