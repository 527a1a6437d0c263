import EncodedFeed.Codec
import EncodedFeed.Packetization
import EncodedFeed.Resolution

/-!
# Source and encoder configuration

Settings of one encoded source, of its placeholder pictures, and of a passthrough encoder.
-/

namespace EncodedFeed

/-- Settings of one encoded source. -/
structure SourceConfig where
  codec : Codec := .h264
  resolution : Resolution := ⟨1280, 720⟩
  /-- Size of the placeholder picture, which is never encoded. -/
  placeholder : Resolution := ⟨2, 2⟩
  /-- Queue length beyond which a warning is given; zero for never. -/
  warnDepth : UInt64 := 60
deriving DecidableEq, Repr

namespace SourceConfig

/-- Doubts about a configuration, as texts. -/
def warnings (c : SourceConfig) : List String :=
  (if c.resolution.isValid then []
    else ["Declared resolution " ++ c.resolution.text
      ++ " has a zero dimension; encoded images will report it as-is"])
  ++ (if c.placeholder.width > 16 || c.placeholder.height > 16 then
      ["Placeholder " ++ c.placeholder.text ++ " is larger than needed; it is never encoded"]
    else [])
  ++ (if c.warnDepth == 0 then ["Queue depth warnings are disabled"] else [])

end SourceConfig

/-- Settings of a passthrough encoder. -/
structure EncoderConfig where
  /-- Name reported among the capabilities. -/
  name : String := "PassthroughEncoder"
  /-- Packetization reported for H.264. -/
  mode : PacketizationMode := .nonInterleaved
deriving DecidableEq, Repr

end EncodedFeed
