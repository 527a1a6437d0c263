import EncodedFeed.Codec
import EncodedFeed.Resolution

/-!
# Encoder settings and capabilities

What the host negotiates with an encoder: codec settings with their simulcast streams, bitrate hints,
and the capabilities an encoder reports.
-/

namespace EncodedFeed

/-- One simulcast stream of the negotiated settings. -/
structure SimulcastStream where
  width : UInt32
  height : UInt32
  active : Bool := true
deriving DecidableEq, Repr

/-- Settings an encoder is set up with. -/
structure Settings where
  codec : Codec
  width : UInt32
  height : UInt32
  maxFramerate : UInt32 := 30
  streams : List SimulcastStream := []
deriving DecidableEq, Repr

namespace Settings

/-- Configured dimensions. -/
def resolution (s : Settings) : Resolution := ⟨s.width, s.height⟩

/-- Position of the first stream with the configured dimensions. -/
def matchingStream? (s : Settings) : Option UInt32 :=
  (s.streams.findIdx? fun t => t.width == s.width && t.height == s.height).map UInt32.ofNat

end Settings

/-- Bitrate the pipeline wants, in bits per second. -/
structure RateHint where
  bitrate : UInt32
deriving DecidableEq, Repr

/-- A target of zero means that nothing shall be sent. -/
def RateHint.isPaused (r : RateHint) : Bool := r.bitrate == 0

/-- Pixel layouts an encoder prefers. -/
inductive PixelFormat
  | i420
  | nv12
deriving DecidableEq, Repr

/-- Lower-case name of a pixel layout. -/
def PixelFormat.identifier : PixelFormat → String
  | i420 => "i420"
  | nv12 => "nv12"

/-- Spelling of a pixel layout in reports. -/
def PixelFormat.displayName : PixelFormat → String
  | i420 => "I420"
  | nv12 => "Nv12"

/-- Capabilities an encoder reports. -/
structure Capabilities where
  name : String
  hardware : Bool
  nativeHandle : Bool
  simulcast : Bool
  /-- The pipeline should not drop frames to keep its own rate. -/
  trustedRate : Bool
  /-- The pipeline may scale its input down under pressure. -/
  scaling : Bool
  pixelFormats : List PixelFormat
deriving DecidableEq, Repr

/-- Result of a pull that did not fail. -/
inductive Outcome
  /-- An image went to the output. -/
  | emitted
  /-- Nothing was produced. -/
  | noOutput
deriving DecidableEq, Repr

end EncodedFeed
