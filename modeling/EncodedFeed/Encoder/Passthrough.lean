import EncodedFeed.Config.Settings
import EncodedFeed.Error
import EncodedFeed.Image
import EncodedFeed.Settings
import EncodedFeed.Table

/-!
# Passthrough encoders

A passthrough encoder compresses nothing: asked for an image, it takes the next encoded frame of its
source and hands on the payload as it is.  This module holds the encoder itself; what a pull does to
sources and outputs is a matter of the session.
-/

namespace EncodedFeed

/-- Where an encoder takes frames from. -/
inductive Binding
  /-- Always from one source. -/
  | bound (source : RoutingId)
  /-- From the source registered under the id that the raw frame carries. -/
  | routed (registry : Ref .registry)
deriving DecidableEq, Repr

/-- Where an encoder puts images. -/
structure Destination where
  output : Ref .output
  /-- The pipeline that counts what the output accepts. -/
  counter : Option (Ref .pipeline) := none
deriving DecidableEq, Repr

/-- A passthrough encoder.  It is configured when it has settings. -/
structure Passthrough where
  binding : Binding
  codec : Codec
  config : EncoderConfig
  settings : Option Settings := none
  destination : Option Destination := none
  /-- Simulcast layer fixed when the encoder was made. -/
  pinned : Option UInt32 := none
  /-- Simulcast layer put on images. -/
  layer : Option UInt32 := none
  sending : Bool := true
  /-- Images the output has accepted. -/
  emitted : Nat := 0
deriving DecidableEq, Repr

namespace Passthrough

/-- A new encoder, its layer fixed if one is given. -/
def make (binding : Binding) (codec : Codec) (config : EncoderConfig) (index : Option UInt32) :
    Passthrough :=
  { binding, codec, config, pinned := index, layer := index }

/-- `init` has succeeded since the last release. -/
def isConfigured (p : Passthrough) : Bool := p.settings.isSome

/-- Set the encoder up.  The dimensions must not be zero and the codec must be the encoder's own. -/
def init (p : Passthrough) (settings : Settings) : Except Error Passthrough :=
  if settings.width = 0 ∨ settings.height = 0 then
    .error (.invalidParameter ("codec settings have zero dimension " ++ settings.resolution.text))
  else if settings.codec ≠ p.codec then
    .error (.invalidParameter
      ("encoder is " ++ p.codec.displayName ++ " but settings ask for "
        ++ settings.codec.displayName))
  else
    .ok { p with
      settings := some settings
      layer := p.pinned <|> settings.matchingStream?
      sending := true }

/-- Connect the encoder to an output. -/
def connect (p : Passthrough) (destination : Destination) : Passthrough :=
  { p with destination := some destination }

/-- Give up settings and output.  An encoder that has neither stays as it is. -/
def release (p : Passthrough) : Passthrough :=
  if p.settings.isNone && p.destination.isNone then p
  else { p with settings := none, destination := none, sending := false }

/-- Pause or resume. -/
def setRate (p : Passthrough) (rate : RateHint) : Passthrough :=
  { p with sending := !rate.isPaused }

/-- RTP time of an image: the encoded frame's own unless it is zero. -/
def rtpFor (frame : EncodedFrame) (raw : RawFrame) : Stamped UInt32 :=
  if frame.rtp ≠ 0 then ⟨frame.rtp, false⟩ else raw.rtp

/-- The image that an encoded frame becomes when a raw frame is pulled. -/
def image (p : Passthrough) (frame : EncodedFrame) (raw : RawFrame) : EmittedImage where
  image := {
    data := frame.payload
    width := frame.width
    height := frame.height
    rtp := rtpFor frame raw
    captureMs := raw.renderMs
    ntpMs := raw.ntpMs
    rotation := raw.rotation
    color := raw.color
    frameType := FrameType.ofKey frame.isKey
    layer := p.layer
    hasParameterSets := frame.hasParameterSets }
  info := {
    codec := p.codec
    mode := if p.codec = .h264 then some p.config.mode else none
    temporal := none
    isIdr := p.codec == .h264 && frame.isKey }

/-- Capabilities, the same for every codec. -/
def capabilities (config : EncoderConfig) : Capabilities where
  name := config.name
  hardware := false
  nativeHandle := false
  simulcast := true
  trustedRate := true
  scaling := false
  pixelFormats := [.i420]

end Passthrough

end EncodedFeed
