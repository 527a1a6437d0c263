import EncodedFeed.Encoder.Fallback

/-!
# Lazy encoders

A lazy encoder is made before it is known where frames come from.  It keeps its settings, its output and
the last rate hint, and decides on the first pull: passthrough if the raw frame carries a registered id,
else an encoder of its fallback.  What it kept is then passed on to the encoder it chose.
-/

namespace EncodedFeed

/-- What a lazy encoder has decided. -/
inductive LazyMode
  | undecided
  | passthrough
  | fallback
deriving DecidableEq, Repr

/-- Name of a mode. -/
def LazyMode.identifier : LazyMode → String
  | undecided => "undecided"
  | passthrough => "passthrough"
  | fallback => "fallback"

/-- The encoder a lazy encoder has chosen. -/
inductive Chosen
  | passthrough (p : Passthrough)
  /-- One made by the lazy encoder's fallback. -/
  | fallback
deriving DecidableEq, Repr

/-- A lazy encoder. -/
structure Lazy where
  format : SdpFormat
  codec : Codec
  registry : Ref .registry
  fallback : Ref .fallback
  config : EncoderConfig
  settings : Option Settings := none
  destination : Option Destination := none
  rate : Option RateHint := none
  mode : LazyMode := .undecided
  chosen : Option Chosen := none
deriving DecidableEq, Repr

namespace Lazy

/-- A new encoder for a format, which must name a codec. -/
def make (format : SdpFormat) (registry : Ref .registry) (fallback : Ref .fallback)
    (config : EncoderConfig) : Except Error Lazy :=
  match format.codec? with
  | none => .error (.unknownCodec format.name)
  | some codec => .ok { format, codec, registry, fallback, config }

/-- The passthrough encoder it chooses for encoded frames. -/
def passthrough (l : Lazy) : Passthrough :=
  Passthrough.make (.routed l.registry) l.codec l.config none

/-- The encoder without settings, output and choice. -/
def reset (l : Lazy) : Lazy :=
  { l with settings := none, destination := none, mode := .undecided, chosen := none }

/-- The calls that pass on what it has kept. -/
def kept (l : Lazy) : List Call :=
  l.settings.toList.map .init ++ l.destination.toList.map .connect ++ l.rate.toList.map .rate

/-- Capabilities while nothing is chosen. -/
def undecidedCapabilities : Capabilities where
  name := "LazyEncoder"
  hardware := false
  nativeHandle := false
  simulcast := true
  trustedRate := false
  scaling := false
  pixelFormats := [.i420]

end Lazy

end EncodedFeed
