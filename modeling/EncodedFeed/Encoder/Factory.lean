import EncodedFeed.Encoder.Basic

/-!
# Encoder factories

A factory offers formats to the host and makes an encoder for the one that is chosen.  What a factory
bound to a registry can serve depends on the sources registered there: `served` says which codecs there
are sources for, and `find` which source there is for the name of a codec.
-/

namespace EncodedFeed

/-- What a passthrough factory binds its encoders to. -/
inductive FactoryBinding
  /-- One source and its codec. -/
  | source (id : RoutingId) (codec : Codec)
  | registry (r : Ref .registry)
deriving DecidableEq, Repr

/-- Makes passthrough encoders. -/
structure PassthroughFactory where
  binding : FactoryBinding
  config : EncoderConfig := {}
  /-- Simulcast layer of its encoders. -/
  index : Option UInt32 := none
deriving DecidableEq, Repr

/-- Makes lazy encoders. -/
structure LazyFactory where
  formats : List SdpFormat
  registry : Ref .registry
  fallback : Ref .fallback
  config : EncoderConfig := {}
deriving DecidableEq, Repr

/-- A factory as the host sees it. -/
inductive Factory
  | passthrough (f : PassthroughFactory)
  | lazy (f : LazyFactory)
deriving DecidableEq, Repr

namespace PassthroughFactory

/-- Codecs the factory offers. -/
def codecs (f : PassthroughFactory) (served : Ref .registry → List Codec) : List Codec :=
  match f.binding with
  | .source _ codec => [codec]
  | .registry r => served r

/-- There is a source for the format of this name. -/
def serves (f : PassthroughFactory) (find : Ref .registry → String → Option RoutingId) (name : String) : Bool :=
  match f.binding with
  | .source _ codec => Codec.sameName codec.sdpName name
  | .registry r => (find r name).isSome

/-- Formats the factory offers. -/
def formats (f : PassthroughFactory) (served : Ref .registry → List Codec) : List SdpFormat :=
  (f.codecs served).map fun c => SdpFormat.forCodec c f.config.mode

/-- What its encoders take frames from. -/
def encoderBinding (f : PassthroughFactory) : Binding :=
  match f.binding with
  | .source id _ => .bound id
  | .registry r => .routed r

/-- The encoder for a format, if the factory serves it. -/
def create? (f : PassthroughFactory) (find : Ref .registry → String → Option RoutingId) (format : SdpFormat) :
    Option Passthrough :=
  if f.serves find format.name then
    format.codec?.map fun c => Passthrough.make f.encoderBinding c f.config f.index
  else none

end PassthroughFactory

namespace LazyFactory

/-- The encoder for a format, if the factory offers one of that name. -/
def create? (f : LazyFactory) (format : SdpFormat) : Option Lazy :=
  if f.formats.any fun g => Codec.sameName g.name format.name then
    (Lazy.make format f.registry f.fallback f.config).toOption
  else none

end LazyFactory

namespace Factory

/-- Formats a factory offers. -/
def formats (served : Ref .registry → List Codec) : Factory → List SdpFormat
  | passthrough f => f.formats served
  | lazy f => f.formats

/-- The encoder for a format, if a factory serves it. -/
def create? (find : Ref .registry → String → Option RoutingId) (format : SdpFormat) : Factory → Option Encoder
  | passthrough f => (f.create? find format).map .passthrough
  | lazy f => (f.create? format).map .lazy

end Factory

end EncodedFeed
