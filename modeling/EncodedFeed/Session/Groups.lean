import EncodedFeed.Encoder.Factory
import EncodedFeed.Session.Frames

/-!
# Simulcast groups

A group is one source per layer, lowest layer first.  Each layer has its own queue, id and pump; the
encoders made for a layer put its index on their images.
-/

namespace EncodedFeed

/-- The layers of a simulcast stream, and a handle to each. -/
structure Group where
  codec : Codec
  layers : List RoutingId
deriving DecidableEq, Repr

namespace Group

/-- The resolutions of `n` layers below a top resolution, each halved once more, at most 16 times. -/
def resolutionsBelow (top : Resolution) (n : Nat) : List Resolution :=
  (List.range n).reverse.map fun step => top.scaledDown (1 <<< UInt32.ofNat (min step 16))

/-- A factory for encoders of a layer. -/
def factory? (g : Group) (layer : Nat) : Option PassthroughFactory :=
  g.layers[layer]?.map fun id =>
    { binding := .source id g.codec, index := some (UInt32.ofNat layer) }

/-- Factories for all layers. -/
def factories (g : Group) : List PassthroughFactory :=
  (List.range g.layers.length).filterMap g.factory?

end Group

namespace Session

/-- Make a source for each of several configurations. -/
def addSources (s : Session) (r : Ref .registry) : List SourceConfig → List RoutingId × Session
  | [] => ([], s)
  | c :: rest =>
    let (id, s) := s.addSource r c
    let (ids, s) := s.addSources r rest
    (id :: ids, s)

/-- Make a group with a layer for each resolution; there must be one. -/
def addGroup (s : Session) (r : Ref .registry) (base : SourceConfig) (resolutions : List Resolution) :
    Except Error Group × Session :=
  if resolutions = [] then
    (.error (.invalidParameter "simulcast needs at least one layer"), s)
  else
    let (layers, s) := s.addSources r (resolutions.map fun res => { base with resolution := res })
    (.ok { codec := base.codec, layers }, s)

/-- Make a source for each of several configurations, if there is a picture for each placeholder. -/
def addSources? (s : Session) (r : Ref .registry) : List SourceConfig → Option (List RoutingId × Session)
  | [] => some ([], s)
  | c :: rest =>
    (s.addSource? r c).bind fun x => (x.2.addSources? r rest).map fun y => (x.1 :: y.1, y.2)

/-- Make a group as `addGroup` does, if there is a picture of the size of its placeholders. -/
def addGroup? (s : Session) (r : Ref .registry) (base : SourceConfig) (resolutions : List Resolution) :
    Option (Except Error Group × Session) :=
  if resolutions = [] then
    some (.error (.invalidParameter "simulcast needs at least one layer"), s)
  else
    (s.addSources? r (resolutions.map fun res => { base with resolution := res })).map fun x =>
      (.ok { codec := base.codec, layers := x.1 }, x.2)

/-- Drop the handles of a group. -/
def dropGroup (s : Session) (g : Group) : Session := g.layers.foldl dropHandle s

/-- Give a warning about a layer a group does not have. -/
def warnNoLayer (s : Session) (g : Group) (layer : Nat) : Session :=
  s.warn (.noLayer layer g.layers.length)

/-- Push a payload into a layer. -/
def captureLayer (s : Session) (g : Group) (layer : Nat) (tags : FrameTags) (payload : Octets)
    (now : Int64) : Bool × Session :=
  match g.layers[layer]? with
  | some id => s.capture id tags payload now
  | none => (false, s.warnNoLayer g layer)

/-- Push a frame into a layer. -/
def pushLayer (s : Session) (g : Group) (layer : Nat) (f : EncodedFrame) (now : Int64) :
    Bool × Session :=
  match g.layers[layer]? with
  | some id => s.push id f now
  | none => (false, s.warnNoLayer g layer)

/-- Push a payload into a layer, if all sums fit that are made on its way. -/
def captureLayer? (s : Session) (g : Group) (layer : Nat) (tags : FrameTags) (payload : Octets)
    (now : Int64) : Option (Bool × Session) :=
  match g.layers[layer]? with
  | some id => s.capture? id tags payload now
  | none => some (false, s.warnNoLayer g layer)

/-- Push a frame into a layer, if all sums fit that are made on its way. -/
def pushLayer? (s : Session) (g : Group) (layer : Nat) (f : EncodedFrame) (now : Int64) :
    Option (Bool × Session) :=
  match g.layers[layer]? with
  | some id => s.push? id f now
  | none => some (false, s.warnNoLayer g layer)

/-- Have an observer told of keyframe requests on all layers, with the layer. -/
def watchGroup (s : Session) (g : Group) (o : Ref .observer) : Session :=
  g.layers.zipIdx.foldl (fun s e => s.watch e.1 (some ⟨o, some e.2⟩)) s

/-- The streams of a group, as they are negotiated. -/
def streams (s : Session) (g : Group) : List SimulcastStream :=
  g.layers.filterMap fun id =>
    (s.source? id).map fun src => { width := src.resolution.width, height := src.resolution.height }

/-- Formats a factory offers now. -/
def formats (s : Session) (f : Factory) : List SdpFormat := f.formats s.codecs

/-- There is a source for the format of this name. -/
def serves (s : Session) (f : PassthroughFactory) (name : String) : Bool := f.serves s.findByCodec name

/-- Make an encoder for a format, if a factory serves it. -/
def create? (s : Session) (f : Factory) (format : SdpFormat) : Option (Ref .encoder) × Session :=
  match f.create? s.findByCodec format with
  | none => (none, s)
  | some e =>
    let (e, s) := s.addEncoder e
    (some e, s)

end Session

end EncodedFeed
