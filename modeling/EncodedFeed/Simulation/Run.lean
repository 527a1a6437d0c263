import EncodedFeed.Pacing
import EncodedFeed.Session.Groups
import EncodedFeed.Session.Pipelines
import EncodedFeed.Simulation.Payload

/-!
# Simulating simulcast

Synthetic frames are pushed into each layer of a group, each layer with a pipeline of its own.  A frame
is a keyframe when a group of pictures begins or when the pipeline has asked for one.  In the end the
images of each layer are checked for their order and their layer index.
-/

namespace EncodedFeed.Simulation

/-- How a simulation runs. -/
structure Setup where
  source : SourceConfig
  encoder : EncoderConfig
  layers : Nat
  frames : UInt32
  /-- Frames from one regular keyframe to the next; zero for none. -/
  gop : UInt32
  /-- Frames from one request for a keyframe to the next; zero for none. -/
  requestInterval : UInt32
  fps : UInt32
deriving DecidableEq, Repr

/-- One layer while the simulation runs. -/
structure Layer where
  index : Nat
  source : RoutingId
  resolution : Resolution
  output : Ref .output
  pipeline : Ref .pipeline
  /-- Keyframe requests for the layer that its frames have been told of. -/
  heeded : Nat := 0
  pushed : Nat := 0
  keyframes : Nat := 0
deriving DecidableEq, Repr

/-- What came of one layer. -/
structure LayerReport where
  index : Nat
  resolution : Resolution
  pushed : Nat
  keyframes : Nat
  keyframeRequests : Nat
  /-- Images came out in the order in which they were pushed, and all of them. -/
  inOrder : Bool
  /-- All images carry the index of the layer. -/
  indexed : Bool
  stats : PipelineStats
deriving DecidableEq, Repr

/-- Nothing is wrong with the layer. -/
def LayerReport.ok (r : LayerReport) : Bool := r.inOrder && r.indexed

/-! ### Setting up -/

/-- Settings of the encoder of a layer. -/
def settings (x : Setup) (streams : List SimulcastStream) (r : Resolution) : Settings where
  codec := x.source.codec
  width := r.width
  height := r.height
  streams := streams

/-- A run yields a value or is cut short. -/
abbrev Run (α : Type) := Except (Abort Error) α × Session

/-- The encoder of a layer, from the factory of the layer. -/
def createEncoder (x : Setup) (g : Group) (index : Nat) (s : Session) : Run (Ref .encoder) :=
  match g.factory? index with
  | none => (.error (.refused "Missing layer factory"), s)
  | some f =>
    match s.create? (.passthrough { f with config := x.encoder })
        (SdpFormat.forCodec x.source.codec x.encoder.mode) with
    | (none, s) => (.error (.refused "Layer factory refused its codec"), s)
    | (some e, s) => (.ok e, s)

/-- Give a layer its encoder, its output and its pipeline. -/
def addLayer (x : Setup) (g : Group) (streams : List SimulcastStream) (index : Nat) (id : RoutingId)
    (s : Session) : Run Layer :=
  match createEncoder x g index s with
  | (.error a, s) => (.error a, s)
  | (.ok e, s) =>
    let resolution := ((s.source? id).map Source.resolution).getD x.source.resolution
    let (output, s) := s.addOutput (.collector #[])
    match s.addPipeline e (settings x streams resolution) output with
    | (.error e, s) => (.error (.failed e), s)
    | (.ok pipeline, s) =>
      let (_, s) := s.attach pipeline id
      (.ok { index, source := id, resolution, output, pipeline }, s)

/-- Give layers their encoders, outputs and pipelines; the first has the given index. -/
def addLayers (x : Setup) (g : Group) (streams : List SimulcastStream) (index : Nat) :
    List RoutingId → Session → Run (List Layer)
  | [], s => (.ok [], s)
  | id :: rest, s =>
    match addLayer x g streams index id s with
    | (.error a, s) => (.error a, s)
    | (.ok l, s) =>
      match addLayers x g streams (index + 1) rest s with
      | (.error a, s) => (.error a, s)
      | (.ok ls, s) => (.ok (l :: ls), s)

/-! ### Running -/

/-- The layer whose pipeline asks for a keyframe before the frame with an index. -/
def requestedLayer? (x : Setup) (index : Nat) : Option Nat :=
  let interval := x.requestInterval.toNat
  if interval > 0 ∧ index > 0 ∧ index % interval = 0 then some (index / interval % x.layers)
  else none

/-- A group of pictures begins with the frame with an index. -/
def beginsGroup (x : Setup) (index : Nat) : Bool := x.gop != 0 && index % x.gop.toNat == 0

/-- Keyframe requests for a layer that an observer was told of. -/
def requests (s : Session) (o : Ref .observer) (layer : Nat) : Nat :=
  ((s.observers.get? o.number).map fun told => told.count (some layer)).getD 0

/-- Tags of the frame of a layer with an index. -/
def Layer.tags (x : Setup) (index : Nat) (isKey : Bool) (l : Layer) : FrameTags where
  captureUs := captureTime x.fps index
  width := l.resolution.width
  height := l.resolution.height
  isKey := isKey
  hasParameterSets := isKey

/-- Push the frame with an index into a layer.  It is to be a keyframe if the observer was told of a request since the
frame before it.  Times are counted from zero, as in a replay. -/
def pushLayer (x : Setup) (g : Group) (o : Ref .observer) (now : Int64) (index : Nat) (l : Layer) (s : Session) :
    Run Layer :=
  let told := requests s o l.index
  let isKey := decide (l.heeded < told) || beginsGroup x index
  let l := { l with heeded := told }
  match payload? l.index index isKey l.resolution with
  | none => (.error .overflow, s)
  | some data =>
    let (accepted, s) := s.captureLayer g l.index (l.tags x index isKey) data now
    if accepted then
      (.ok { l with pushed := l.pushed + 1, keyframes := l.keyframes + if isKey then 1 else 0 }, s)
    else (.ok l, s)

/-- Push the frame with an index into each layer. -/
def pushLayers (x : Setup) (g : Group) (o : Ref .observer) (now : Int64) (index : Nat) :
    List Layer → Session → Run (List Layer)
  | [], s => (.ok [], s)
  | l :: rest, s =>
    match pushLayer x g o now index l s with
    | (.error a, s) => (.error a, s)
    | (.ok l, s) =>
      match pushLayers x g o now index rest s with
      | (.error a, s) => (.error a, s)
      | (.ok ls, s) => (.ok (l :: ls), s)

/-- Have a pipeline ask for a keyframe if it is time for it. -/
def request (x : Setup) (layers : List Layer) (index : Nat) (s : Session) : Session :=
  match (requestedLayer? x index).bind fun i => layers[i]? with
  | some l => s.wantKeyframe l.pipeline
  | none => s

/-- One frame of the simulation. -/
def step (x : Setup) (g : Group) (o : Ref .observer) (now : Int64) (index : Nat) (layers : List Layer) (s : Session) :
    Run (List Layer) :=
  pushLayers x g o now index layers (request x layers index s)

/-- The frames of the simulation with these indices, one after the other. -/
def steps (x : Setup) (g : Group) (o : Ref .observer) (now : Int64) :
    List Nat → List Layer → Session → Run (List Layer)
  | [], layers, s => (.ok layers, s)
  | index :: rest, layers, s =>
    match step x g o now index layers s with
    | (.error a, s) => (.error a, s)
    | (.ok layers, s) => steps x g o now rest layers s

/-! ### Reporting -/

/-- Payloads carry the indices from `n` on, one after the other. -/
def countsFrom (n : Nat) : List Octets → Bool
  | [] => true
  | data :: rest => payloadIndex? data == some n && countsFrom (n + 1) rest

/-- The report on a layer. -/
def report (s : Session) (o : Ref .observer) (l : Layer) : LayerReport :=
  let images := ((s.output? l.output).map Output.images).getD []
  { index := l.index
    resolution := l.resolution
    pushed := l.pushed
    keyframes := l.keyframes
    keyframeRequests := requests s o l.index
    inOrder := images.length == l.pushed && countsFrom 0 (images.map fun i => i.image.data)
    indexed := images.all fun i => i.image.layer == some (UInt32.ofNat l.index)
    stats := ((s.pipeline? l.pipeline).map Pipeline.stats).getD {} }

/-- Run a simulation. -/
def run (x : Setup) (now : Int64) : Run (List LayerReport) :=
  let (registry, s) := ({} : Session).addRegistry
  match s.addGroup? registry x.source (Group.resolutionsBelow x.source.resolution x.layers) with
  | none => (.error .overflow, s)
  | some (.error e, s) => (.error (.failed e), s)
  | some (.ok g, s) =>
    let (observer, s) := s.addObserver
    let s := s.watchGroup g observer
    match addLayers x g (s.streams g) 0 g.layers s with
    | (.error a, s) => (.error a, s)
    | (.ok layers, s) =>
      if canPace x.fps then
        match steps x g observer now (List.range x.frames.toNat) layers s with
        | (.error a, s) => (.error a, s)
        | (.ok layers, s) => (.ok (layers.map (report s observer)), s)
      else (.error .zeroInterval, s)

end EncodedFeed.Simulation
