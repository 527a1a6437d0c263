import EncodedFeed.Pacing
import EncodedFeed.Replay.Input
import EncodedFeed.Session.Groups
import EncodedFeed.Session.Pipelines
import EncodedFeed.Session.Recordings

/-!
# Replaying a file

The frames of a file are pushed into a source, one after the other, and come out of a pipeline around a
passthrough encoder of that source.  Its output is a channel large enough for all of them, which may be
recorded into another file.
-/

namespace EncodedFeed.Replay

/-- How a file is replayed. -/
structure Setup where
  source : SourceConfig
  encoder : EncoderConfig
  fps : UInt32
  input : Input
  /-- File to record into. -/
  output : Option String
deriving DecidableEq, Repr

/-- What came of a replay. -/
structure Result where
  /-- Frames the source accepted. -/
  pushed : Nat
  /-- Keyframes the pipeline asked for. -/
  keyframeRequests : Nat
  stats : PipelineStats
  /-- Frames in the file recorded into. -/
  recorded : Option Nat
deriving DecidableEq, Repr

/-- The parts of a replay. -/
structure Parts where
  source : RoutingId
  observer : Ref .observer
  output : Ref .output
  recording : Option (Ref .recording × Nat)
  pipeline : Ref .pipeline

/-- Settings of the replay's source. -/
def Setup.sourceConfig (x : Setup) : SourceConfig :=
  { x.source with codec := x.input.codec, resolution := x.input.resolution }

/-- Settings of the replay's encoder. -/
def Setup.settings (x : Setup) : Settings where
  codec := x.input.codec
  width := x.input.resolution.width
  height := x.input.resolution.height
  maxFramerate := max x.fps 1

/-- Images the channel of a replay keeps. -/
def Setup.capacity (x : Setup) : Nat := max x.input.frames.length Channel.defaultCapacity

/-- A run yields a value or is cut short; warnings and files stay in the session. -/
abbrev Run (α : Type) := Except (Abort Error) α × Session

/-- Begin recording, if that is wanted. -/
def openRecording (x : Setup) (o : Ref .output) (s : Session) :
    Except Error (Option (Ref .recording × Nat)) × Session :=
  match x.output with
  | none => (.ok none, s)
  | some path =>
    match s.addRecording path x.input.codec x.input.resolution.width x.input.resolution.height with
    | (.error e, s) => (.error e, s)
    | (.ok r, s) =>
      let (receiver, s) := s.subscribe o
      (.ok (some (r, receiver)), s)

/-- The factory for encoders of the source of a replay. -/
def Setup.factory (x : Setup) (id : RoutingId) : PassthroughFactory :=
  { binding := .source id x.sourceConfig.codec, config := x.encoder }

/-- The format that a replay asks for. -/
def Setup.format (x : Setup) : SdpFormat := SdpFormat.forCodec x.input.codec x.encoder.mode

/-- Make the encoder and a pipeline around it, and attach this to the source. -/
def connect (x : Setup) (source : RoutingId) (observer : Ref .observer) (output : Ref .output)
    (recording : Option (Ref .recording × Nat)) (s : Session) : Run Parts :=
  match s.create? (.passthrough (x.factory source)) x.format with
  | (none, s) => (.error (.refused "Passthrough factory refused its own codec"), s)
  | (some e, s) =>
    match s.addPipeline e x.settings output with
    | (.error e, s) => (.error (.failed e), s)
    | (.ok pipeline, s) =>
      let (_, s) := s.attach pipeline source
      (.ok { source, observer, output, recording, pipeline }, s)

/-- Set everything up. -/
def assemble (x : Setup) (s : Session) : Run Parts :=
  let (registry, s) := s.addRegistry
  match s.addSource? registry x.sourceConfig with
  | none => (.error .overflow, s)
  | some (source, s) =>
    let (observer, s) := s.addObserver
    let s := s.watch source (some { observer })
    let (output, s) := s.addOutput (.channel (Channel.ofCapacity x.capacity))
    match openRecording x output s with
    | (.error e, s) => (.error (.failed e), s)
    | (.ok recording, s) => connect x source observer output recording s

/-- Tags of the frame with an index. -/
def tags (x : Setup) (index : Nat) (f : InputFrame) : FrameTags where
  captureUs := captureTime x.fps index
  rtp := f.rtp
  width := x.input.resolution.width
  height := x.input.resolution.height
  isKey := f.isKey
  hasParameterSets := f.hasParameterSets

/-- Push frames, the first of which has the given index, and count those accepted.  Their times are counted from zero
and stay far from the end of all times, so nothing is checked. -/
def pushAll (x : Setup) (source : RoutingId) (now : Int64) (index : Nat) :
    List InputFrame → Session → Run Nat
  | [], s => (.ok 0, s)
  | f :: rest, s =>
    match EncodedFrame.make (tags x index f) f.payload with
    | .error e => (.error (.failed e), s)
    | .ok frame =>
      let (accepted, s) := s.push source frame now
      let s := if accepted then s else s.warn (.notAccepted index)
      match pushAll x source now (index + 1) rest s with
      | (.error a, s) => (.error a, s)
      | (.ok n, s) => (.ok (n + if accepted then 1 else 0), s)

/-- Let go of everything but the recording. -/
def tearDown (p : Parts) (s : Session) : Session :=
  ((s.dropPipeline p.pipeline).dropOutput p.output).dropHandle p.source

/-- End the recording. -/
def closeRecording (p : Parts) (s : Session) : Except Error (Option Nat) × Session :=
  match p.recording with
  | none => (.ok none, s)
  | some (r, receiver) =>
    match s.recordChannel r p.output receiver with
    | (.finished n, s) => (.ok (some n), s)
    | (.stopped e, s) => (.error e, s)
    | (.waiting, s) => (.ok none, s)

/-- Keyframes an observer was told of. -/
def requests (s : Session) (o : Ref .observer) : Nat :=
  ((s.observers.get? o.number).map Array.size).getD 0

/-- Replay a file. -/
def run (x : Setup) (files : FileTree) (now : Int64) : Run Result :=
  match assemble x { files } with
  | (.error e, s) => (.error e, s)
  | (.ok p, s) =>
    if canPace x.fps then
      match pushAll x p.source now 0 x.input.frames s with
      | (.error a, s) => (.error a, s)
      | (.ok pushed, s) =>
        let stats := ((s.pipeline? p.pipeline).map Pipeline.stats).getD {}
        match closeRecording p (tearDown p s) with
        | (.error e, s) => (.error (.failed e), s)
        | (.ok recorded, s) =>
          (.ok { pushed, keyframeRequests := requests s p.observer, stats, recorded }, s)
    else (.error .zeroInterval, s)

end EncodedFeed.Replay
