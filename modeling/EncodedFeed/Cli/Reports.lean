import EncodedFeed.Cli.Json
import EncodedFeed.Cli.Outcome
import EncodedFeed.Config.Preferences
import EncodedFeed.Encoder.Passthrough
import EncodedFeed.Replay.Run
import EncodedFeed.Sdp
import EncodedFeed.Simulation.Run

/-!
# Reports

What commands print about replays, simulations, the configuration and the encoder, for people and as
JSON.
-/

namespace EncodedFeed.Cli

/-- Lines, each ended by a line break. -/
def lines (ls : List String) : String := String.join (ls.map (· ++ "\n"))

/-- Counts of a pipeline. -/
def statsJson (s : PipelineStats) : Json :=
  .object [
    ("pulls", .ofNat s.pulls), ("frames_emitted", .ofNat s.framesEmitted),
    ("keyframes_emitted", .ofNat s.keyframesEmitted), ("empty_pulls", .ofNat s.emptyPulls),
    ("errors", .ofNat s.errors), ("bytes_emitted", .ofNat s.bytesEmitted)]

/-! ### Replays -/

/-- What a replay came to, for people. -/
def replayText (file : String) (i : Replay.Input) (r : Replay.Result) (e : Elapsed) : String :=
  lines (
    ["Passthru - Replay", "", "  File:        " ++ file,
      "  Stream:      " ++ i.container.identifier ++ " " ++ i.codec.displayName ++ " ("
        ++ i.resolution.text ++ ")",
      s!"  Frames read: {i.frames.length}"]
    ++ (if i.dropped = 0 then []
      else [s!"  Dropped:     {i.dropped} (before first keyframe)"])
    ++ [s!"  Pushed:      {r.pushed}", "  Pipeline:    " ++ r.stats.text,
      s!"  KF requests: {r.keyframeRequests}"]
    ++ (r.recorded.toList.map fun n => s!"  Recorded:    {n} frame(s)")
    ++ ["  Elapsed:     " ++ e.text])

/-- What a replay came to, as JSON. -/
def replayJson (file : String) (i : Replay.Input) (r : Replay.Result) (e : Elapsed) : String :=
  Json.print (.object [
    ("file", .text file), ("container", .text i.container.identifier),
    ("codec", .text i.codec.identifier), ("width", .ofNat i.resolution.width.toNat),
    ("height", .ofNat i.resolution.height.toNat), ("frames_read", .ofNat i.frames.length),
    ("frames_dropped", .ofNat i.dropped), ("frames_pushed", .ofNat r.pushed),
    ("keyframe_requests", .ofNat r.keyframeRequests), ("elapsed_seconds", .number e.number),
    ("frames_recorded", .optional .ofNat r.recorded), ("stats", statsJson r.stats)])

/-! ### Simulations -/

/-- The lines on one layer. -/
def layerLines (r : Simulation.LayerReport) : List String :=
  ["  " ++ (if r.ok then "[OK]" else "[!!]")
      ++ s!" Layer {r.index} (" ++ r.resolution.text
      ++ s!"): pushed {r.pushed} ({r.keyframes} key), {r.keyframeRequests} keyframe request(s)",
    "       " ++ r.stats.text]

/-- What a simulation came to, for people. -/
def simulationText (c : Codec) (rs : List Simulation.LayerReport) (e : Elapsed) : String :=
  lines (
    ["Passthru - Simulcast Simulation", "", "  Codec:   " ++ c.displayName,
      "  Elapsed: " ++ e.text, ""]
    ++ rs.flatMap layerLines)

/-- What came of one layer, as JSON. -/
def layerJson (r : Simulation.LayerReport) : Json :=
  .object [
    ("layer", .ofNat r.index), ("width", .ofNat r.resolution.width.toNat),
    ("height", .ofNat r.resolution.height.toNat), ("frames_pushed", .ofNat r.pushed),
    ("keyframes_pushed", .ofNat r.keyframes), ("keyframe_requests", .ofNat r.keyframeRequests),
    ("fifo_ok", .truth r.inOrder), ("layer_index_ok", .truth r.indexed),
    ("stats", statsJson r.stats)]

/-- What a simulation came to, as JSON. -/
def simulationJson (c : Codec) (rs : List Simulation.LayerReport) (e : Elapsed) : String :=
  Json.print (.object [
    ("codec", .text c.identifier), ("layers", .array (rs.map layerJson)),
    ("elapsed_seconds", .number e.number)])

/-! ### The configuration -/

/-- A doubt about the configuration. -/
def doubt (text : String) : String := "  [!!] " ++ text

/-- What is configured, and where it comes from. -/
def configText (origin : String) (source : SourceConfig) (encoder : EncoderConfig) : String :=
  lines (
    ["Effective configuration (" ++ origin ++ ")", "", "[source]",
      "  codec        " ++ source.codec.displayName,
      "  resolution   " ++ source.resolution.text, "[pump]",
      "  placeholder  " ++ source.placeholder.text, "[queue]",
      s!"  warn_depth   {source.warnDepth}", "[encoder]",
      "  name         " ++ encoder.name,
      "  packetization-mode " ++ encoder.mode.fmtpValue]
    ++ source.warnings.map doubt)

/-- What a check of a file came to. -/
def checkText (path : String) (warnings : List String) : String :=
  if warnings = [] then lines ["[OK] " ++ path]
  else lines (("[OK] " ++ path ++ s!" ({warnings.length} warning(s))") :: warnings.map doubt)

/-! ### The encoder -/

/-- A text with blanks behind it up to a width. -/
def padRight (width : Nat) (s : String) : String :=
  s ++ String.ofList (List.replicate (width - s.length) ' ')

/-- Yes or no. -/
def yesNo (b : Bool) : String := if b then "yes" else "no"

/-- What kind of file of a codec can be replayed. -/
def replayable (c : Codec) : String :=
  if c.fourcc.isSome then "replay: ivf" else if c = .h264 then "replay: annex-b" else "replay: -"

/-- The line on a codec. -/
def codecLine (mode : PacketizationMode) (c : Codec) : String :=
  let format := SdpFormat.forCodec c mode
  let parameters := format.parameters.map fun p => p.1 ++ "=" ++ p.2
  "  " ++ padRight 6 c.displayName ++ " " ++ padRight 5 format.name ++ " (" ++ replayable c ++ ")"
    ++ (if parameters = [] then "" else " " ++ ";".intercalate parameters)

/-- The first lines about the program. -/
def infoHeading : String := lines ["Passthru - Encoded Frame Passthrough", ""]

/-- What the program supports. -/
def infoText (path : String) (found : Bool) (encoder : EncoderConfig) : String :=
  let caps := Passthrough.capabilities encoder
  lines (
    ["Configuration:",
      "  File:    " ++ path ++ " (" ++ (if found then "found" else "defaults") ++ ")", "",
      "Passthrough Encoder:", "  Name:              " ++ caps.name,
      "  Hardware:          " ++ yesNo caps.hardware,
      "  Simulcast:         " ++ yesNo caps.simulcast,
      "  Trusted rate ctl:  " ++ yesNo caps.trustedRate,
      "  Scaling:           " ++ yesNo caps.scaling,
      "  Pixel formats:     ["
        ++ ", ".intercalate (caps.pixelFormats.map PixelFormat.displayName) ++ "]", "",
      "Supported Codecs:"]
    ++ Codec.all.map (codecLine encoder.mode))

end EncodedFeed.Cli
