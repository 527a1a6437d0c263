import EncodedFeed.Image
import EncodedFeed.Pump
import EncodedFeed.Table

/-!
# Pipelines

A loopback pipeline pulls its encoder once for each raw frame it gets and counts what comes of it.
-/

namespace EncodedFeed

/-- What a pipeline has counted. -/
structure PipelineStats where
  /-- Raw frames for which the encoder was pulled. -/
  pulls : Nat := 0
  /-- Images the output accepted. -/
  framesEmitted : Nat := 0
  /-- Key images among them. -/
  keyframesEmitted : Nat := 0
  /-- Pulls that gave nothing. -/
  emptyPulls : Nat := 0
  /-- Pulls that failed. -/
  errors : Nat := 0
  /-- Octets of the images accepted. -/
  bytesEmitted : Nat := 0
deriving DecidableEq, Repr

namespace PipelineStats

/-- All counts in one line. -/
def text (s : PipelineStats) : String :=
  s!"{s.pulls} pulls, {s.framesEmitted} frames emitted ({s.keyframesEmitted} key), "
    ++ s!"{s.emptyPulls} empty, {s.errors} errors, {s.bytesEmitted} bytes"

/-- Count an image the output accepted. -/
def accept (s : PipelineStats) (i : EncodedImage) : PipelineStats :=
  { s with
    framesEmitted := s.framesEmitted + 1
    bytesEmitted := s.bytesEmitted + i.data.length
    keyframesEmitted := s.keyframesEmitted + if i.frameType = .key then 1 else 0 }

end PipelineStats

/-- A loopback pipeline. -/
structure Pipeline where
  encoder : Ref .encoder
  /-- The next raw frame asks for a keyframe. -/
  keyframePending : Bool := false
  stats : PipelineStats := {}
  /-- Taps it has added to pumps. -/
  attachments : List (RoutingId × TapId) := []
deriving DecidableEq, Repr

namespace Pipeline

/-- The frame type the next raw frame asks for. -/
def nextType (p : Pipeline) : FrameType := FrameType.ofKey p.keyframePending

end Pipeline

end EncodedFeed
