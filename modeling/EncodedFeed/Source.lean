import EncodedFeed.Config.Settings
import EncodedFeed.Pump

/-!
# Sources

An encoded source queues frames until an encoder takes them, first in, first out.  It lives as long as
the application holds a handle to it; then it is closed, and from then on its queue stays empty.
-/

namespace EncodedFeed

/-- Who is told of keyframe requests, and as which layer. -/
structure Watcher where
  observer : Ref .observer
  layer : Option Nat := none
deriving DecidableEq, Repr

/-- One encoded source. -/
structure Source where
  codec : Codec
  resolution : Resolution
  warnDepth : UInt64
  pump : Pump
  /-- The registry it was made for. -/
  home : Ref .registry
  /-- Handles the application holds. -/
  handles : Nat := 1
  /-- Frames waiting, oldest first. -/
  queue : List EncodedFrame := []
  keyframeRequested : Bool := false
  watcher : Option Watcher := none
  closed : Bool := false
deriving DecidableEq, Repr

namespace Source

/-- A source with one handle and an empty queue. -/
def ofConfig (c : SourceConfig) (home : Ref .registry) : Source where
  codec := c.codec
  resolution := c.resolution
  warnDepth := c.warnDepth
  pump := Pump.ofSize c.placeholder
  home := home

/-- A source with one handle and an empty queue, if there is a picture of the size of its placeholder. -/
def ofConfig? (c : SourceConfig) (home : Ref .registry) : Option Source :=
  (Pump.ofSize? c.placeholder).map fun pump =>
    { codec := c.codec, resolution := c.resolution, warnDepth := c.warnDepth, pump, home }

/-- Put a frame at the end of the queue. -/
def enqueue (s : Source) (f : EncodedFrame) : Source := { s with queue := s.queue ++ [f] }

/-- The queue has just grown past the depth at which a warning is due. -/
def isPastDepth (s : Source) : Bool :=
  s.warnDepth != 0 && s.queue.length == s.warnDepth.toNat + 1

/-- The queue has just grown past the depth at which a warning is due, if one past that depth is a word. -/
def isPastDepth? (s : Source) : Option Bool :=
  if s.warnDepth = 0 then some false
  else (unsigned? 64 (s.warnDepth.toNat + 1)).map fun n => s.queue.length == n

/-- The oldest frame, if any, and the source without it. -/
def take (s : Source) : Option EncodedFrame × Source :=
  match s.queue with
  | [] => (none, s)
  | f :: rest => (some f, { s with queue := rest })

/-- Note that a keyframe is wanted. -/
def requestKeyframe (s : Source) : Source := { s with keyframeRequested := true }

/-- Take note of the wanted keyframe. -/
def consumeKeyframeRequest (s : Source) : Source := { s with keyframeRequested := false }

/-- Close the source: drop its frames and its watcher, and end its pump. -/
def close (s : Source) : Source :=
  { s with queue := [], watcher := none, pump := s.pump.shutdown, closed := true }

/-- The source with its id and state, for diagnostic dumps. -/
def dump (s : Source) (id : RoutingId) : String :=
  "EncodedSource(SourceCore \x7b id: " ++ id.text ++ ", codec: " ++ s.codec.debugName
    ++ s!", resolution: Resolution \x7b width: {s.resolution.width}, "
    ++ s!"height: {s.resolution.height} \x7d, queued: {s.queue.length}, closed: {s.closed} \x7d)"

end Source

end EncodedFeed
