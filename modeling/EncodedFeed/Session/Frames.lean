import EncodedFeed.Session.Encoders

/-!
# Frames on their way

A frame pushed into a source is queued, and the pump of the source hands a placeholder to each tap: a
recorder keeps it, a pipeline pulls its encoder with it.
-/

namespace EncodedFeed.Session

/-- Count what came of a pull. -/
def tally (s : Session) (p : Ref .pipeline) : Except Error Outcome → Session
  | .ok .emitted => s
  | .ok .noOutput => s.count p fun c => { c with emptyPulls := c.emptyPulls + 1 }
  | .error e =>
    (s.count p fun c => { c with errors := c.errors + 1 }).warn
      (if e.needsReinit then .needsReinit e else .pullFailed e)

/-- A pipeline gets a raw frame: it gives it an RTP time and pulls its encoder once. -/
def feed (s : Session) (p : Ref .pipeline) (raw : RawFrame) : Session :=
  match s.pipeline? p with
  | none => s
  | some x =>
    let s := s.modifyPipeline p fun x =>
      { x with keyframePending := false, stats := { x.stats with pulls := x.stats.pulls + 1 } }
    let raw := { raw with rtp := raw.timestamp.map rtpOfMicros }
    let (result, s) := s.call x.encoder (.pull raw [x.nextType])
    s.tally p result

/-- A tap gets a raw frame. -/
def deliver (s : Session) (raw : RawFrame) : Tap → Session
  | .recorder r => { s with recorders := s.recorders.modify r.number fun x => x.push raw }
  | .pipeline p => s.feed p raw

/-- Hand a raw frame to taps, one after the other. -/
def deliverAll (s : Session) (raw : RawFrame) (taps : List Tap) : Session :=
  taps.foldl (fun s tap => s.deliver raw tap) s

/-- The pump of a source hands a picture to its taps. -/
def pushRaw (s : Session) (id : RoutingId) (picture : Picture) (timestamp : Stamped Int64) : Session :=
  match s.source? id with
  | none => s
  | some src =>
    if src.pump.ended then s
    else s.deliverAll { picture, timestamp, source := some id } (src.pump.taps.map Prod.snd)

/-- The pump of a source stamps a placeholder with a capture time and hands it out. -/
def emit (s : Session) (id : RoutingId) (capture now : Int64) : Stamped Int64 × Session :=
  match s.source? id with
  | none => (⟨capture, false⟩, s)
  | some src =>
    let (stamp, pump) := src.pump.stamp capture now
    (stamp, (s.modifyPump id fun _ => pump).pushRaw id pump.placeholder stamp)

/-- Give a warning if the queue of a source has just grown past its depth. -/
def checkDepth (s : Session) (id : RoutingId) : Session :=
  match s.source? id with
  | some src => if src.isPastDepth then s.warn (.queueGrew id src.warnDepth) else s
  | none => s

/-- Push a frame into a source, and say whether it was accepted; a closed source accepts none. -/
def push (s : Session) (id : RoutingId) (f : EncodedFrame) (now : Int64) : Bool × Session :=
  match s.source? id with
  | none => (false, s)
  | some src =>
    if src.closed then (false, s)
    else
      let s := ((s.modifySource id fun src => src.enqueue f).note (.pushed id f)).checkDepth id
      (true, (s.emit id f.captureUs now).2)

/-- Push a payload with its tags; an empty one is refused with a warning. -/
def capture (s : Session) (id : RoutingId) (tags : FrameTags) (payload : Octets) (now : Int64) :
    Bool × Session :=
  match EncodedFrame.make tags payload with
  | .error _ => (false, s.warn (.emptyFrame id))
  | .ok f => s.push id f now

/-! ### With sums checked -/

/-- Stamp a placeholder and hand it out as `emit` does, if there is a time left for the stamp. -/
def emit? (s : Session) (id : RoutingId) (capture now : Int64) : Option (Stamped Int64 × Session) :=
  match s.source? id with
  | none => some (⟨capture, false⟩, s)
  | some src =>
    (src.pump.stamp? capture now).map fun x =>
      (x.1, (s.modifyPump id fun _ => x.2).pushRaw id x.2.placeholder x.1)

/-- Give the warning that `checkDepth` gives, if one past the depth is a word. -/
def checkDepth? (s : Session) (id : RoutingId) : Option Session :=
  match s.source? id with
  | some src => src.isPastDepth?.map fun past => if past then s.warn (.queueGrew id src.warnDepth) else s
  | none => some s

/-- Push a frame as `push` does, if all sums fit that are made on its way. -/
def push? (s : Session) (id : RoutingId) (f : EncodedFrame) (now : Int64) : Option (Bool × Session) :=
  match s.source? id with
  | none => some (false, s)
  | some src =>
    if src.closed then some (false, s)
    else
      (((s.modifySource id fun src => src.enqueue f).note (.pushed id f)).checkDepth? id).bind fun s =>
        (s.emit? id f.captureUs now).map fun x => (true, x.2)

/-- Push a payload as `capture` does, if all sums fit that are made on its way. -/
def capture? (s : Session) (id : RoutingId) (tags : FrameTags) (payload : Octets) (now : Int64) :
    Option (Bool × Session) :=
  match EncodedFrame.make tags payload with
  | .error _ => some (false, s.warn (.emptyFrame id))
  | .ok f => s.push? id f now

end EncodedFeed.Session
