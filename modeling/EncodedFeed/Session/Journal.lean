import EncodedFeed.Error
import EncodedFeed.Image
import EncodedFeed.Table

/-!
# The journal of a session

What has happened in a session, event by event: frames going into sources and out of them, images
presented to outputs, keyframes asked for, and warnings.
-/

namespace EncodedFeed

/-- Something a user should hear of. -/
inductive Warning
  | emptyFrame (source : RoutingId)
  | queueGrew (source : RoutingId) (depth : UInt64)
  | alreadyRegistered (id : RoutingId)
  | noLayer (layer count : Nat)
  | unresolved (id : Option RoutingId)
  | refused (e : SinkError)
  | needsReinit (e : Error)
  | pullFailed (e : Error)
  | releaseFailed (e : Error)
  | lagged (missed : Nat)
  | notAccepted (index : Nat)
deriving DecidableEq, Repr

namespace Warning

/-- An id that may be absent, in a warning. -/
def optionalId : Option RoutingId → String
  | some id => "Some(" ++ id.text ++ ")"
  | none => "None"

/-- Text of a warning. -/
def message : Warning → String
  | emptyFrame source => "Ignoring empty encoded frame on source " ++ source.text
  | queueGrew source depth =>
    "Source " ++ source.text ++ s!" queue grew past {depth} frames; is the pipeline pulling?"
  | alreadyRegistered id => "Source " ++ id.text ++ " is already registered"
  | noLayer layer count => s!"No simulcast layer {layer} (have {count})"
  | unresolved id => "No encoded source for raw frame " ++ optionalId id ++ ", skipping pull"
  | refused e => "Output sink rejected frame: " ++ e.message
  | needsReinit e => "Encoder needs reinitialization: " ++ e.message
  | pullFailed e => "Pull failed: " ++ e.message
  | releaseFailed e => "Encoder release failed: " ++ e.message
  | lagged missed => s!"Recording dropped {missed} images due to lag"
  | notAccepted index => s!"Frame {index} was not accepted"

end Warning

/-- Something that has happened. -/
inductive Event
  /-- A source accepted a frame. -/
  | pushed (source : RoutingId) (frame : EncodedFrame)
  /-- A frame left the queue of a source. -/
  | taken (source : RoutingId) (frame : EncodedFrame)
  /-- A source was asked for a keyframe. -/
  | asked (source : RoutingId)
  /-- An output was presented with an image, and maybe refused it. -/
  | presented (output : Ref .output) (image : EmittedImage) (refusal : Option SinkError)
  | warned (w : Warning)
deriving DecidableEq, Repr

/-- The warning of an event. -/
def Event.warning? : Event → Option Warning
  | warned w => some w
  | _ => none

end EncodedFeed
