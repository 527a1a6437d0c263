import EncodedFeed.Encoder.Passthrough
import EncodedFeed.Sdp

/-!
# Fallback encoders

A fallback makes ordinary encoders for frames that have no encoded source.  Of these encoders only the
calls made to them are known; how they answer is up to them, and may rest on all they have heard.
-/

namespace EncodedFeed

/-- A call to an encoder. -/
inductive Call
  | init (settings : Settings)
  | connect (destination : Destination)
  | pull (frame : RawFrame) (types : List FrameType)
  | release
  | rate (hint : RateHint)
deriving DecidableEq, Repr

/-- Calls that can fail. -/
inductive Stage
  | init
  | connect
  | pull
  | release
deriving DecidableEq, Repr

/-- The stage of a call, if it can fail. -/
def Call.stage? : Call → Option Stage
  | init _ => some .init
  | connect _ => some .connect
  | pull _ _ => some .pull
  | release => some .release
  | rate _ => none

/-- The call, asking for other frame types if it is a pull. -/
def Call.retyped (ψ : List FrameType → List FrameType) : Call → Call
  | pull raw types => pull raw (ψ types)
  | c => c

/-- The call, asking for no keyframe. -/
def Call.hushed (c : Call) : Call := c.retyped fun _ => [.delta]

/-- A maker of encoders, with what it and they have been asked. -/
structure Fallback where
  /-- Capabilities its encoders report. -/
  capabilities : Capabilities
  /-- It makes no encoder at all. -/
  absent : Bool
  /-- How its encoders answer a call after the calls that they have heard. -/
  answers : List Call → Call → Except Error Outcome
  /-- The formats it was asked for. -/
  formats : Array SdpFormat := #[]
  /-- Calls to its encoders. -/
  calls : Array Call := #[]

namespace Fallback

/-- The answer to a call.  A hint is taken without one, and only of a pull does anything come out.  An answer rests on
what was heard, but not on whether a keyframe was asked for. -/
def answer (f : Fallback) (call : Call) : Except Error Outcome :=
  let answered := f.answers (f.calls.toList.map Call.hushed) call.hushed
  match call with
  | .rate _ => .ok .noOutput
  | .pull _ _ => answered
  | _ => answered.map fun _ => .noOutput

/-- Take note of a call. -/
def record (f : Fallback) (call : Call) : Fallback := { f with calls := f.calls.push call }

/-- Ask for an encoder for a format. -/
def ask (f : Fallback) (format : SdpFormat) : Fallback :=
  { f with formats := f.formats.push format }

/-- Names of the formats it was asked for. -/
def asked (f : Fallback) : Array String := f.formats.map (·.name)

/-- How often its encoders were called at a stage. -/
def count (f : Fallback) (stage : Stage) : Nat :=
  f.calls.countP fun c => c.stage? = some stage

/-- The last bitrate its encoders were given. -/
def lastRate? (f : Fallback) : Option RateHint :=
  f.calls.toList.reverse.findSome? fun c => match c with | .rate hint => some hint | _ => none

end Fallback

end EncodedFeed
