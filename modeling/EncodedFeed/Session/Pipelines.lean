import EncodedFeed.Session.Frames

/-!
# Pipelines of a session

Making a pipeline around an encoder, attaching it to sources and detaching it, and letting go of it.
-/

namespace EncodedFeed.Session

/-- Make a pipeline: its encoder is set up and connected to the output, images being counted on the way.
If that fails the encoder is gone. -/
def addPipeline (s : Session) (e : Ref .encoder) (settings : Settings) (o : Ref .output) :
    Except Error (Ref .pipeline) × Session :=
  let p : Ref .pipeline := ⟨s.pipelines.next⟩
  match s.call e (.init settings) with
  | (.error err, s) => (.error err, s.dropEncoder e)
  | (.ok _, s) =>
    match s.call e (.connect ⟨o, some p⟩) with
    | (.error err, s) => (.error err, s.dropEncoder e)
    | (.ok _, s) => (.ok p, { s with pipelines := s.pipelines.add { encoder := e } })

/-- Attach a pipeline to a source. -/
def attach (s : Session) (p : Ref .pipeline) (id : RoutingId) : TapId × Session :=
  let (tap, s) := s.addTap id (.pipeline p)
  (tap, s.modifyPipeline p fun x => { x with attachments := x.attachments ++ [(id, tap)] })

/-- Detach a pipeline from all sources. -/
def detach (s : Session) (p : Ref .pipeline) : Session :=
  match s.pipeline? p with
  | none => s
  | some x =>
    x.attachments.foldl (fun s a => (s.removeTap a.1 a.2).2)
      (s.modifyPipeline p fun x => { x with attachments := [] })

/-- Have the next raw frame ask for a keyframe. -/
def wantKeyframe (s : Session) (p : Ref .pipeline) : Session :=
  s.modifyPipeline p fun x => { x with keyframePending := true }

/-- Hint the encoder of a pipeline at a rate. -/
def hintRate (s : Session) (p : Ref .pipeline) (hint : RateHint) : Session :=
  match s.pipeline? p with
  | none => s
  | some x => (s.call x.encoder (.rate hint)).2

/-- Give a warning about a release that failed. -/
def checkRelease (s : Session) : Except Error Outcome → Session
  | .ok _ => s
  | .error e => s.warn (.releaseFailed e)

/-- Let go of a pipeline: detach it and release its encoder. -/
def dropPipeline (s : Session) (p : Ref .pipeline) : Session :=
  match s.pipeline? p with
  | none => s
  | some x =>
    let (result, s) := (s.detach p).call x.encoder .release
    let s := (s.checkRelease result).dropEncoder x.encoder
    { s with pipelines := s.pipelines.erase p.number }

end EncodedFeed.Session
