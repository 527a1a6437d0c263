import EncodedFeed.Session.Outputs
import EncodedFeed.Session.Sources

/-!
# Calling encoders

`Session.call` makes one call to an encoder: set it up, connect it, release it, hint at a rate, or pull
it.  A pull of a passthrough encoder moves at most one frame from the queue of its source to its output.
-/

namespace EncodedFeed.Session

/-- The outcome of a call and what is left behind. -/
abbrev Result (α : Type) := Except Error Outcome × α × Session

/-! ### Passthrough encoders -/

/-- The source a passthrough encoder takes a frame from when it is pulled with a raw frame. -/
def resolve (s : Session) (b : Binding) (raw : RawFrame) : Option RoutingId :=
  match b with
  | .bound id => some id
  | .routed r => raw.source.bind (s.registry r).find?

/-- Take the next frame of a source and present it. -/
def passOn (s : Session) (p : Passthrough) (d : Destination) (id : RoutingId) (raw : RawFrame) :
    Result Passthrough :=
  match s.take id with
  | (none, s) => (.ok .noOutput, p, s)
  | (some f, s) =>
    match s.present d (p.image f raw) with
    | (some e, s) => (.error (.sink e), p, s.warn (.refused e))
    | (none, s) => (.ok .emitted, { p with emitted := p.emitted + 1 }, s)

/-- Pull a passthrough encoder. -/
def pull (s : Session) (p : Passthrough) (raw : RawFrame) (types : List FrameType) :
    Result Passthrough :=
  match p.settings, p.destination with
  | none, _ => (.error (.uninitialized "init() has not been called"), p, s)
  | some _, none => (.error (.uninitialized "no output sink registered"), p, s)
  | some _, some d =>
    match s.resolve p.binding raw with
    | none => (.ok .noOutput, p, s.warn (.unresolved raw.source))
    | some id =>
      let s := if types.contains .key then s.requestKeyframe id else s
      if p.sending then s.passOn p d id raw else (.ok .noOutput, p, s)

/-- Make a call to a passthrough encoder. -/
def callPassthrough (s : Session) (p : Passthrough) : Call → Result Passthrough
  | .init settings =>
    match p.init settings with
    | .ok p => (.ok .noOutput, p, s)
    | .error e => (.error e, p, s)
  | .connect d => (.ok .noOutput, p.connect d, s)
  | .release => (.ok .noOutput, p.release, s)
  | .rate hint => (.ok .noOutput, p.setRate hint, s)
  | .pull raw types => s.pull p raw types

/-! ### Fallback encoders -/

/-- Make a call to an encoder of a fallback. -/
def callFallback (s : Session) (f : Ref .fallback) (c : Call) : Except Error Outcome × Session :=
  (((s.fallback? f).map fun x => x.answer c).getD (.ok .noOutput),
    { s with fallbacks := s.fallbacks.modify f.number fun x => x.record c })

/-! ### Lazy encoders -/

/-- Make a call to the encoder that a lazy encoder has chosen. -/
def callChosen (s : Session) (l : Lazy) (chosen : Chosen) (c : Call) : Result Chosen :=
  match chosen with
  | .passthrough p =>
    let (result, p, s) := s.callPassthrough p c
    (result, .passthrough p, s)
  | .fallback =>
    let (result, s) := s.callFallback l.fallback c
    (result, .fallback, s)

/-- Make calls one after the other up to the first that fails. -/
def callAll (s : Session) (l : Lazy) (chosen : Chosen) : List Call → Result Chosen
  | [] => (.ok .noOutput, chosen, s)
  | c :: rest =>
    match s.callChosen l chosen c with
    | (.ok _, chosen, s) => s.callAll l chosen rest
    | (.error e, chosen, s) => (.error e, chosen, s)

/-- Pass on to a chosen encoder all that a lazy one has kept; only if all goes well the choice holds. -/
def settle (s : Session) (l : Lazy) (chosen : Chosen) : Result Lazy :=
  match s.callAll l chosen l.kept with
  | (.ok o, chosen, s) => (.ok o, { l with chosen := some chosen }, s)
  | (.error e, _, s) => (.error e, l, s)

/-- The raw frame carries an id that is registered. -/
def isRegistered (s : Session) (r : Ref .registry) (raw : RawFrame) : Bool :=
  raw.source.any (s.registry r).contains

/-- The fallback makes encoders. -/
def canFallBack (s : Session) (f : Ref .fallback) : Bool := (s.fallback? f).any fun x => !x.absent

/-- Let a lazy encoder choose for a raw frame. -/
def choose (s : Session) (l : Lazy) (raw : RawFrame) : Result Lazy :=
  if s.isRegistered l.registry raw then
    s.settle { l with mode := .passthrough } (.passthrough l.passthrough)
  else
    let l := { l with mode := .fallback }
    let able := s.canFallBack l.fallback
    let s := { s with fallbacks := s.fallbacks.modify l.fallback.number fun x => x.ask l.format }
    if able then s.settle l .fallback
    else (.error (.encoderUnavailable ("no fallback encoder for " ++ l.format.name)), l, s)

/-- Forward a call to the encoder a lazy one has chosen, if it has. -/
def forward (s : Session) (l : Lazy) (c : Call) : Result Lazy :=
  match l.chosen with
  | none => (.ok .noOutput, l, s)
  | some chosen =>
    let (result, chosen, s) := s.callChosen l chosen c
    (result, { l with chosen := some chosen }, s)

/-- Pull a lazy encoder. -/
def pullLazy (s : Session) (l : Lazy) (raw : RawFrame) (types : List FrameType) : Result Lazy :=
  if l.settings.isNone || l.destination.isNone then
    (.error (.uninitialized
      "lazy encoder needs init() and an output sink before the first pull"), l, s)
  else if l.chosen.isSome then s.forward l (.pull raw types)
  else
    match s.choose l raw with
    | (.ok _, l, s) => s.forward l (.pull raw types)
    | (.error e, l, s) => (.error e, l, s)

/-- Make a call to a lazy encoder. -/
def callLazy (s : Session) (l : Lazy) : Call → Result Lazy
  | .init settings => s.forward { l with settings := some settings } (.init settings)
  | .connect d => s.forward { l with destination := some d } (.connect d)
  | .rate hint => s.forward { l with rate := some hint } (.rate hint)
  | .release =>
    let (result, l, s) := s.forward l .release
    (result, l.reset, s)
  | .pull raw types => s.pullLazy l raw types

/-! ### Encoders by reference -/

/-- Make a call to an encoder. -/
def call (s : Session) (e : Ref .encoder) (c : Call) : Except Error Outcome × Session :=
  match s.encoder? e with
  | none => (.ok .noOutput, s)
  | some (.passthrough p) =>
    let (result, p, s) := s.callPassthrough p c
    (result, s.setEncoder e (.passthrough p))
  | some (.lazy l) =>
    let (result, l, s) := s.callLazy l c
    (result, s.setEncoder e (.lazy l))

/-- Capabilities of an encoder. -/
def capabilities? (s : Session) (e : Ref .encoder) : Option Capabilities :=
  (s.encoder? e).bind fun x =>
    match x with
    | .passthrough p => some (Passthrough.capabilities p.config)
    | .lazy l =>
      match l.chosen with
      | none => some Lazy.undecidedCapabilities
      | some (.passthrough p) => some (Passthrough.capabilities p.config)
      | some .fallback => (s.fallback? l.fallback).map Fallback.capabilities

end EncodedFeed.Session
