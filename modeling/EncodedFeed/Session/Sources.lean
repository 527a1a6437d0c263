import EncodedFeed.Session.Basic

/-!
# Sources and registries of a session

Making sources and letting go of them, registering them, taking frames from them and asking them for
keyframes.  A source is closed and leaves its registry when its last handle is dropped.
-/

namespace EncodedFeed.Session

/-! ### Registries -/

/-- Register a source under an id; an id in use is refused with a warning. -/
def register (s : Session) (r : Ref .registry) (id source : RoutingId) : Bool × Session :=
  if (s.registry r).contains id then (false, s.warn (.alreadyRegistered id))
  else (true, s.modifyRegistry r fun x => x.insert id source)

/-- Remove what is registered under an id, and say which source that was. -/
def unregister (s : Session) (r : Ref .registry) (id : RoutingId) : Option RoutingId × Session :=
  ((s.registry r).find? id, s.modifyRegistry r fun x => x.erase id)

/-- Of two registrations the one with the smaller id. -/
def earlier (a b : RoutingId × RoutingId) : RoutingId × RoutingId :=
  if a.1.number ≤ b.1.number then a else b

/-- Registrations of sources of a codec. -/
def registered (s : Session) (r : Ref .registry) (c : Codec) : List (RoutingId × RoutingId) :=
  (s.registry r).entries.filter fun e => (s.source? e.2).any fun src => src.codec == c

/-- The source of a codec that is registered under the smallest id. -/
def findByCodec (s : Session) (r : Ref .registry) (name : String) : Option RoutingId :=
  (Codec.ofSdpName? name).bind fun c =>
    match s.registered r c with
    | [] => none
    | e :: rest => some (rest.foldl earlier e).2

/-- Codecs of the registered sources, each once, in the order of all codecs. -/
def codecs (s : Session) (r : Ref .registry) : List Codec :=
  Codec.all.filter fun c => !(s.registered r c).isEmpty

/-! ### Handles -/

/-- Make a source with one handle and register it under its own id. -/
def addSource (s : Session) (r : Ref .registry) (c : SourceConfig) : RoutingId × Session :=
  let id : RoutingId := ⟨s.sources.next⟩
  let s := { s with sources := s.sources.add (Source.ofConfig c r) }
  (id, (s.register r id id).2)

/-- Make a source as `addSource` does, if there is a picture of the size of its placeholder. -/
def addSource? (s : Session) (r : Ref .registry) (c : SourceConfig) : Option (RoutingId × Session) :=
  (Source.ofConfig? c r).map fun src =>
    let id : RoutingId := ⟨s.sources.next⟩
    let s := { s with sources := s.sources.add src }
    (id, (s.register r id id).2)

/-- Take another handle to a source. -/
def addHandle (s : Session) (id : RoutingId) : Session :=
  s.modifySource id fun src => { src with handles := src.handles + 1 }

/-- Drop a handle to a source; with the last one the source leaves its registry and is closed. -/
def dropHandle (s : Session) (id : RoutingId) : Session :=
  match s.source? id with
  | none => s
  | some src =>
    if src.handles > 1 then s.modifySource id fun src => { src with handles := src.handles - 1 }
    else
      let s := (s.unregister src.home id).2
      s.modifySource id fun src => { src.close with handles := 0 }

/-! ### Frames and keyframe requests -/

/-- Take the oldest frame of a source. -/
def take (s : Session) (id : RoutingId) : Option EncodedFrame × Session :=
  match (s.source? id).bind fun src => src.take.1 with
  | none => (none, s)
  | some f => (some f, (s.modifySource id fun src => src.take.2).note (.taken id f))

/-- Ask a source for a keyframe; its watcher hears of every request. -/
def requestKeyframe (s : Session) (id : RoutingId) : Session :=
  let s := (s.modifySource id Source.requestKeyframe).note (.asked id)
  match (s.source? id).bind Source.watcher with
  | none => s
  | some w => { s with observers := s.observers.modify w.observer.number fun x => x.push w.layer }

/-- Whether a keyframe was wanted of a source; afterwards none is. -/
def consumeKeyframeRequest (s : Session) (id : RoutingId) : Bool × Session :=
  ((s.source? id).any Source.keyframeRequested, s.modifySource id Source.consumeKeyframeRequest)

/-- Frames waiting in a source. -/
def queueLength (s : Session) (id : RoutingId) : Nat :=
  ((s.source? id).map fun src => src.queue.length).getD 0

/-- Set or clear the watcher of a source. -/
def watch (s : Session) (id : RoutingId) (w : Option Watcher) : Session :=
  s.modifySource id fun src => { src with watcher := w }

/-- Add a tap to the pump of a source. -/
def addTap (s : Session) (id : RoutingId) (tap : Tap) : TapId × Session :=
  (((s.source? id).map fun src => src.pump.nextTap).getD 0,
    s.modifyPump id fun p => (p.addTap tap).2)

/-- Remove a tap, and say whether it was there. -/
def removeTap (s : Session) (id : RoutingId) (tap : TapId) : Bool × Session :=
  ((s.source? id).any fun src => src.pump.hasTap tap, s.modifyPump id fun p => p.removeTap tap)

end EncodedFeed.Session
