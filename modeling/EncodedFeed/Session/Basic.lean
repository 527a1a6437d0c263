import EncodedFeed.Encoder.Basic
import EncodedFeed.Output.Basic
import EncodedFeed.Output.Recording
import EncodedFeed.Pipeline
import EncodedFeed.Registry
import EncodedFeed.Session.Journal
import EncodedFeed.Source

/-!
# Sessions

A session holds everything that is alive and refers to one another: sources, registries, outputs,
encoders, pipelines and recordings.  Its operations are functions from a session to a result and the
session afterwards.  The source with routing id `n` is the `n`-th one that was made.
-/

namespace EncodedFeed

/-- An output, and whether the application still holds it. -/
structure OutputSlot where
  output : Output
  held : Bool := true

/-- Everything alive. -/
structure Session where
  sources : Table Source := {}
  registries : Table Registry := {}
  outputs : Table OutputSlot := {}
  encoders : Table Encoder := {}
  pipelines : Table Pipeline := {}
  fallbacks : Table Fallback := {}
  /-- Raw frames each recorder has kept. -/
  recorders : Table (Array RawFrame) := {}
  /-- For each observer the layers it was told of, none for a source of its own. -/
  observers : Table (Array (Option Nat)) := {}
  recordings : Table Recording := {}
  files : FileTree := {}
  /-- What has happened, latest first. -/
  journal : List Event := []

namespace Session

/-! ### Looking up -/

/-- The source with an id. -/
def source? (s : Session) (id : RoutingId) : Option Source := s.sources.get? id.number

/-- A registry; one that is not there is empty. -/
def registry (s : Session) (r : Ref .registry) : Registry := (s.registries.get? r.number).getD {}

/-- An output. -/
def output? (s : Session) (o : Ref .output) : Option Output :=
  (s.outputs.get? o.number).map OutputSlot.output

/-- An encoder. -/
def encoder? (s : Session) (e : Ref .encoder) : Option Encoder := s.encoders.get? e.number

/-- A pipeline. -/
def pipeline? (s : Session) (p : Ref .pipeline) : Option Pipeline := s.pipelines.get? p.number

/-- A fallback. -/
def fallback? (s : Session) (f : Ref .fallback) : Option Fallback := s.fallbacks.get? f.number

/-- A recording. -/
def recording? (s : Session) (r : Ref .recording) : Option Recording := s.recordings.get? r.number

/-- Warnings given so far, oldest first. -/
def warnings (s : Session) : List Warning := (s.journal.filterMap Event.warning?).reverse

/-! ### Changing one thing -/

/-- Note an event. -/
def note (s : Session) (e : Event) : Session := { s with journal := e :: s.journal }

/-- Give a warning. -/
def warn (s : Session) (w : Warning) : Session := s.note (.warned w)

/-- Change a source. -/
def modifySource (s : Session) (id : RoutingId) (f : Source → Source) : Session :=
  { s with sources := s.sources.modify id.number f }

/-- Change the pump of a source. -/
def modifyPump (s : Session) (id : RoutingId) (f : Pump → Pump) : Session :=
  s.modifySource id fun src => { src with pump := f src.pump }

/-- Change a registry. -/
def modifyRegistry (s : Session) (r : Ref .registry) (f : Registry → Registry) : Session :=
  { s with registries := s.registries.modify r.number f }

/-- Change an output. -/
def modifyOutput (s : Session) (o : Ref .output) (f : Output → Output) : Session :=
  { s with outputs := s.outputs.modify o.number fun slot => { slot with output := f slot.output } }

/-- Put an encoder in the place of another. -/
def setEncoder (s : Session) (e : Ref .encoder) (x : Encoder) : Session :=
  { s with encoders := s.encoders.modify e.number fun _ => x }

/-- Change a pipeline. -/
def modifyPipeline (s : Session) (p : Ref .pipeline) (f : Pipeline → Pipeline) : Session :=
  { s with pipelines := s.pipelines.modify p.number f }

/-- Change the counts of a pipeline. -/
def count (s : Session) (p : Ref .pipeline) (f : PipelineStats → PipelineStats) : Session :=
  s.modifyPipeline p fun x => { x with stats := f x.stats }

/-! ### Adding -/

/-- Add an empty registry. -/
def addRegistry (s : Session) : Ref .registry × Session :=
  (⟨s.registries.next⟩, { s with registries := s.registries.add {} })

/-- Add an output. -/
def addOutput (s : Session) (o : Output) : Ref .output × Session :=
  (⟨s.outputs.next⟩, { s with outputs := s.outputs.add { output := o } })

/-- Add an encoder. -/
def addEncoder (s : Session) (e : Encoder) : Ref .encoder × Session :=
  (⟨s.encoders.next⟩, { s with encoders := s.encoders.add e })

/-- Add a fallback. -/
def addFallback (s : Session) (f : Fallback) : Ref .fallback × Session :=
  (⟨s.fallbacks.next⟩, { s with fallbacks := s.fallbacks.add f })

/-- Add a recorder that has kept nothing yet. -/
def addRecorder (s : Session) : Ref .recorder × Session :=
  (⟨s.recorders.next⟩, { s with recorders := s.recorders.add #[] })

/-- Add an observer that has been told of nothing yet. -/
def addObserver (s : Session) : Ref .observer × Session :=
  (⟨s.observers.next⟩, { s with observers := s.observers.add #[] })

/-- Let go of an encoder. -/
def dropEncoder (s : Session) (e : Ref .encoder) : Session :=
  { s with encoders := s.encoders.erase e.number }

end Session

end EncodedFeed
