import EncodedFeed.Frame

/-!
# Registries

A registry maps routing ids to sources, so that an encoder can find the source a placeholder came from.
Usually a source is registered under its own id.
-/

namespace EncodedFeed

/-- Sources by the id they are registered under. -/
structure Registry where
  entries : List (RoutingId × RoutingId) := []
deriving DecidableEq, Repr

namespace Registry

/-- The source registered under an id. -/
def find? (r : Registry) (id : RoutingId) : Option RoutingId := r.entries.lookup id

/-- Some source is registered under the id. -/
def contains (r : Registry) (id : RoutingId) : Bool := (r.find? id).isSome

/-- Number of registered sources. -/
def size (r : Registry) : Nat := r.entries.length

/-- Register a source under an id that is free. -/
def insert (r : Registry) (id source : RoutingId) : Registry where
  entries := (id, source) :: r.entries

/-- Remove whatever is registered under an id. -/
def erase (r : Registry) (id : RoutingId) : Registry where
  entries := r.entries.filter fun e => e.1 ≠ id

/-- The registry with its size, for diagnostic dumps. -/
def dump (r : Registry) : String := s!"SourceRegistry \x7b sources: {r.size} \x7d"

end Registry

end EncodedFeed
