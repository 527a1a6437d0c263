import EncodedFeed.Frame
import EncodedFeed.Table

/-!
# Pumps

A pump stands between an encoded source and the host: for each encoded frame it hands one placeholder
picture to its taps, stamped with a strictly increasing time.  An ended pump hands out nothing.
-/

namespace EncodedFeed

/-- What a pump hands raw frames to. -/
inductive Tap
  | pipeline (target : Ref .pipeline)
  /-- Keeps every frame, for inspection. -/
  | recorder (target : Ref .recorder)
deriving DecidableEq, Repr

/-- Names a tap of one pump. -/
abbrev TapId := Nat

/-- The raw-frame end of a source. -/
structure Pump where
  placeholder : Picture
  aligner : Aligner := {}
  /-- Taps in the order in which they were added. -/
  taps : List (TapId × Tap) := []
  nextTap : TapId := 1
  ended : Bool := false
deriving DecidableEq, Repr

namespace Pump

/-- A pump with a placeholder of the given size. -/
def ofSize (size : Resolution) : Pump := { placeholder := Picture.black size.width size.height }

/-- A pump with a placeholder of the given size, if there is such a picture. -/
def ofSize? (size : Resolution) : Option Pump :=
  (Picture.black? size.width size.height).map fun placeholder => { placeholder }

/-- Add a tap behind the others. -/
def addTap (p : Pump) (tap : Tap) : TapId × Pump :=
  (p.nextTap, { p with taps := p.taps ++ [(p.nextTap, tap)], nextTap := p.nextTap + 1 })

/-- There is a tap of that name. -/
def hasTap (p : Pump) (id : TapId) : Bool := p.taps.any fun t => t.1 == id

/-- Remove a tap. -/
def removeTap (p : Pump) (id : TapId) : Pump :=
  { p with taps := p.taps.filter fun t => t.1 != id }

/-- The stamp for a capture time. -/
def stamp (p : Pump) (capture now : Int64) : Stamped Int64 × Pump :=
  let (stamp, aligner) := p.aligner.align capture now
  (stamp, { p with aligner })

/-- The stamp for a capture time, if there is a time left for it. -/
def stamp? (p : Pump) (capture now : Int64) : Option (Stamped Int64 × Pump) :=
  (p.aligner.align? capture now).map fun x => (x.1, { p with aligner := x.2 })

/-- End the pump and let go of its taps. -/
def shutdown (p : Pump) : Pump := { p with taps := [], ended := true }

end Pump

end EncodedFeed
