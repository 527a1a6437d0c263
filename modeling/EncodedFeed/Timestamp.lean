import EncodedFeed.Words

/-!
# Timestamps

Times are microseconds since the epoch.  A stamp remembers whether it stems from the clock or was
given by a caller, so that what depends on the clock can be told apart.  The aligner turns capture
times into strictly increasing stamps, and RTP times count ninetieths of a millisecond modulo `2^32`.
-/

namespace EncodedFeed

/-- A value derived from a time, and whether that time was read off the clock. -/
structure Stamped (α : Type) where
  value : α
  fromClock : Bool := false
deriving DecidableEq, Repr

/-- Apply a function to the value, keeping where it stems from. -/
def Stamped.map {α β : Type} (f : α → β) (s : Stamped α) : Stamped β := ⟨f s.value, s.fromClock⟩

/-- A stamp as a number. -/
def Stamped.time (t : Stamped Int64) : Int := t.value.toInt

/-- Ticks of the RTP video clock in a second. -/
def rtpClockRate : Int := 90000

/-- RTP time of a capture time: rounded toward zero, modulo `2^32`. -/
def rtpOfMicros (us : Int64) : UInt32 :=
  UInt32.ofInt (Int.tdiv (us.toInt * rtpClockRate) 1000000)

/-- Milliseconds of a capture time, rounded toward zero. -/
def millisOfMicros (us : Int64) : Int64 := us / 1000

/-- Keeps stamps strictly increasing. -/
structure Aligner where
  last : Option (Stamped Int64) := none
deriving DecidableEq, Repr

namespace Aligner

/-- The stamp a capture time asks for: the time itself if positive, else the clock's. -/
def candidate (capture now : Int64) : Stamped Int64 :=
  if capture > 0 then ⟨capture, false⟩ else ⟨now, true⟩

/-- The stamp for a capture time: its candidate, or one past the last stamp if that is later. -/
def align (a : Aligner) (capture now : Int64) : Stamped Int64 × Aligner :=
  let wanted := candidate capture now
  let stamp :=
    match a.last with
    | some last => if wanted.value ≤ last.value then last.map (· + 1) else wanted
    | none => wanted
  (stamp, { last := some stamp })

/-- The stamps for a list of capture times, each with its reading of the clock. -/
def alignAll : Aligner → List (Int64 × Int64) → List (Stamped Int64)
  | _, [] => []
  | a, (capture, now) :: rest =>
    let (stamp, a) := a.align capture now
    stamp :: a.alignAll rest

/-! ### With sums checked -/

/-- One past a stamp, if that is a time. -/
def next? (last : Stamped Int64) : Option (Stamped Int64) :=
  (signed? 64 (last.time + 1)).map fun t => ⟨Int64.ofInt t, last.fromClock⟩

/-- The stamp for a capture time, if one past the last stamp is a time should it be needed. -/
def align? (a : Aligner) (capture now : Int64) : Option (Stamped Int64 × Aligner) :=
  let wanted := candidate capture now
  let stamp :=
    match a.last with
    | some last => if wanted.value ≤ last.value then next? last else some wanted
    | none => some wanted
  stamp.map fun t => (t, { last := some t })

/-- The stamps for a list of capture times, if there is one for each. -/
def alignAll? : Aligner → List (Int64 × Int64) → Option (List (Stamped Int64))
  | _, [] => some []
  | a, (capture, now) :: rest =>
    (a.align? capture now).bind fun x => (x.2.alignAll? rest).map (x.1 :: ·)

end Aligner

end EncodedFeed
