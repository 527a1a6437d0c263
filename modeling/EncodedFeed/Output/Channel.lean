import EncodedFeed.Image

/-!
# Broadcast channels

A channel passes images on to every receiver that subscribed before they were sent.  It keeps only the
latest `capacity` images: a receiver that falls behind is told once how many it missed and goes on with
the oldest image kept.  Images sent while nobody listens are dropped.
-/

namespace EncodedFeed

/-- A broadcast channel. -/
structure Channel where
  /-- Images kept for receivers that are behind. -/
  capacity : Nat
  /-- All images sent while somebody listened, oldest first. -/
  sent : Array EmittedImage := #[]
  /-- For each receiver, by number, the position of the next image it gets. -/
  cursors : List (Nat × Nat) := []
  nextReceiver : Nat := 1
deriving Repr

/-- What a receiver gets without waiting. -/
inductive Reception
  | image (i : EmittedImage)
  /-- So many images are lost to this receiver. -/
  | lagged (missed : Nat)
  /-- Nothing is waiting. -/
  | nothing
deriving Repr

namespace Channel

/-- A channel that keeps at least `capacity` images, at least one; the number is rounded up to a power
of two. -/
def ofCapacity (capacity : Nat) : Channel := { capacity := (max capacity 1).nextPowerOfTwo }

/-- Capacity of a channel for which none is given. -/
def defaultCapacity : Nat := 64

/-- Number of receivers. -/
def receivers (c : Channel) : Nat := c.cursors.length

/-- Add a receiver for what is sent from now on. -/
def subscribe (c : Channel) : Nat × Channel :=
  (c.nextReceiver,
    { c with
      cursors := (c.nextReceiver, c.sent.size) :: c.cursors
      nextReceiver := c.nextReceiver + 1 })

/-- Remove a receiver. -/
def unsubscribe (c : Channel) (receiver : Nat) : Channel :=
  { c with cursors := c.cursors.filter fun r => r.1 ≠ receiver }

/-- Send an image. -/
def send (c : Channel) (i : EmittedImage) : Channel :=
  if c.cursors = [] then c else { c with sent := c.sent.push i }

/-- Position of the oldest image kept. -/
def oldest (c : Channel) : Nat := c.sent.size - c.capacity

/-- Position of the next image of a receiver. -/
def cursor (c : Channel) (receiver : Nat) : Nat := (c.cursors.lookup receiver).getD c.sent.size

/-- Move a receiver to a position. -/
def moveTo (c : Channel) (receiver position : Nat) : Channel :=
  { c with cursors := c.cursors.map fun r => if r.1 = receiver then (r.1, position) else r }

/-- What a receiver gets next. -/
def receive (c : Channel) (receiver : Nat) : Reception × Channel :=
  let position := c.cursor receiver
  if position < c.oldest then (.lagged (c.oldest - position), c.moveTo receiver c.oldest)
  else
    match c.sent[position]? with
    | some i => (.image i, c.moveTo receiver (position + 1))
    | none => (.nothing, c)

/-- Images waiting for a receiver, oldest first. -/
def waiting (c : Channel) (receiver : Nat) : List EmittedImage :=
  c.sent.toList.drop (max (c.cursor receiver) c.oldest)

end Channel

end EncodedFeed
