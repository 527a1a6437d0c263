import EncodedFeed.Error
import EncodedFeed.Output.Channel

/-!
# Outputs

Where encoders put the images they emit: a collection, a broadcast channel, or an output that decides
for each image whether it takes it.
-/

namespace EncodedFeed

/-- An output for encoded images. -/
inductive Output
  /-- Keeps images, oldest first, until they are taken out. -/
  | collector (images : Array EmittedImage)
  | channel (c : Channel)
  /-- Has seen `seen` images, and says for each, by position, whether it refuses it. -/
  | guarded (verdict : Nat → Option SinkError) (seen : Nat)

namespace Output

/-- Offer an image: the reason for which it is refused, if it is, and the output afterwards. -/
def offer (o : Output) (i : EmittedImage) : Option SinkError × Output :=
  match o with
  | collector images => (none, collector (images.push i))
  | channel c => (none, channel (c.send i))
  | guarded verdict seen => (verdict seen, guarded verdict (seen + 1))

/-- The images a collector holds. -/
def images : Output → List EmittedImage
  | collector images => images.toList
  | _ => []

/-- The output after its images have been taken out. -/
def cleared : Output → Output
  | collector _ => collector #[]
  | o => o

/-- The output as a channel. -/
def channel? : Output → Option Channel
  | channel c => some c
  | _ => none

/-- An output that takes `n` images and refuses all others. -/
def failingAfter (n : Nat) (e : SinkError) : Output :=
  guarded (fun i => if i < n then none else some e) 0

end Output

end EncodedFeed
