import EncodedFeed.Encoder.Lazy

/-!
# Encoders

The encoders a host can hold: passthrough encoders, and lazy ones that may turn into them.
-/

namespace EncodedFeed

/-- An encoder as the host sees it. -/
inductive Encoder
  | passthrough (p : Passthrough)
  | lazy (l : Lazy)
deriving DecidableEq, Repr

namespace Encoder

/-- The outputs an encoder holds on to. -/
def destinations : Encoder → List Destination
  | passthrough p => p.destination.toList
  | lazy l =>
    l.destination.toList
      ++ (match l.chosen with | some (.passthrough p) => p.destination.toList | _ => [])

end Encoder

end EncodedFeed
