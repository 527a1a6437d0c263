import EncodedFeed.Codec
import EncodedFeed.Packetization

/-!
# SDP video formats

A format is a codec name with format parameters.  Parameters are kept sorted by key with one value
per key, so that two formats are equal exactly when they have the same name and the same parameters.
-/

namespace EncodedFeed

/-- Codec name and format parameters of a negotiated video format. -/
structure SdpFormat where
  name : String
  parameters : List (String × String) := []
deriving DecidableEq, Repr

namespace SdpFormat

/-- Put a value under a key of a list sorted by key; the value already there is replaced. -/
def insertSorted (key value : String) : List (String × String) → List (String × String)
  | [] => [(key, value)]
  | (k, v) :: rest =>
    if key = k then (key, value) :: rest
    else if key < k then (key, value) :: (k, v) :: rest
    else (k, v) :: insertSorted key value rest

/-- The format with one more parameter. -/
def withParameter (f : SdpFormat) (key value : String) : SdpFormat :=
  { f with parameters := insertSorted key value f.parameters }

/-- The format with a name and parameters in any order; the last value of a key counts. -/
def ofParameters (name : String) (parameters : List (String × String)) : SdpFormat :=
  parameters.foldl (fun f p => f.withParameter p.1 p.2) { name }

/-- The format offered for a codec.  Only H.264 has parameters. -/
def forCodec (codec : Codec) (mode : PacketizationMode) : SdpFormat :=
  match codec with
  | .h264 =>
    ofParameters codec.sdpName
      [("level-asymmetry-allowed", "1"), ("packetization-mode", mode.fmtpValue),
        ("profile-level-id", "42e01f")]
  | _ => { name := codec.sdpName }

/-- The codec the format names. -/
def codec? (f : SdpFormat) : Option Codec := Codec.ofSdpName? f.name

end SdpFormat

end EncodedFeed
