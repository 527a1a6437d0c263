/-!
# H.264 packetization modes

How H.264 access units are cut into RTP packets, as negotiated by the `packetization-mode` format
parameter.
-/

namespace EncodedFeed

/-- RTP packetization of H.264. -/
inductive PacketizationMode
  /-- One NAL unit per packet. -/
  | singleNalUnit
  /-- Fragmentation and aggregation units are allowed. -/
  | nonInterleaved
deriving DecidableEq, Repr, Inhabited

namespace PacketizationMode

/-- Value of the `packetization-mode` format parameter. -/
def fmtpValue : PacketizationMode → String
  | singleNalUnit => "0"
  | nonInterleaved => "1"

/-- Name used in data. -/
def identifier : PacketizationMode → String
  | singleNalUnit => "single-nal-unit"
  | nonInterleaved => "non-interleaved"

/-- The mode with exactly the given data name. -/
def ofIdentifier? (name : String) : Option PacketizationMode :=
  [singleNalUnit, nonInterleaved].find? fun m => m.identifier == name

/-- The mode a user means: its name, its parameter value or a short form, whatever the case. -/
def parse? (text : String) : Option PacketizationMode :=
  match text.toLower with
  | "0" | "single-nal-unit" | "single" => some singleNalUnit
  | "1" | "non-interleaved" => some nonInterleaved
  | _ => none

end PacketizationMode

end EncodedFeed
