import EncodedFeed.Octets

/-!
# Codecs

The five video codecs an encoded source can carry, with the names each goes by: in SDP, on display,
in configuration files, and as the four-character code of an IVF file.
-/

namespace EncodedFeed

/-- Video codec of a compressed stream. -/
inductive Codec
  | vp8
  | vp9
  | av1
  | h264
  | h265
deriving DecidableEq, Repr, Inhabited

namespace Codec

/-- All codecs, in the order in which they are listed. -/
def all : List Codec := [vp8, vp9, av1, h264, h265]

/-- Name negotiated in SDP. -/
def sdpName : Codec → String
  | vp8 => "VP8"
  | vp9 => "VP9"
  | av1 => "AV1"
  | h264 => "H264"
  | h265 => "H265"

/-- Name shown to people. -/
def displayName : Codec → String
  | vp8 => "VP8"
  | vp9 => "VP9"
  | av1 => "AV1"
  | h264 => "H.264"
  | h265 => "HEVC"

/-- Lower-case name used in data. -/
def identifier : Codec → String
  | vp8 => "vp8"
  | vp9 => "vp9"
  | av1 => "av1"
  | h264 => "h264"
  | h265 => "h265"

/-- Spelling used in diagnostic dumps. -/
def debugName : Codec → String
  | vp8 => "Vp8"
  | vp9 => "Vp9"
  | av1 => "Av1"
  | h264 => "H264"
  | h265 => "H265"

/-- Four-character code in an IVF header; the H.26x codecs have none. -/
def fourcc : Codec → Option Octets
  | vp8 => some [0x56, 0x50, 0x38, 0x30]
  | vp9 => some [0x56, 0x50, 0x39, 0x30]
  | av1 => some [0x41, 0x56, 0x30, 0x31]
  | h264 | h265 => none

/-- Two names agree when they differ in the case of ASCII letters only. -/
def sameName (a b : String) : Bool := a.toLower == b.toLower

/-- The codec with the given SDP name, whatever its case. -/
def ofSdpName? (name : String) : Option Codec := all.find? fun c => sameName c.sdpName name

/-- The codec with the given IVF four-character code. -/
def ofFourcc? (code : Octets) : Option Codec := all.find? fun c => c.fourcc == some code

/-- The codec with exactly the given data name. -/
def ofIdentifier? (name : String) : Option Codec := all.find? fun c => c.identifier == name

/-- The codec a user means: its data name or a customary alias, whatever the case.  No letter outside
ASCII has one of these letters as its lower case on its own, so ASCII case mapping decides. -/
def parse? (text : String) : Option Codec :=
  match text.toLower with
  | "vp8" => some vp8
  | "vp9" => some vp9
  | "av1" => some av1
  | "h264" | "avc" | "264" => some h264
  | "h265" | "hevc" | "265" => some h265
  | _ => none

end Codec

end EncodedFeed
