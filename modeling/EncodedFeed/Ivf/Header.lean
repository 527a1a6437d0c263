import EncodedFeed.Codec
import EncodedFeed.Text.Lossy
import EncodedFeed.Text.Quoted

/-!
# IVF files: header and records

An IVF file is a header of 32 octets or more, then records: a size of 4 octets, a timestamp of 8, and
that many octets of data.  All numbers are little-endian.  Timestamps count in a timebase that the
header gives as a rate and a scale.
-/

namespace EncodedFeed.Ivf

/-- First octets of every IVF file. -/
def signature : Octets := [0x44, 0x4b, 0x49, 0x46]

/-- Octets of the header this library reads and writes. -/
def headerLength : Nat := 32

/-- Octets before the data of a record. -/
def recordHeaderLength : Nat := 12

/-- What the header of a file says. -/
structure Header where
  codec : Codec
  width : UInt16
  height : UInt16
  /-- Denominator of the timebase. -/
  rate : UInt32
  /-- Numerator of the timebase. -/
  scale : UInt32
  frameCount : UInt32
deriving DecidableEq, Repr

/-- RTP time of a record's timestamp in a timebase, modulo `2^32`; a rate of zero gives zero. -/
def rtpOfTicks (rate scale : UInt32) (ticks : UInt64) : UInt32 :=
  if rate = 0 then 0
  else UInt32.ofNat (ticks.toNat * scale.toNat * 90000 / rate.toNat)

/-- RTP time of a record's timestamp in the timebase of the header. -/
def Header.toRtp (h : Header) (ticks : UInt64) : UInt32 := rtpOfTicks h.rate h.scale ticks

/-- One record of a file. -/
structure Record where
  timestamp : UInt64
  data : Octets
deriving DecidableEq, Repr

/-- Why a string of octets is no IVF file. -/
inductive Fault
  | missingSignature
  /-- The file ends within its header, after this many octets. -/
  | headerTruncated (length : Nat)
  /-- The four-character code is of no known codec. -/
  | unsupported (fourcc : Octets)
deriving DecidableEq, Repr

/-- Text of a fault. -/
def Fault.message : Fault → String
  | missingSignature => "Missing DKIF signature"
  | headerTruncated n => s!"IVF header truncated ({n} bytes)"
  | unsupported fourcc => "Unsupported IVF fourcc " ++ Text.quoted (Text.lossy fourcc)

end EncodedFeed.Ivf
