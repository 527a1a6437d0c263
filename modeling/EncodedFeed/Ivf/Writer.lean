import EncodedFeed.Ivf.Header

/-!
# Writing IVF files

A file this library writes has a header of 32 octets with timebase 90000/1, so that timestamps are RTP
times, and one record per image.  The frame count is put in last, at `frameCountOffset`.
-/

namespace EncodedFeed.Ivf

/-- Position of the frame count in the header. -/
def frameCountOffset : Nat := 24

/-- The header of a recording; dimensions are kept modulo `2^16`. -/
def header (fourcc : Octets) (width height frameCount : Nat) : Octets :=
  signature ++ Octets.little 2 0 ++ Octets.little 2 headerLength ++ fourcc
    ++ Octets.little 2 width ++ Octets.little 2 height
    ++ Octets.little 4 90000 ++ Octets.little 4 1
    ++ Octets.little 4 frameCount ++ Octets.little 4 0

/-- The record of one image. -/
def record (timestamp : Nat) (data : Octets) : Octets :=
  Octets.little 4 data.length ++ Octets.little 8 timestamp ++ data

end EncodedFeed.Ivf
