import EncodedFeed.AnnexB.Assembler
import EncodedFeed.Bitstream.Keyframe
import EncodedFeed.Ivf.Reader
import EncodedFeed.Output.Recording
import EncodedFeed.Resolution

/-!
# Input of a replay

A file to replay is an IVF file if it begins like one, else an H.264 byte stream.  Both become a list of
frames; those of an IVF file bring their own RTP times, those of a byte stream are made decodable.
-/

namespace EncodedFeed.Replay

/-- One frame of a file. -/
structure InputFrame where
  payload : Octets
  rtp : UInt32
  isKey : Bool
  hasParameterSets : Bool
deriving DecidableEq, Repr

/-- A file taken apart. -/
structure Input where
  container : Container
  codec : Codec
  resolution : Resolution
  frames : List InputFrame
  /-- Access units dropped before the first keyframe. -/
  dropped : Nat := 0
  warnings : List String := []
deriving DecidableEq, Repr

namespace Input

/-- The frame a record of an IVF file holds. -/
def ofRecord (h : Ivf.Header) (r : Ivf.Record) : InputFrame where
  payload := r.data
  rtp := h.toRtp r.timestamp
  isKey := isKeyframe h.codec r.data
  hasParameterSets := false

/-- The content of an IVF file. -/
def ofIvf (f : Ivf.File) : Input where
  container := .ivf
  codec := f.header.codec
  resolution := ⟨f.header.width.toUInt32, f.header.height.toUInt32⟩
  frames := f.frames.map (ofRecord f.header)
  warnings := f.warnings

/-- A frame of an H.264 byte stream has no RTP time of its own. -/
def ofAssembled (f : AssembledFrame) : InputFrame where
  payload := f.data
  rtp := 0
  isKey := f.isKey
  hasParameterSets := f.hasParameterSets

/-- The content of an H.264 byte stream with the resolution it is said to have. -/
def ofAnnexB (frames : List AssembledFrame) (dropped : Nat) (resolution : Resolution) : Input where
  container := .annexB
  codec := .h264
  resolution := resolution
  frames := frames.map ofAssembled
  dropped := dropped
  warnings :=
    if dropped = 0 then [] else [s!"Dropped {dropped} access unit(s) before the first keyframe"]

/-- Why a file cannot be replayed that is no IVF file. -/
def nothingDecodable : String :=
  "No decodable H.264 access units found (is this an Annex-B stream?)"

/-- Take a file apart.  The resolution is used for a byte stream, which does not say its own. -/
def read (data : Octets) (resolution : Resolution) : Except String Input :=
  if Ivf.hasSignature data then
    match Ivf.read data with
    | .ok f => .ok (ofIvf f)
    | .error e => .error e.message
  else
    let (frames, dropped) := Assembler.assemble data
    if frames = [] then .error nothingDecodable else .ok (ofAnnexB frames dropped resolution)

end Input

end EncodedFeed.Replay
