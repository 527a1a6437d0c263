import EncodedFeed.Error
import EncodedFeed.FileTree
import EncodedFeed.Image
import EncodedFeed.Ivf.Writer

/-!
# Recordings

A recording writes payloads to a file as they are: H.264 and H.265 one after the other, VP8, VP9 and AV1
as records of an IVF file.  What is written goes through a buffer; it reaches the file when the buffer
runs full and when the recording ends.
-/

namespace EncodedFeed

/-- How payloads stand in a file. -/
inductive Container
  /-- One after the other. -/
  | annexB
  | ivf
deriving DecidableEq, Repr

namespace Container

/-- The container for a codec. -/
def ofCodec (c : Codec) : Container := if c.fourcc.isSome then ivf else annexB

/-- Name of a container. -/
def identifier : Container → String
  | annexB => "annexb"
  | ivf => "ivf"

/-- The first octets of a file, before any frame count is known. -/
def lead (c : Codec) (width height : UInt32) : Octets :=
  match c.fourcc with
  | some fourcc => Ivf.header fourcc width.toNat height.toNat 0
  | none => []

/-- The pieces in which one payload is written. -/
def pieces (c : Container) (rtp : UInt32) (payload : Octets) : List Octets :=
  match c with
  | annexB => [payload]
  | ivf => [Octets.little 4 payload.length, Octets.little 8 rtp.toNat, payload]

end Container

/-- Octets the buffer of a recording holds. -/
def bufferSize : Nat := 8192

/-- A recording under way. -/
structure Recording where
  place : Place
  container : Container
  /-- Position in the file up to which it has written. -/
  offset : Nat := 0
  /-- Octets in the buffer. -/
  buffer : Octets := []
  /-- Payloads written. -/
  frames : Nat := 0
  /-- Octets of these payloads. -/
  bytes : Nat := 0
deriving DecidableEq, Repr

namespace Recording

/-- Write octets into the file, past the buffer. -/
def emit (r : Recording) (data : Octets) (t : FileTree) : Recording × FileTree :=
  ({ r with offset := r.offset + data.length }, t.writeAt r.place r.offset data)

/-- Empty the buffer into the file. -/
def flush (r : Recording) (t : FileTree) : Recording × FileTree :=
  { r with buffer := [] }.emit r.buffer t

/-- Write octets through the buffer: it is emptied first if they do not fit, and octets that would fill
it go past it. -/
def put (r : Recording) (data : Octets) (t : FileTree) : Recording × FileTree :=
  let (r, t) := if data.length > bufferSize - r.buffer.length then r.flush t else (r, t)
  if data.length ≥ bufferSize then r.emit data t
  else ({ r with buffer := r.buffer ++ data }, t)

/-- Write several pieces one after the other. -/
def putAll (r : Recording) (pieces : List Octets) (t : FileTree) : Recording × FileTree :=
  pieces.foldl (fun (r, t) data => r.put data t) (r, t)

/-- Begin a recording in a new file at a path. -/
def create (t : FileTree) (path : String) (c : Codec) (width height : UInt32) :
    Except Error (Recording × FileTree) :=
  match t.create path with
  | .error e => .error (.withContext ("Failed to create " ++ path) (.os e.message))
  | .ok (place, t) =>
    let r : Recording := { place, container := Container.ofCodec c }
    .ok (r.put (Container.lead c width height) t)

/-- Write the payload of one image; an empty one is refused. -/
def write (r : Recording) (rtp : UInt32) (payload : Octets) (t : FileTree) :
    Except Error (Recording × FileTree) :=
  if payload = [] then .error .emptyPayload
  else
    let (r, t) := r.putAll (r.container.pieces rtp payload) t
    .ok ({ r with frames := r.frames + 1, bytes := r.bytes + payload.length }, t)

/-- End a recording: what is in the buffer goes into the file, and so does the frame count. -/
def finish (r : Recording) (t : FileTree) : FileTree :=
  let (r, t) := r.flush t
  match r.container with
  | .annexB => t
  | .ivf => t.writeAt r.place Ivf.frameCountOffset (Octets.little 4 r.frames)

end Recording

end EncodedFeed
