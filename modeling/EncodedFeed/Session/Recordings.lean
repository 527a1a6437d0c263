import EncodedFeed.Session.Outputs

/-!
# Recordings of a session

Recording images by hand, and recording all that a receiver of a channel gets.
-/

namespace EncodedFeed.Session

/-- Begin a recording. -/
def addRecording (s : Session) (path : String) (c : Codec) (width height : UInt32) :
    Except Error (Ref .recording) × Session :=
  match Recording.create s.files path c width height with
  | .error e => (.error e, s)
  | .ok (r, files) =>
    (.ok ⟨s.recordings.next⟩, { s with files, recordings := s.recordings.add r })

/-- Write the payload of one image. -/
def record (s : Session) (r : Ref .recording) (rtp : UInt32) (payload : Octets) :
    Except Error Unit × Session :=
  match s.recording? r with
  | none => (.ok (), s)
  | some x =>
    match x.write rtp payload s.files with
    | .error e => (.error e, s)
    | .ok (x, files) =>
      (.ok (), { s with files, recordings := s.recordings.modify r.number fun _ => x })

/-- Let go of a recording; what it has buffered still goes into its file. -/
def dropRecording (s : Session) (r : Ref .recording) : Session :=
  match s.recording? r with
  | none => s
  | some x => { s with files := (x.flush s.files).2, recordings := s.recordings.erase r.number }

/-- End a recording. -/
def finishRecording (s : Session) (r : Ref .recording) : Session :=
  match s.recording? r with
  | none => s
  | some x => { s with files := x.finish s.files, recordings := s.recordings.erase r.number }

/-- Payloads a recording has written. -/
def recordedFrames (s : Session) (r : Ref .recording) : Nat :=
  ((s.recording? r).map Recording.frames).getD 0

/-- What has become of recording a channel. -/
inductive ChannelRecording
  /-- The channel was closed; so many payloads are in the file. -/
  | finished (frames : Nat)
  | stopped (e : Error)
  /-- More may come. -/
  | waiting

/-- One turn of recording a channel: a receiver gets what is next for it.  An image is written, missed images are
warned of, and when nothing will come any more the recording ends; it stops at an image that cannot be written.
Recording and receiver are used up by then. -/
def recordNext (s : Session) (r : Ref .recording) (o : Ref .output) (receiver : Nat) :
    ChannelRecording × Session :=
  match s.receive o receiver with
  | (.image i, s) =>
    match s.record r i.image.rtp.value i.image.data with
    | (.ok (), s) => (.waiting, s)
    | (.error e, s) =>
      (.stopped (.withContext s!"recording stopped after {s.recordedFrames r} frame(s)" e),
        (s.dropRecording r).unsubscribe o receiver)
  | (.lagged missed, s) => (.waiting, s.warn (.lagged missed))
  | (.nothing, s) =>
    if s.isHeld o then (.waiting, s)
    else (.finished (s.recordedFrames r), (s.finishRecording r).unsubscribe o receiver)

/-- At most so many turns of recording a channel. -/
def recordTurns (s : Session) (r : Ref .recording) (o : Ref .output) (receiver : Nat) :
    Nat → ChannelRecording × Session
  | 0 => (.waiting, s)
  | n + 1 =>
    match s.recordNext r o receiver with
    | (.waiting, s) => s.recordTurns r o receiver n
    | ended => ended

/-- Record what a receiver gets without waiting: a notice of missed images, each image, and whether that was all.
Recording and receiver are used up. -/
def recordChannel (s : Session) (r : Ref .recording) (o : Ref .output) (receiver : Nat) :
    ChannelRecording × Session :=
  match s.recordTurns r o receiver ((((s.channel? o).map fun c => c.waiting receiver).getD []).length + 2) with
  | (.waiting, s) => (.waiting, (s.dropRecording r).unsubscribe o receiver)
  | ended => ended

end EncodedFeed.Session
