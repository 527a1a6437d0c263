import EncodedFeed.Octets

/-!
# NAL units of an Annex B stream

An H.264 byte stream is a sequence of NAL units, each behind a start code of three or four octets.
`NalUnit.split` finds them: it drops what comes before the first start code and every start code that
is followed at once by another one or by the end.  `NalUnit.join` writes units back to back.
-/

namespace EncodedFeed

/-- The two spellings of a start code. -/
inductive StartCode
  /-- `00 00 01` -/
  | short
  /-- `00 00 00 01` -/
  | long
deriving DecidableEq, Repr

namespace StartCode

/-- Octets of a start code. -/
def octets : StartCode → Octets
  | short => [0, 0, 1]
  | long => [0, 0, 0, 1]

/-- Number of octets. -/
def length : StartCode → Nat
  | short => 3
  | long => 4

theorem length_pos (code : StartCode) : 0 < code.length := by cases code <;> decide

theorem length_octets (code : StartCode) : code.octets.length = code.length := by cases code <;> rfl

/-- The start code at the very beginning of a string. -/
def at? (data : Octets) : Option StartCode :=
  if short.octets.isPrefixOf data then some short
  else if long.octets.isPrefixOf data then some long
  else none

/-- Position of the first start code, counted from `n`. -/
def findFrom (n : Nat) : Octets → Option (Nat × StartCode)
  | [] => none
  | b :: rest =>
    match at? (b :: rest) with
    | some code => some (n, code)
    | none => findFrom (n + 1) rest

/-- The first start code in a string and its position. -/
def find? (data : Octets) : Option (Nat × StartCode) := findFrom 0 data

theorem findFrom_eq (n : Nat) (data : Octets) :
    findFrom n data = (find? data).map fun p => (n + p.1, p.2) := by
  induction data generalizing n with
  | nil => rfl
  | cons b rest ih =>
    simp only [find?, findFrom]
    cases at? (b :: rest) with
    | some code => simp
    | none =>
      rw [ih (n + 1), ih (0 + 1)]
      cases find? rest with
      | none => rfl
      | some p => simp [Nat.add_comm, Nat.add_left_comm]

theorem lt_length_of_find? {data : Octets} {k : Nat} {code : StartCode}
    (h : find? data = some (k, code)) : k < data.length := by
  induction data generalizing k with
  | nil => simp [find?, findFrom] at h
  | cons b rest ih =>
    simp only [find?, findFrom] at h
    split at h
    · simp only [Option.some.injEq, Prod.mk.injEq] at h
      simp [← h.1]
    · rw [findFrom_eq] at h
      obtain ⟨p, hp, hk⟩ := Option.map_eq_some_iff.1 h
      simp only [Prod.mk.injEq] at hk
      have := ih (k := p.1) (by rw [hp, ← hk.2])
      simp only [List.length_cons]
      omega

end StartCode

/-- One NAL unit with the start code it was found behind. -/
structure NalUnit where
  startCode : StartCode
  payload : Octets
deriving DecidableEq, Repr

namespace NalUnit

/-- Start code and payload together. -/
def octets (u : NalUnit) : Octets := u.startCode.octets ++ u.payload

/-- Type of the unit: the low five bits of its first octet. -/
def type (u : NalUnit) : UInt8 :=
  match u.payload with
  | b :: _ => b &&& 0x1f
  | [] => 0

/-- Slice of a picture other than an IDR picture. -/
def sliceType : UInt8 := 1
/-- Slice of an IDR picture. -/
def idrType : UInt8 := 5
/-- Supplemental enhancement information. -/
def seiType : UInt8 := 6
/-- Sequence parameter set. -/
def spsType : UInt8 := 7
/-- Picture parameter set. -/
def ppsType : UInt8 := 8
/-- Access unit delimiter. -/
def delimiterType : UInt8 := 9

/-- The unit is a coded slice. -/
def isSlice (u : NalUnit) : Bool := u.type == sliceType || u.type == idrType

/-- The slice is the first of its picture: its `first_mb_in_slice` is zero. -/
def startsPicture (u : NalUnit) : Bool :=
  match u.payload with
  | _ :: b :: _ => b &&& 0x80 != 0
  | _ => false

/-- A unit behind `code`, unless there is nothing behind it. -/
def ofPayload? (code : StartCode) (payload : Octets) : List NalUnit :=
  if payload = [] then [] else [⟨code, payload⟩]

/-- The units of `body`, which stands behind the start code `code`. -/
def splitBody (code : StartCode) (body : Octets) : List NalUnit :=
  match _h : StartCode.find? body with
  | none => ofPayload? code body
  | some (k, next) =>
    ofPayload? code (body.take k) ++ splitBody next (body.drop (k + next.length))
termination_by body.length
decreasing_by
  have := StartCode.lt_length_of_find? _h
  have := next.length_pos
  simp only [List.length_drop]
  omega

/-- The NAL units of an Annex B stream. -/
def split (data : Octets) : List NalUnit :=
  match StartCode.find? data with
  | none => []
  | some (k, code) => splitBody code (data.drop (k + code.length))

/-- Units written back to back. -/
def join (units : List NalUnit) : Octets := units.flatMap octets

end NalUnit

end EncodedFeed
