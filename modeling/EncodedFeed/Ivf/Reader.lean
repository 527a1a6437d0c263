import EncodedFeed.Ivf.Header

/-!
# Reading IVF files

`Ivf.read` takes a whole file.  It reads records until fewer octets are left than a record header has,
or a record claims more than is left; empty records are no frames.
-/

namespace EncodedFeed.Ivf

/-- The octets begin like an IVF file. -/
def hasSignature (data : Octets) : Bool := signature.isPrefixOf data

/-- A file after reading. -/
structure File where
  header : Header
  /-- The records that hold data, in order. -/
  frames : List Record
  /-- Where a record begins that claims more octets than the file has left. -/
  cutAt : Option Nat
deriving DecidableEq, Repr

/-- The warning given about a file that ends within a record. -/
def File.warnings (f : File) : List String :=
  f.cutAt.toList.map fun pos => s!"IVF frame at offset {pos} truncated, stopping"

/-- The complete records of `data`, which stands at position `pos`, and where one is cut short. -/
def records (pos : Nat) (data : Octets) : List Record × Option Nat :=
  if Octets.hasLength recordHeaderLength data then
    let size := Octets.field data 0 4
    let body := data.drop recordHeaderLength
    if Octets.hasLength size body then
      let (rest, cut) := records (pos + recordHeaderLength + size) (body.drop size)
      (⟨UInt64.ofNat (Octets.field data 4 8), body.take size⟩ :: rest, cut)
    else ([], some pos)
  else ([], none)
termination_by data.length
decreasing_by
  simp only [Octets.hasLength_iff, List.length_drop, recordHeaderLength] at *
  omega

/-- The header of a file that has all of it. -/
def readHeader (data : Octets) : Except Fault Header :=
  let fourcc := (data.drop 8).take 4
  match Codec.ofFourcc? fourcc with
  | none => .error (.unsupported fourcc)
  | some codec =>
    .ok {
      codec
      width := UInt16.ofNat (Octets.field data 12 2)
      height := UInt16.ofNat (Octets.field data 14 2)
      rate := UInt32.ofNat (Octets.field data 16 4)
      scale := UInt32.ofNat (Octets.field data 20 4)
      frameCount := UInt32.ofNat (Octets.field data 24 4) }

/-- Position of the first record: the header's stated length, at least 32. -/
def firstRecord (data : Octets) : Nat := max (Octets.field data 6 2) headerLength

/-- Read a whole file. -/
def read (data : Octets) : Except Fault File :=
  if !hasSignature data then .error .missingSignature
  else if data.length < headerLength then .error (.headerTruncated data.length)
  else
    match readHeader data with
    | .error e => .error e
    | .ok header =>
      let start := firstRecord data
      let (all, cutAt) := records start (data.drop start)
      .ok ⟨header, all.filter fun r => r.data ≠ [], cutAt⟩

end EncodedFeed.Ivf
