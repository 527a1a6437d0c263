import EncodedFeed.AnnexB.AccessUnit

/-!
# Assembling frames from access units

A keyframe can be decoded on its own only with its parameter sets.  The assembler remembers the latest
SPS and PPS, prepends to each keyframe those it lacks, and drops every access unit before the first
keyframe that is complete in this sense.
-/

namespace EncodedFeed

/-- One frame ready to be pushed. -/
structure AssembledFrame where
  data : Octets
  isKey : Bool
  hasParameterSets : Bool
deriving DecidableEq, Repr

/-- What an assembler remembers between access units. -/
structure Assembler where
  /-- The latest sequence parameter set, start code included. -/
  sps : Option Octets := none
  /-- The latest picture parameter set, start code included. -/
  pps : Option Octets := none
  seenKey : Bool := false
  /-- Access units with slices dropped so far. -/
  dropped : Nat := 0
deriving DecidableEq, Repr

namespace Assembler

/-- The last unit of a type within an access unit, start code included. -/
def lastOfType (type : UInt8) (unit : AccessUnit) : Option Octets :=
  (unit.reverse.find? fun u => u.type == type).map NalUnit.octets

/-- The assembler after looking at the parameter sets of an access unit. -/
def remember (a : Assembler) (unit : AccessUnit) : Assembler :=
  { a with
    sps := lastOfType NalUnit.spsType unit <|> a.sps
    pps := lastOfType NalUnit.ppsType unit <|> a.pps }

/-- A remembered parameter set a keyframe lacks. -/
def missing (type : UInt8) (known : Option Octets) (unit : AccessUnit) : Octets :=
  if unit.any (fun u => u.type == type) then [] else known.getD []

/-- A parameter set of the type is in the unit, or will be put in front of a keyframe. -/
def supplied (isKey : Bool) (type : UInt8) (known : Option Octets) (unit : AccessUnit) : Bool :=
  unit.any (fun u => u.type == type) || (isKey && known.isSome)

/-- Assemble one access unit; nothing comes of units without slices and before the first keyframe. -/
def push (a : Assembler) (unit : AccessUnit) : Option AssembledFrame × Assembler :=
  let a := a.remember unit
  if unit.hasSlice then
    let isKey := unit.any fun u => u.type == NalUnit.idrType
    let complete :=
      supplied isKey NalUnit.spsType a.sps unit && supplied isKey NalUnit.ppsType a.pps unit
    if a.seenKey || (isKey && complete) then
      let lead :=
        if isKey then missing NalUnit.spsType a.sps unit ++ missing NalUnit.ppsType a.pps unit
        else []
      (some ⟨lead ++ NalUnit.join unit, isKey, complete⟩, { a with seenKey := true })
    else (none, { a with dropped := a.dropped + 1 })
  else (none, a)

/-- Assemble access units one after the other. -/
def pushAll (a : Assembler) : List AccessUnit → List AssembledFrame × Assembler
  | [] => ([], a)
  | unit :: rest =>
    let (frame, a) := a.push unit
    let (frames, a) := a.pushAll rest
    (frame.toList ++ frames, a)

/-- The frames of a whole Annex B stream, and how many access units were dropped. -/
def assemble (data : Octets) : List AssembledFrame × Nat :=
  let (frames, a) := ({} : Assembler).pushAll (AccessUnit.group (NalUnit.split data))
  (frames, a.dropped)

end Assembler

end EncodedFeed
