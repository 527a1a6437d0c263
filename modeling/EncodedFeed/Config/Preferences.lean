import EncodedFeed.Config.Settings
import EncodedFeed.Error
import EncodedFeed.Toml.Document
import EncodedFeed.Toml.Writer

/-!
# Preferences

What a user may put into the configuration file: four sections of a TOML document, in which everything
may be left out.  `Preferences.read` and `Preferences.write` go from text to preferences and back;
`sourceConfig` and `encoderConfig` say what preferences mean.
-/

namespace EncodedFeed

/-- Contents of the configuration file. -/
structure Preferences where
  codec : String := "h264"
  width : UInt32 := 1280
  height : UInt32 := 720
  placeholderWidth : UInt32 := 2
  placeholderHeight : UInt32 := 2
  warnDepth : UInt64 := 60
  implementationName : String := "PassthroughEncoder"
  packetizationMode : String := "non-interleaved"
deriving DecidableEq, Repr

namespace Preferences

open Toml (Value Entries Fault)

/-! ### Reading -/

/-- The values of a section, found by name or by position. -/
abbrev Section := String → Nat → Option Value

/-- The values of the section with a name.  A section written as an array gives its values in order,
and one written as a date has none. -/
def section? (name : String) (es : Entries) : Except Fault Section :=
  match es.lookup name with
  | none | some (.datetime _) => .ok fun _ _ => none
  | some (.table _ fields) => .ok fun field _ => fields.lookup field
  | some (.array items) => .ok fun _ i => items[i]?
  | some (.tables items) => .ok fun _ i => items[i]?.map (.table .header)
  | some _ => .error (.wrongType name "a table")

/-- The text of a field. -/
def text (s : Section) (field : String) (i : Nat) (default : String) : Except Fault String :=
  match s field i with
  | none => .ok default
  | some (.string t) => .ok t
  | some _ => .error (.wrongType field "a string")

/-- The number of a field, from zero up to below `limit`. -/
def number (s : Section) (field : String) (i : Nat) (limit default : Nat) : Except Fault Nat :=
  match s field i with
  | none => .ok default
  | some (.integer n) =>
    if 0 ≤ n ∧ n < limit then .ok n.toNat else .error (.wrongType field s!"a number below {limit}")
  | some _ => .error (.wrongType field "a number")

/-- The number of a field that has 32 bits. -/
def number32 (s : Section) (field : String) (i : Nat) (default : UInt32) : Except Fault UInt32 :=
  (number s field i UInt32.size default.toNat).map UInt32.ofNat

/-- The number of a field that has 64 bits. -/
def number64 (s : Section) (field : String) (i : Nat) (default : UInt64) : Except Fault UInt64 :=
  (number s field i UInt64.size default.toNat).map UInt64.ofNat

/-- Preferences out of a document.  Unknown keys are passed over, and what is absent has its default. -/
def ofEntries (es : Entries) : Except Fault Preferences := do
  let d : Preferences := {}
  let source ← section? "source" es
  let codec ← text source "codec" 0 d.codec
  let width ← number32 source "width" 1 d.width
  let height ← number32 source "height" 2 d.height
  let pump ← section? "pump" es
  let placeholderWidth ← number32 pump "placeholder_width" 0 d.placeholderWidth
  let placeholderHeight ← number32 pump "placeholder_height" 1 d.placeholderHeight
  let queue ← section? "queue" es
  let warnDepth ← number64 queue "warn_depth" 0 d.warnDepth
  let encoder ← section? "encoder" es
  let implementationName ← text encoder "implementation_name" 0 d.implementationName
  let packetizationMode ← text encoder "packetization_mode" 1 d.packetizationMode
  return {
    codec, width, height, placeholderWidth, placeholderHeight, warnDepth
    implementationName, packetizationMode }

/-- Preferences out of the text of a configuration file. -/
def read (text : String) : Except Error Preferences :=
  match Toml.readDocument text >>= ofEntries with
  | .ok p => .ok p
  | .error e => .error (.config ("Failed to parse config file: " ++ e.message))

/-! ### Writing -/

/-- The sections of the file. -/
def sections (p : Preferences) : List Toml.Section :=
  [("source",
      [("codec", .string p.codec), ("width", .integer p.width.toNat),
        ("height", .integer p.height.toNat)]),
    ("pump",
      [("placeholder_width", .integer p.placeholderWidth.toNat),
        ("placeholder_height", .integer p.placeholderHeight.toNat)]),
    ("queue", [("warn_depth", .integer p.warnDepth.toNat)]),
    ("encoder",
      [("implementation_name", .string p.implementationName),
        ("packetization_mode", .string p.packetizationMode)])]

/-- The text of the file.  A warning depth that is no 64-bit number with a sign cannot be written. -/
def write (p : Preferences) : Except Error String :=
  match Toml.writeDocument p.sections with
  | .ok text => .ok text
  | .error e => .error (.config ("Failed to serialize config: " ++ e.message))

/-! ### Meaning -/

/-- Settings of a source. -/
def sourceConfig (p : Preferences) : Except Error SourceConfig :=
  match Codec.parse? p.codec with
  | none => .error (.config ("Unknown codec: " ++ p.codec))
  | some codec =>
    .ok {
      codec
      resolution := ⟨p.width, p.height⟩
      placeholder := ⟨p.placeholderWidth, p.placeholderHeight⟩
      warnDepth := p.warnDepth }

/-- Settings of an encoder. -/
def encoderConfig (p : Preferences) : Except Error EncoderConfig :=
  match PacketizationMode.parse? p.packetizationMode with
  | none => .error (.config ("Unknown packetization mode: " ++ p.packetizationMode))
  | some mode => .ok { name := p.implementationName, mode }

end Preferences

/-- A configuration file with every field at its default, and comments. -/
def sampleLines : List String :=
  [ "# passthru configuration",
    "",
    "[source]",
    "# Codec of the injected bitstream: vp8, vp9, av1, h264, h265",
    "codec = \"h264\"",
    "",
    "# Declared stream resolution (reported on every encoded image)",
    "width = 1280",
    "height = 720",
    "",
    "[pump]",
    "# Placeholder raw frame pushed once per encoded frame. It is never encoded,",
    "# so keep it tiny.",
    "placeholder_width = 2",
    "placeholder_height = 2",
    "",
    "[queue]",
    "# Warn when a source queue grows past this many frames. The queue is never",
    "# capped; a growing queue means the pipeline stopped pulling. 0 disables.",
    "warn_depth = 60",
    "",
    "[encoder]",
    "# Implementation name reported to the pipeline",
    "implementation_name = \"PassthroughEncoder\"",
    "",
    "# H.264 packetization mode: \"non-interleaved\" or \"single-nal-unit\"",
    "packetization_mode = \"non-interleaved\""]

/-- The text of that file. -/
def sampleConfig : String := String.join (sampleLines.map (· ++ "\n"))

end EncodedFeed
