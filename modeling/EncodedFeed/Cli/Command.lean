import EncodedFeed.Cli.Arguments

/-!
# Commands

What the program can be asked to do, and how that is said on the command line.
-/

namespace EncodedFeed.Cli

/-- How a file is to be replayed. -/
structure ReplayOptions where
  file : String
  /-- Frames in a second; zero for as fast as possible. -/
  fps : UInt32 := 30
  /-- Width of a byte stream, instead of the configured one. -/
  width : Option UInt32 := none
  height : Option UInt32 := none
  /-- File to record into. -/
  output : Option String := none
  json : Bool := false
deriving DecidableEq, Repr

/-- How simulcast is to be simulated. -/
structure SimulateOptions where
  /-- Codec instead of the configured one. -/
  codec : Option String := none
  layers : Nat := 3
  frames : UInt32 := 300
  gop : UInt32 := 60
  keyframeInterval : UInt32 := 45
  fps : UInt32 := 0
  json : Bool := false
deriving DecidableEq, Repr

/-- What is to be done with the configuration file. -/
inductive ConfigAction
  /-- Say where it is. -/
  | path
  /-- Show what is configured. -/
  | show
  /-- Look for mistakes in it, or in another file. -/
  | check (file : Option String)
  /-- Write the sample. -/
  | init (force : Bool)
  /-- Print the sample. -/
  | sample
deriving DecidableEq, Repr

/-- A command. -/
inductive Command
  | replay (o : ReplayOptions)
  | simulate (o : SimulateOptions)
  | config (a : ConfigAction)
  | info
deriving DecidableEq, Repr

namespace Command

/-- A number of 32 bits. -/
def number32? (text : String) : Option UInt32 := (number? 0 (UInt32.size - 1) text).map UInt32.ofNat

/-- Options of a replay. -/
def replaySpecs : List OptionSpec :=
  [{ long := "fps", short := some 'f' }, { long := "width" }, { long := "height" },
    { long := "output", short := some 'o' }, { long := "json", takesValue := false }]

/-- Options of a simulation. -/
def simulateSpecs : List OptionSpec :=
  [{ long := "codec", short := some 'c' }, { long := "layers", short := some 'l' },
    { long := "frames", short := some 'n' }, { long := "gop", short := some 'g' },
    { long := "keyframe-interval", short := some 'k' }, { long := "fps", short := some 'f' },
    { long := "json", takesValue := false }]

/-- Options of writing the sample configuration. -/
def initSpecs : List OptionSpec := [{ long := "force", short := some 'f', takesValue := false }]

/-- Arguments taken apart, no option being given twice. -/
def scanOnce (specs : List OptionSpec) (args : List String) : Option Scanned :=
  (scan specs args).filter Scanned.isUnambiguous

/-- The command to replay a file. -/
def parseReplay? (args : List String) : Option Command := do
  let x ← scanOnce replaySpecs args
  match x.operands with
  | [file] =>
    return replay {
      file := ← path? file
      fps := ← x.get "fps" number32? 30
      width := ← x.get? "width" number32?
      height := ← x.get? "height" number32?
      output := ← x.get? "output" path?
      json := x.has "json" }
  | _ => none

/-- The command to simulate simulcast. -/
def parseSimulate? (args : List String) : Option Command := do
  let x ← scanOnce simulateSpecs args
  match x.operands with
  | [] =>
    return simulate {
      codec := x.value? "codec"
      layers := ← x.get "layers" (number? 1 4) 3
      frames := ← x.get "frames" number32? 300
      gop := ← x.get "gop" number32? 60
      keyframeInterval := ← x.get "keyframe-interval" number32? 45
      fps := ← x.get "fps" number32? 0
      json := x.has "json" }
  | _ => none

/-- A command that takes neither options nor operands. -/
def parseBare? (c : Command) (args : List String) : Option Command :=
  match scanOnce [] args with
  | some { operands := [], .. } => some c
  | _ => none

/-- The command to check a configuration file. -/
def parseCheck? (args : List String) : Option Command := do
  let x ← scanOnce [] args
  match x.operands with
  | [] => return config (.check none)
  | [file] => return config (.check (some (← path? file)))
  | _ => none

/-- The command to write the sample configuration. -/
def parseInit? (args : List String) : Option Command := do
  let x ← scanOnce initSpecs args
  match x.operands with
  | [] => return config (.init (x.has "force"))
  | _ => none

/-- A command about the configuration file. -/
def parseConfig? : List String → Option Command
  | "path" :: rest => parseBare? (config .path) rest
  | "show" :: rest => parseBare? (config .show) rest
  | "sample" :: rest => parseBare? (config .sample) rest
  | "check" :: rest => parseCheck? rest
  | "init" :: rest => parseInit? rest
  | _ => none

/-- The argument asks for more to be logged, once or several times. -/
def isVerbosity (arg : String) : Bool :=
  arg == "--verbose" ||
    match arg.toList with
    | '-' :: c :: rest => c == 'v' && rest.all (· == 'v')
    | _ => false

/-- A command behind the name of the program. -/
def parse? (args : List String) : Option Command :=
  match args.dropWhile isVerbosity with
  | "replay" :: rest => parseReplay? rest
  | "simulate" :: rest => parseSimulate? rest
  | "sim" :: rest => parseSimulate? rest
  | "config" :: rest => parseConfig? rest
  | "info" :: rest => parseBare? info rest
  | _ => none

/-- Files and directories a command names, besides the configuration file. -/
def paths : Command → List String
  | replay o => o.file :: o.output.toList
  | config (.check file) => file.toList
  | _ => []

/-- How the program is called. -/
def usage : List String :=
  ["Usage: passthru [-v]... <COMMAND>", "",
    "  replay FILE [-f FPS] [--width N] [--height N] [-o OUTPUT] [--json]",
    "  simulate [-c CODEC] [-l 1..4] [-n FRAMES] [-g GOP] [-k INTERVAL] [-f FPS] [--json]",
    "  config path|show|check [FILE]|init [-f]|sample", "  info"]

/-- Exit status after arguments that cannot be read. -/
def usageStatus : UInt32 := 2

end Command

end EncodedFeed.Cli
