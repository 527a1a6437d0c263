import EncodedFeed.Cli.Command
import EncodedFeed.Cli.Reports
import EncodedFeed.Config.File

/-!
# Carrying out commands

`Command.perform` is a whole run of the program: it takes the files it finds and the path of the
configuration file, and gives what is printed, the files afterwards, and how the run ends.
-/

namespace EncodedFeed.Cli

/-- What a command finds. -/
structure Surroundings where
  files : FileTree
  /-- Path of the configuration file. -/
  configPath : String
  /-- The time, in microseconds. -/
  now : Int64

/-- What sources and encoders are configured to be. -/
def configured (p : Preferences) : Except Error (SourceConfig × EncoderConfig) :=
  match p.sourceConfig with
  | .error e => .error e
  | .ok source =>
    match p.encoderConfig with
    | .error e => .error e
    | .ok encoder => .ok (source, encoder)

/-- Warnings of a session, as texts. -/
def warningTexts (s : Session) : List String := s.warnings.map Warning.message

/-! ### Replaying -/

/-- The resolution a byte stream is said to have. -/
def declaredResolution (o : ReplayOptions) (source : SourceConfig) : Resolution :=
  ⟨o.width.getD source.resolution.width, o.height.getD source.resolution.height⟩

/-- Every frame pushed must have come out. -/
def replayEnding (r : Replay.Result) : Ending :=
  if r.stats.framesEmitted = r.pushed then .done
  else .failed [s!"Pushed {r.pushed} frame(s) but only {r.stats.framesEmitted} were emitted"]

/-- Replay what a file holds. -/
def replayInput (o : ReplayOptions) (source : SourceConfig) (encoder : EncoderConfig)
    (i : Replay.Input) (e : Surroundings) : Outcome :=
  match Replay.run ⟨source, encoder, o.fps, i, o.output⟩ e.files e.now with
  | (.error a, s) =>
    { files := s.files, warnings := warningTexts s, ending := .ofAbort a }
  | (.ok r, s) =>
    { files := s.files
      printed := if o.json then replayJson o.file i r else replayText o.file i r
      paced := pacedTime o.fps i.frames.length
      warnings := warningTexts s
      ending := replayEnding r }

/-- Read a file and replay it. -/
def replayFile (o : ReplayOptions) (source : SourceConfig) (encoder : EncoderConfig)
    (e : Surroundings) : Outcome :=
  match e.files.read o.file with
  | .error err => { files := e.files, ending := .failed ["Failed to read " ++ o.file, err.message] }
  | .ok data =>
    match Replay.Input.read data (declaredResolution o source) with
    | .error text => { files := e.files, ending := .failed [text] }
    | .ok i =>
      let out := replayInput o source encoder i e
      { out with warnings := i.warnings ++ out.warnings }

/-- Do something with what is configured; a configuration file that cannot be read is ignored. -/
def withConfigured (e : Surroundings) (f : SourceConfig → EncoderConfig → Outcome) : Outcome :=
  let (p, warnings) := Preferences.loadOrDefault e.files e.configPath
  match configured p with
  | .error err => { files := e.files, warnings, ending := .ofError [] err }
  | .ok (source, encoder) =>
    let out := f source encoder
    { out with warnings := warnings ++ out.warnings }

/-! ### Simulating -/

/-- What is said of a codec nobody knows. -/
def invalidCodec (name : String) : String :=
  "Invalid codec '" ++ name ++ "'. Valid options: vp8, vp9, av1, h264, h265"

/-- The codec of a simulation: the one asked for, or else the configured one. -/
def simulatedCodec (o : SimulateOptions) (source : SourceConfig) : Except String Codec :=
  match o.codec with
  | none => .ok source.codec
  | some name =>
    match Codec.parse? name with
    | some c => .ok c
    | none => .error (invalidCodec name)

/-- No layer may be wrong. -/
def simulationEnding (rs : List Simulation.LayerReport) : Ending :=
  match rs.find? fun r => !r.ok with
  | none => .done
  | some r => .failed [s!"Layer {r.index} failed verification"]

/-- Simulate simulcast. -/
def simulate (o : SimulateOptions) (source : SourceConfig) (encoder : EncoderConfig)
    (e : Surroundings) : Outcome :=
  match simulatedCodec o source with
  | .error text => { files := e.files, ending := .failed [text] }
  | .ok codec =>
    match Simulation.run {
        source := { source with codec }, encoder, layers := o.layers, frames := o.frames
        gop := o.gop, requestInterval := o.keyframeInterval, fps := o.fps } e.now with
    | (.error a, s) =>
      { files := e.files, warnings := warningTexts s, ending := .ofAbort a }
    | (.ok rs, s) =>
      { files := e.files
        printed := if o.json then simulationJson codec rs else simulationText codec rs
        paced := pacedTime o.fps o.frames.toNat
        warnings := warningTexts s
        ending := simulationEnding rs }

/-! ### The configuration file -/

/-- Say where the configuration file is. -/
def configPath (e : Surroundings) : Outcome :=
  let state := if e.files.contains e.configPath then "present" else "missing, defaults apply"
  { files := e.files, printed := fun _ => lines [e.configPath ++ " (" ++ state ++ ")"] }

/-- Show what is configured. -/
def configShow (e : Surroundings) : Outcome :=
  let origin := if e.files.contains e.configPath then e.configPath else "built-in defaults"
  match Preferences.load e.files e.configPath with
  | .error err => { files := e.files, ending := .ofError ["Failed to load config file"] err }
  | .ok p =>
    match p.sourceConfig, p.encoderConfig with
    | .error err, _ => { files := e.files, ending := .ofError ["Invalid [source] section"] err }
    | _, .error err => { files := e.files, ending := .ofError ["Invalid [encoder] section"] err }
    | .ok source, .ok encoder =>
      { files := e.files, printed := fun _ => configText origin source encoder }

/-- Look for mistakes in a configuration file. -/
def configCheck (path : String) (e : Surroundings) : Outcome :=
  if e.files.contains path then
    match Preferences.load e.files path with
    | .error err =>
      { files := e.files, ending := .ofError [path ++ " is not a valid config file"] err }
    | .ok p =>
      match configured p with
      | .error err => { files := e.files, ending := .ofError [] err }
      | .ok (source, _) =>
        { files := e.files, printed := fun _ => checkText path source.warnings }
  else { files := e.files, ending := .failed [path ++ " does not exist"] }

/-- Write the sample to where the configuration file is. -/
def configInit (force : Bool) (e : Surroundings) : Outcome :=
  let path := e.configPath
  let directory := FileTree.parent path
  if e.files.contains path && !force then
    { files := e.files
      ending := .failed [path ++ " already exists; pass --force to replace it"] }
  else
    match e.files.makeDirectories directory with
    | .error err =>
      { files := e.files, ending := .failed ["Failed to create " ++ directory, err.message] }
    | .ok files =>
      match files.write path (Octets.ofText sampleConfig) with
      | .error err => { files, ending := .failed ["Failed to write " ++ path, err.message] }
      | .ok files => { files, printed := fun _ => lines ["Wrote " ++ path] }

/-- Do something with the configuration file. -/
def ConfigAction.perform (e : Surroundings) : ConfigAction → Outcome
  | path => configPath e
  | «show» => configShow e
  | check file => configCheck (file.getD e.configPath) e
  | init force => configInit force e
  | sample => { files := e.files, printed := fun _ => sampleConfig }

/-! ### Information -/

/-- Say what the program supports. -/
def info (e : Surroundings) : Outcome :=
  let (p, warnings) := Preferences.loadOrDefault e.files e.configPath
  match p.encoderConfig with
  | .error err =>
    { files := e.files, printed := fun _ => infoHeading, warnings, ending := .ofError [] err }
  | .ok encoder =>
    let found := e.files.contains e.configPath
    { files := e.files
      printed := fun _ => infoHeading ++ infoText e.configPath found encoder
      warnings }

/-- Carry out a command. -/
def Command.perform (e : Surroundings) : Command → Outcome
  | replay o => withConfigured e fun source encoder => replayFile o source encoder e
  | simulate o => withConfigured e fun source encoder => Cli.simulate o source encoder e
  | config a => a.perform e
  | info => Cli.info e

end EncodedFeed.Cli
