import EncodedFeed.Cli.Perform

/-!
# The program

Reads the files a command names off the disk, carries the command out, and puts back what has changed.
-/

namespace EncodedFeed.Program

/-- What stands at a path on the disk. -/
def look (path : String) : IO (Option Entry) := do
  try
    let data ← IO.FS.readBinFile path
    return some (.file data.toList)
  catch
    | .noFileOrDirectory .. => return none
    | .inappropriateType none .. => return some .directory
    | .inappropriateType .. => return none
    | e => throw e

/-- Add what stands at a path, and above it, to a tree. -/
def addPath (tree : FileTree) (path : String) : IO FileTree :=
  (FileTree.ancestors path).foldlM (fun tree part => do
    match ← look part, tree.place part with
    | some entry, .ok place => return tree.put place entry
    | _, _ => return tree) tree

/-- Put an entry onto the disk. -/
def store (place : Place) : Entry → IO Unit
  | .directory => IO.FS.createDirAll (FileTree.pathTo place)
  | .file data => IO.FS.writeBinFile (FileTree.pathTo place) ⟨data.toArray⟩

/-- The configuration file of the user. -/
def configPath : IO String := do
  return Preferences.userPath (← IO.getEnv "XDG_CONFIG_HOME") (← IO.getEnv "HOME")

/-- Carry out a command on the disk. -/
def execute (c : Cli.Command) : IO UInt32 := do
  let start ← IO.monoNanosNow
  let configPath ← configPath
  let files ← (configPath :: c.paths).foldlM addPath {}
  let out := c.perform { files, configPath, now := Int64.ofNat (start / 1000) }
  for change in FileTree.changesSince files out.files do
    store change.1 change.2
  for w in out.warnings do
    IO.eprintln ("WARN " ++ w)
  IO.sleep (UInt32.ofNat (out.paced / 1000))
  let stop ← IO.monoNanosNow
  IO.print (out.printed (.micros ((stop - start) / 1000)))
  for line in out.ending.report do
    IO.eprintln line
  return out.ending.status

end EncodedFeed.Program

/-- Carry out the command that the arguments say. -/
def main (args : List String) : IO UInt32 := do
  match EncodedFeed.Cli.Command.parse? args with
  | some c => EncodedFeed.Program.execute c
  | none =>
    for line in EncodedFeed.Cli.Command.usage do
      IO.eprintln line
    return EncodedFeed.Cli.Command.usageStatus
