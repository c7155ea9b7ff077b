import Golden.CommandLine.Reach

/-!
# Golden.Main — the program

The program shows a run what stands along the paths it looks at, lets it end, and then makes the
changes it came to: new directories first, then files.
-/

namespace Golden.Program

open CommandLine

/-- The text of a place. -/
def placeText (place : Place) : String := "/" ++ "/".intercalate place

/-- What stands at a place. -/
def look (place : Place) : IO (Option Entry) := do
  let path := (← IO.currentDir) / placeText place
  if ← path.isDir then return some .directory
  else
    try return some (.file (.raw (← IO.FS.readBinFile path).toList))
    catch _ => return none

/-- Add what stands along some paths to the visible files. -/
def lookAlong (fs : Files) (paths : List Path) : IO Files := do
  let mut fs := fs
  for place in paths.flatMap fs.placesAlong do
    if (fs.find? place).isNone then
      if let some entry ← look place then
        fs := fs.put place entry
  return fs

/-- No files but the working directory. -/
def workingDirectory : IO Files := do
  let names := (Path.mk (← IO.currentDir).toString).names
  let fs : Files := ⟨[], names⟩
  return fs.put names .directory

/-- Make the changes that a run came to. -/
def makeChanges (before after : Files) : IO Unit := do
  for (place, entry) in after.entries.reverse do
    if before.find? place ≠ some entry then
      match entry with
      | .directory => IO.FS.createDirAll (placeText place)
      | .file content => IO.FS.writeBinFile (placeText place) ⟨content.bytes.toArray⟩

/-- All of standard input. -/
partial def readInput (stream : IO.FS.Stream) (sofar : ByteArray) : IO ByteArray := do
  let more ← stream.read 65536
  if more.isEmpty then return sofar else readInput stream (sofar ++ more)

/-- What a run finds. -/
def surroundings (words : List String) : IO Surroundings := do
  let configVariable ← IO.getEnv "OUTCHECK_CONFIG"
  let underActions := (← IO.getEnv "GITHUB_ACTIONS").isSome
  let bare : Surroundings := ⟨← workingDirectory, .ok [], configVariable, underActions⟩
  match Invocation.ofWords words configVariable with
  | .error _ => return bare
  | .ok i =>
    let s := { bare with files := ← lookAlong bare.files i.configPaths }
    let c := (i.configuration s).toOption.getD .default
    let input ←
      if i.readsInput then
        try pure (Except.ok (← readInput (← IO.getStdin) .empty).toList)
        catch e => pure (Except.error (Cause.other (toString e)))
      else pure (Except.ok [])
    return { s with files := ← lookAlong s.files (i.paths c), input }

end Golden.Program

open Golden Program in
def main (words : List String) : IO UInt32 := do
  let found ← surroundings words
  let ending := CommandLine.run words found
  makeChanges found.files ending.files
  (← IO.getStdout).putStr ending.output
  (← IO.getStderr).putStr ending.messages
  return ending.exit
