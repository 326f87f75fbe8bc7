import SqfMinifier.CommandLine.Run

/-!
The command. It takes a picture of the places on disk that a run can touch, lets the run happen
in that world, and carries out what changed. Links are not followed upwards, and what cannot be
read counts as missing.
-/

namespace SqfMinifier.Main

def placesOn (here : Location) : List Text → List Location
  | [] => [here]
  | segment :: rest =>
    here ::
      if Path.saysNothing segment then placesOn here rest
      else if segment = ['.', '.'] then placesOn here.dropLast rest
      else placesOn (here ++ [segment]) rest

def placesOf (w : World) (p : Path) : List Location := placesOn (w.start p) (Text.split '/' p)

def onDisk (place : Location) : String := "/" ++ String.ofList (Path.joinSegments place)

def look (place : Location) : IO (Option Node) := do
  try
    let content ← IO.FS.readBinFile (onDisk place)
    return some (.file content)
  catch
    | .inappropriateType .. => return some .directory
    | _ => return none

def picture (w : World) (paths : List Path) : IO World := do
  let mut tree := w.tree
  for place in paths.flatMap (placesOf w) do
    if tree.get? place.dropLast = some .directory then
      if let some node ← look place then
        tree := tree.set place node
  return { w with tree }

def settingsFiles (w : World) (layers : List Layer) : List Path :=
  (layers.filterMap Layer.file?).flatMap fun (path, _) =>
    let exact := Settings.absolute w path
    exact :: (Path.addExtension exact "toml".toList).toList

def workFiles (w : World) (i : Invocation) : List Path :=
  i.paths ++ i.code.toList ++
    match CommandLine.task? i, Settings.resolve w (CommandLine.layers i), CommandLine.format i with
    | some (input, target), .ok settings, .ok format =>
      (CommandLine.outputPath? settings format input target).toList
    | _, _, _ => []

def survey (w : World) (arguments : List Text) : IO World := do
  match Arguments.parse arguments with
  | .error _ => return w
  | .ok i =>
    let w ← picture w (settingsFiles w (CommandLine.layers i))
    picture w (workFiles w i)

def carryOut (before after : World) : IO Unit := do
  for (place, content) in before.tree.changes after.tree do
    if let some content := content then
      IO.FS.writeBinFile (onDisk place) content

def writeText (stream : IO.FS.Stream) (t : Text) : IO Unit := do
  stream.putStr (String.ofList t)
  stream.flush

end SqfMinifier.Main

open SqfMinifier in
def main (arguments : List String) : IO UInt32 := do
  let verbosity := ((← IO.getEnv "RUST_LOG").map Verbosity.ofName).getD .silent
  let arguments := arguments.map String.toList
  let here ← IO.currentDir
  let world ← Main.survey (.empty (Path.places (toString here).toList)) arguments
  let outcome := CommandLine.run world verbosity arguments
  Main.carryOut world outcome.world
  Main.writeText (← IO.getStdout) outcome.stdout
  Main.writeText (← IO.getStderr) outcome.stderr
  return UInt32.ofNat outcome.exitCode
