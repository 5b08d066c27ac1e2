import PointRelaxation.Command.Run

/-!
# The command line program

The outer layer: it reads the arguments, looks for the scene file, and performs what a run came to.
-/

namespace PointRelaxation.Command

/-- A number that differs from run to run. -/
def entropy : IO Nat := do
  let bytes ← IO.getRandomBytes 16
  return bytes.toList.foldl (fun n b => 256 * n + b.toNat) 0

/-- The scenes of the file at a path. The files of this program's users hold none that it could
build. -/
def inspect (path : String) : IO (Option Factories) := do
  try
    discard (IO.FS.readBinFile path)
    return some []
  catch _ => return none

/-- Prints, logs and writes what a run came to. -/
def perform (outcome : Outcome) : IO UInt32 := do
  IO.eprint outcome.aside
  IO.print outcome.output
  if let some (path, content) := outcome.written then
    IO.FS.createDirAll path.parent.text
    IO.FS.writeFile path.text content
  return UInt32.ofNat outcome.exit

end PointRelaxation.Command

open PointRelaxation Command in
def main (arguments : List String) : IO UInt32 := do
  let path := match Settings.ofArguments arguments with
    | .ok s => (scenePath? s).getD ""
    | .error _ => ""
  let found ← inspect path
  let surroundings : Surroundings :=
    { builtIn := foldingTable, sceneFile := fun _ => .ok found, entropy := ← entropy }
  match run surroundings arguments with
  | .ok outcome => perform outcome
  | .error f =>
    IO.eprintln f.message
    return 1
