import Flowgraph.CommandLine

/-! The program: reads the files that its arguments name, runs the command on them, and writes what came
    of it. -/

namespace Flowgraph

/-- The bytes of a file, if it can be read. -/
def readIfThere (path : String) : IO (Option (String × ByteArray)) := do
  try
    let bytes ← IO.FS.readBinFile path
    pure (some (path, bytes))
  catch _ => pure none

/-- Writes a file of the result if the command changed it, and says whether that went well. -/
def writeIfChanged (before after : Json.Table ByteArray) (path : String) : IO Bool := do
  let old := (Json.Table.entry? before path).map (·.toList)
  match Json.Table.entry? after path with
  | none => pure true
  | some bytes =>
    if old == some bytes.toList then pure true
    else
      try
        IO.FS.writeBinFile path bytes
        pure true
      catch e =>
        (← IO.getStderr).putStrLn ("\nError: Failed to write '" ++ path ++ "': " ++ toString e)
        pure false

/-- Runs a command on the files of the machine. -/
def runCommand (command : CommandLine.Command) : IO UInt32 := do
  let contents ← command.inputs.filterMapM readIfThere
  let start ← IO.monoMsNow
  let result := CommandLine.run ⟨contents, fun _ _ => .ok⟩ command
  (← IO.getStderr).putStr result.stderr
  let stop ← IO.monoMsNow
  if ← command.outputs.allM (writeIfChanged contents result.files.contents) then
    (← IO.getStdout).putStr (result.stdout (toString (stop - start) ++ "ms"))
    pure (UInt32.ofNat result.exit)
  else pure 1

end Flowgraph

def main (argv : List String) : IO UInt32 :=
  match Flowgraph.CommandLine.command? argv with
  | some command => Flowgraph.runCommand command
  | none => do
    (← IO.getStderr).putStrLn "usage: compile (template | dag) --in FILE --out FILE [OPTIONS]"
    pure 2
