import StreamConfig.Command.Run

/-! # The command line

Reads the files that a command line names, runs it on them and writes what it gives.
-/

namespace StreamConfig

/-- The files that a command reads. -/
def Command.paths : Command → List String
  | .lint files _ => files
  | .prune _ _ _ _ _ file => [file]
  | .infer _ _ file => [file]
  | .list _ => []

/-- The text of a file, `none` if it cannot be read. -/
def readText (path : String) : IO (Option String) := do
  try return some (← IO.FS.readFile path) catch _ => return none

end StreamConfig

open StreamConfig in
def main (args : List String) : IO UInt32 := do
  let paths := ((Command.ofArguments? args).map fun c => c.1.paths).getD []
  let texts ← paths.mapM fun path => do return (path, ← readText path)
  let outcome := runArguments (fun path => (texts.find? fun t => t.1 == path).bind (·.2)) args
  IO.print outcome.output
  if outcome.error != "" then IO.eprintln outcome.error
  return outcome.exit.toUInt32
