-- The daemon's program: it runs the daemon over an empty in-memory world with the log filter from the
-- environment and the lines of standard input.
import Courier.Daemon.Service

open Courier Courier.Daemon

/-- The lines of a stream up to its end, without their line feeds. -/
partial def readLines (stream : IO.FS.Stream) (acc : Array String) : IO (List String) := do
  let line ← stream.getLine
  if line.isEmpty then return acc.toList
  else readLines stream (acc.push (if line.endsWith "\n" then (line.dropEnd 1).toString else line))

/-- Runs the daemon with the given arguments. -/
def main (args : List String) : IO UInt32 := do
  let input ← match Options.read args with
    | .run _ => readLines (← IO.getStdin) #[]
    | _ => pure []
  let logFilter ← IO.getEnv "RUST_LOG"
  let volume := ({} : Files.Volume).plant ["work"] .dir
  let launch : Launch :=
    { workDir := "/work"
      configHome := "/work/.config"
      host := "localhost"
      logFilter
      volume
      input }
  let o := run args launch
  let out ← IO.getStdout
  for line in o.lines do out.putStrLn line
  (← IO.getStderr).putStr o.errors
  return o.exit.toUInt32
