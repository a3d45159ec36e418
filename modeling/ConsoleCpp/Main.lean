/-
The command itself: reads the files that the command line names, and prints the reply.
-/
import ConsoleCpp.CommandLine

namespace ConsoleCpp.CommandLine

/-- The text of a file, unless there is none. -/
def readNamed (path : String) : IO (Option String) := do
  try
    return some (← IO.FS.readFile path)
  catch _ => return none

/-- The texts that a request reads. -/
def filesFor (paths : List String) : IO Files := do
  let mut texts : List (String × String) := []
  let mut standardInput := ""
  for path in paths do
    if path == "-" then
      standardInput ← (← IO.getStdin).readToEnd
    else if let some text ← readNamed path then
      texts := (path, text) :: texts
  return ⟨fun path => texts.lookup path, standardInput⟩

end ConsoleCpp.CommandLine

open ConsoleCpp.CommandLine in
def main (args : List String) : IO UInt32 := do
  let paths := match Request.ofArgs args with
    | .ok r => r.paths.eraseDups
    | .error _ => []
  match run (← filesFor paths) args with
  | .ok reply =>
    for line in reply.log do
      IO.eprintln line
    IO.print reply.output
    return reply.exitCode.toUInt32
  | .error crash =>
    IO.eprintln crash.message
    return 1
