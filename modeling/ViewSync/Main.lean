import ViewSync.Program

/-!
The command line of the program. It rehearses one replica by itself: every host is found, whatever
is sent is accepted, and nothing arrives from anywhere. The rehearsal ends at the horizon of the
machine at the latest.
-/

namespace ViewSync.Rehearsal

def readFile? (path : Bytes) : IO (Option Bytes) := do
  match String.fromUTF8? ⟨path.toArray⟩ with
  | none => return none
  | some path =>
      try
        return some (← IO.FS.readBinFile path).data.toList
      catch _ =>
        return none

/-- The roster file that a command line names, as the only file at hand. -/
def readFiles (commandLine : List Bytes) : IO Files := do
  match CommandLine.Settings.ofCommandLine commandLine with
  | .error _ => return fun _ => none
  | .ok settings =>
      let text ← readFile? settings.rosterPath
      return fun path => if path = settings.rosterPath then text else none

/-- The exit code of a rehearsal that came to the horizon is 2. -/
def exitCode : Program.Exit → UInt32
  | .code number => UInt32.ofNat number
  | .stopped => 2

def printTo (stream : IO.FS.Stream) (text : Bytes) : IO Unit :=
  stream.write ⟨text.toArray⟩

end ViewSync.Rehearsal

open ViewSync ViewSync.Rehearsal in
def main (arguments : List String) : IO UInt32 := do
  let commandLine := ("viewsync" :: arguments).map Bytes.ofString
  let run := Program.run {} commandLine (← readFiles commandLine)
  printTo (← IO.getStdout) run.output
  printTo (← IO.getStderr) run.errorOutput
  return exitCode run.exit
