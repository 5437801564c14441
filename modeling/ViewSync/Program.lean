import ViewSync.CommandLine.Settings
import ViewSync.Replica

/-!
The program as a whole: from a command line and the files at hand to an exit code and the text on
the two output channels. Faults of the command line are told together with the usage; all other
faults end the program without a word.
-/

namespace ViewSync

abbrev Files := Bytes → Option Bytes

/-- A directory that holds files and no directories: the names and the texts of the files. The
paths that lead to a file start from the directory itself. -/
abbrev Directory := List (Bytes × Bytes)

namespace Directory

def maxPath : Nat := 4095

def maxName : Nat := 255

/-- Whether a part of a path stays where it is: it is empty or a dot. -/
def staysPut (part : Bytes) : Bool :=
  part = [] || part = [46]

/-- The name of the file that a path leads to. Slashes and dots before the name make no difference,
but a path that begins with a slash leads elsewhere, and one that ends in a slash or a dot leads to
a directory. Two dots lead out of the directory. -/
def fileName? (path : Bytes) : Option Bytes :=
  let parts := Bytes.segments (· = 47) path
  if maxPath < path.length || path.head? = some 47 || parts.getLast?.any staysPut then
    none
  else
    match parts.filter (!staysPut ·) with
    | [name] => if name = [46, 46] || maxName < name.length then none else some name
    | _ => none

/-- The text of the file at a path. Of two files of one name the later one counts. -/
def read? (directory : Directory) : Files := fun path => do
  let name ← fileName? path
  let file ← directory.reverse.find? fun file => fileName? file.1.terminated = some name
  some file.2

end Directory

namespace Program

inductive Exit
  | code (number : Nat)
  /-- The machine came to its horizon with the program still running. -/
  | stopped
deriving DecidableEq, Repr

structure Run where
  exit : Exit
  output : Bytes := []
  errorOutput : Bytes := []
  machine : Machine
  sendings : List Sending := []

/-- The exit code of a replica that the test case wanted dead is 3. -/
def exitOf : Ending → Exit
  | .finished => .code 0
  | .crashed _ => .code 3
  | .stopped => .stopped

def plan (settings : CommandLine.Settings) : Replica.Plan :=
  { name := settings.name
    testCase := some settings.testCase
    progressInterval := settings.progressInterval
    proofInterval := settings.proofInterval }

def runWith (machine : Machine) (settings : CommandLine.Settings) (files : Files) : Run :=
  match files settings.rosterPath with
  | none => { exit := .code 1, machine }
  | some text =>
      match Roster.read text settings.port with
      | .error _ => { exit := .code 1, machine }
      | .ok roster =>
          match Replica.setUp machine (plan settings) roster with
          | (.error _, machine) => { exit := .code 1, machine }
          | (.ok replica, _) =>
              let (last, ending) := replica.run
              { exit := exitOf ending
                output := last.printed
                machine := last.machine
                sendings := last.sendings.toList }

def run (machine : Machine) (commandLine : List Bytes) (files : Files) : Run :=
  match CommandLine.Settings.ofCommandLine commandLine with
  | .error error =>
      { exit := .code 1
        errorOutput := error.message.terminated ++ Bytes.ofString "\n" ++
          CommandLine.usage (commandLine.headD [])
        machine }
  | .ok settings => runWith machine settings files

end Program

end ViewSync
