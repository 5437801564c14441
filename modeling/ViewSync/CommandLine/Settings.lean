import ViewSync.CommandLine.Scan
import ViewSync.Roster
import ViewSync.Scenario
import ViewSync.Timer

/-!
The settings of a replica, read from its command line. Values are checked as the options are met,
also where a later option replaces them. What is wrong with the command line as a whole is told
only if all values are good.
-/

namespace ViewSync.CommandLine

structure Settings where
  name : Bytes := []
  rosterPath : Bytes := Bytes.ofString "hosts"
  testCase : TestCase := .normal
  /-- In milliseconds. -/
  progressInterval : Int := 3000
  proofInterval : Int := 1000
  logDirectory : Bytes := []
  port : Nat := Roster.defaultPort
deriving DecidableEq, Repr

inductive Quantity
  | duration
  | testCase
  | port
deriving DecidableEq, Repr

def Quantity.name : Quantity → Bytes
  | .duration => Bytes.ofString "duration"
  | .testCase => Bytes.ofString "test case"
  | .port => Bytes.ofString "port"

inductive SettingsError
  | badNumber (quantity : Quantity) (text : Bytes)
  | testCaseOutOfRange (text : Bytes)
  | portOutOfRange (text : Bytes)
  | unusableLetter (letter : UInt8)
  | unknownWord (word : Bytes)
  | strayWord (word : Bytes)
  | nameMissing
  | durationNotPositive
  | proofNotShorter
deriving DecidableEq, Repr

def SettingsError.message : SettingsError → Bytes
  | .badNumber quantity text =>
      Bytes.ofString "bad " ++ quantity.name ++ Bytes.ofString " " ++ text.quoted
  | .testCaseOutOfRange text =>
      Bytes.ofString "test case must be within 1..5, got " ++ text
  | .portOutOfRange text => Bytes.ofString "port out of range: " ++ text
  | .unusableLetter letter =>
      Bytes.ofString "unknown option or missing value for -" ++ [letter]
  | .unknownWord word => Bytes.ofString "unknown option " ++ word.quoted
  | .strayWord word => Bytes.ofString "unexpected argument " ++ word.quoted
  | .nameMissing => Bytes.ofString "node name (-n) is required"
  | .durationNotPositive => Bytes.ofString "timer durations must be positive"
  | .proofNotShorter => Bytes.ofString "proof timer must be shorter than the progress timer"

def readNumber (quantity : Quantity) (text : Bytes) : Except SettingsError Int :=
  match Decimal.signed? text with
  | some number => if 0 ≤ number then .ok number else .error (.badNumber quantity text)
  | none => .error (.badNumber quantity text)

/-- What stands before the unit "ms" at the end of a text. The unit alone is no duration. -/
def millisText? (text : Bytes) : Option Bytes :=
  match text.reverse with
  | 115 :: 109 :: digit :: rest => some (digit :: rest).reverse
  | _ => none

/-- Reads a duration, in milliseconds. A number alone counts seconds. -/
def readDuration (text : Bytes) : Except SettingsError Int :=
  match millisText? text with
  | some number => readNumber .duration number
  | none => do .ok (wrap64 ((← readNumber .duration text) * 1000))

def readTestCase (text : Bytes) : Except SettingsError TestCase := do
  match TestCase.ofNumber? (← readNumber .testCase text) with
  | some testCase => .ok testCase
  | none => .error (.testCaseOutOfRange text)

def readPort (text : Bytes) : Except SettingsError Nat := do
  let number ← readNumber .port text
  if 1 ≤ number ∧ number ≤ Roster.maxPort then
    .ok number.toNat
  else
    .error (.portOutOfRange text)

namespace Settings

def apply (settings : Settings) : Setting × Bytes → Except SettingsError Settings
  | (.name, value) => .ok { settings with name := value }
  | (.roster, value) => .ok { settings with rosterPath := value }
  | (.test, value) => do .ok { settings with testCase := ← readTestCase value }
  | (.progress, value) => do .ok { settings with progressInterval := ← readDuration value }
  | (.proof, value) => do .ok { settings with proofInterval := ← readDuration value }
  | (.log, value) => .ok { settings with logDirectory := value }
  | (.port, value) => do .ok { settings with port := ← readPort value }

def checkEnding : Ending → Except SettingsError Unit
  | .finished [] => .ok ()
  | .finished (word :: _) => .error (.strayWord word)
  | .unusable letter => .error (.unusableLetter letter)
  | .unknownWord word => .error (.unknownWord word)

def check (settings : Settings) : Except SettingsError Settings :=
  if settings.name = [] then
    .error .nameMissing
  else if settings.progressInterval ≤ 0 ∨ settings.proofInterval ≤ 0 then
    .error .durationNotPositive
  else if settings.progressInterval ≤ settings.proofInterval then
    .error .proofNotShorter
  else
    .ok settings

def ofWords (words : List Bytes) : Except SettingsError Settings := do
  let scan := Scan.ofWords words
  let settings ← scan.given.foldlM apply {}
  checkEnding scan.ending
  settings.check

/-- Reads a command line that begins with the name of the program. Words are handed over as
NUL-terminated text. -/
def ofCommandLine (words : List Bytes) : Except SettingsError Settings :=
  ofWords ((words.drop 1).map Bytes.terminated)

end Settings

def usage (program : Bytes) : Bytes :=
  Bytes.ofString "usage: " ++ program.terminated ++
  Bytes.ofString (" -n NAME [-h HOSTFILE] [-t TEST_CASE] [-p SECONDS] [-v SECONDS] [-l LOGDIR]" ++
    " [-P PORT]\n" ++
    "  -n, --name      hostname of this process, as listed in HOSTFILE\n" ++
    "  -h, --hosts     roster, one host per line (default: hosts)\n" ++
    "  -t, --test      test case 1..5 (default: 1)\n" ++
    "  -p, --progress  progress timer, seconds or <n>ms (default: 3)\n" ++
    "  -v, --vcproof   view change proof timer, seconds or <n>ms (default: 1)\n" ++
    "  -l, --log       directory for log files (default: stderr)\n" ++
    "  -P, --port      base UDP port (default: 42069)\n")

end ViewSync.CommandLine
