import ViewSync.Text.Bytes

/-!
The command line as words. Each of seven settings is given by an option with a value. An option is
a letter after one hyphen, with the value in the same word or in the next, or a long name after
two hyphens, with the value after an equals sign or in the next word. A long name may be cut short
as long as it fits one setting only. Words that are no options are operands and may stand
anywhere; after a word of two hyphens all words are operands.
-/

namespace ViewSync.CommandLine

inductive Setting
  | name
  | roster
  | test
  | progress
  | proof
  | log
  | port
deriving DecidableEq, Repr

namespace Setting

def all : List Setting :=
  [.name, .roster, .test, .progress, .proof, .log, .port]

def letter : Setting → UInt8
  | .name => 110
  | .roster => 104
  | .test => 116
  | .progress => 112
  | .proof => 118
  | .log => 108
  | .port => 80

def longName : Setting → Bytes
  | .name => Bytes.ofString "name"
  | .roster => Bytes.ofString "hosts"
  | .test => Bytes.ofString "test"
  | .progress => Bytes.ofString "progress"
  | .proof => Bytes.ofString "vcproof"
  | .log => Bytes.ofString "log"
  | .port => Bytes.ofString "port"

def ofLetter? (letter : UInt8) : Option Setting :=
  all.find? (·.letter = letter)

/-- The setting with a long name, or the only one whose long name begins so. -/
def ofLongName? (name : Bytes) : Option Setting :=
  match all.find? (·.longName = name) with
  | some setting => some setting
  | none =>
      match all.filter (name.isPrefixOf ·.longName) with
      | [setting] => some setting
      | _ => none

end Setting

inductive Shape
  | operand
  /-- Two hyphens: no options follow. -/
  | terminator
  | option (setting : Setting) (value : Bytes)
  /-- The value is the next word. -/
  | needsValue (setting : Setting)
  | unknownLetter (letter : UInt8)
  | unknownName
deriving DecidableEq, Repr

def longShape (text : Bytes) : Shape :=
  match Setting.ofLongName? (text.takeWhile (· ≠ 61)) with
  | none => .unknownName
  | some setting =>
      match text.dropWhile (· ≠ 61) with
      | [] => .needsValue setting
      | _ :: value => .option setting value

/-- Reads what follows one hyphen: a letter and the rest of the word. -/
def shortShape (letter : UInt8) (value : Bytes) : Shape :=
  match Setting.ofLetter? letter with
  | none => .unknownLetter letter
  | some setting => if value = [] then .needsValue setting else .option setting value

/-- A hyphen alone is an operand. -/
def shape : Bytes → Shape
  | [45, 45] => .terminator
  | 45 :: 45 :: text => longShape text
  | 45 :: letter :: value => shortShape letter value
  | _ => .operand

inductive Ending
  /-- All words are read; these are the operands. -/
  | finished (operands : List Bytes)
  /-- A letter that is no option, or the letter of an option whose value is missing. -/
  | unusable (letter : UInt8)
  | unknownWord (word : Bytes)
deriving DecidableEq, Repr

structure Scan where
  given : List (Setting × Bytes) := []
  ending : Ending
deriving DecidableEq, Repr

namespace Scan

def withOperand (word : Bytes) (later : Scan) : Scan :=
  match later.ending with
  | .finished operands => { later with ending := .finished (word :: operands) }
  | _ => later

def withOption (setting : Setting) (value : Bytes) (later : Scan) : Scan :=
  { later with given := (setting, value) :: later.given }

/-- Reads words from the left. A value is taken as it stands, whatever it looks like. -/
def ofWords : List Bytes → Scan
  | [] => { ending := .finished [] }
  | word :: rest =>
      match shape word with
      | .operand => (ofWords rest).withOperand word
      | .terminator => { ending := .finished rest }
      | .option setting value => (ofWords rest).withOption setting value
      | .needsValue setting =>
          match rest with
          | [] => { ending := .unusable setting.letter }
          | value :: rest => (ofWords rest).withOption setting value
      | .unknownLetter letter => { ending := .unusable letter }
      | .unknownName => { ending := .unknownWord word }

end Scan

end ViewSync.CommandLine
