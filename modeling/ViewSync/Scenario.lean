import ViewSync.Quorum

/-!
The five rehearsed cases: which replicas die with a quorum in hand, and when a replica has seen
enough.

    case                 dies collecting a quorum for its own view    ends with
    normal               nobody                                       view 1
    full rotation        nobody                                       replica 0 leading again
    single crash         replica 1                                    view 2
    two crashes          replicas 1 and 2                             view 3
    three crashes        replicas 1, 2 and 3                          view 4
-/

namespace ViewSync

inductive TestCase
  | normal
  | fullRotation
  | singleCrash
  | twoCrashes
  | threeCrashes
deriving DecidableEq, Repr

/-- Cases are numbered from 1 to 5. -/
def TestCase.ofNumber? : Int → Option TestCase
  | 1 => some .normal
  | 2 => some .fullRotation
  | 3 => some .singleCrash
  | 4 => some .twoCrashes
  | 5 => some .threeCrashes
  | _ => none

/-- The case of a number that is held in one byte with a sign. Most bytes are no case. -/
def TestCase.ofByte? (number : Int) : Option TestCase :=
  TestCase.ofNumber? (Int.bmod number 256)

def TestCase.number : TestCase → Nat
  | .normal => 1
  | .fullRotation => 2
  | .singleCrash => 3
  | .twoCrashes => 4
  | .threeCrashes => 5

/-- What one replica makes of a test case. Without a case it neither dies nor finishes. -/
structure Scenario where
  testCase : Option TestCase
  replica : Int
  replicas : Int
deriving DecidableEq, Repr

namespace Scenario

def dooms : TestCase → Int → Bool
  | .singleCrash, replica => replica = 1
  | .twoCrashes, replica => replica = 1 || replica = 2
  | .threeCrashes, replica => 1 ≤ replica && replica ≤ 3
  | _, _ => false

def crashesOnQuorum (scenario : Scenario) (view : Int) : Bool :=
  leaderOf view scenario.replicas = scenario.replica &&
    scenario.testCase.any (dooms · scenario.replica)

def endsWith : TestCase → Int → Int → Bool
  | .normal, view, _ => view = 1
  | .fullRotation, view, leader => view ≠ 0 && leader = 0
  | .singleCrash, view, _ => view = 2
  | .twoCrashes, view, _ => view = 3
  | .threeCrashes, view, _ => view = 4

def isFinished (scenario : Scenario) (view leader : Int) : Bool :=
  scenario.testCase.any (endsWith · view leader)

/-- Leaders announce their view again and again, except where the rotation needs them to fall
silent. -/
def periodicProofs (scenario : Scenario) : Bool :=
  scenario.testCase ≠ some .fullRotation

end Scenario

end ViewSync
