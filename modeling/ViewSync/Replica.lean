import ViewSync.Engine
import ViewSync.Scenario
import ViewSync.Transport

/-!
A replica at work: its engine, the transport and the test case around one loop. In every turn of
the loop the due timers fire first, so that a busy network cannot starve them, and then one
message is awaited, for as long as no timer is due.
-/

namespace ViewSync

inductive ReplicaError
  | notInRoster (name : Bytes)
  | intervals
  | transport (error : TransportError)
deriving DecidableEq, Repr

def ReplicaError.message : ReplicaError → Bytes
  | .notInRoster name =>
      Bytes.ofString "node " ++ name.quoted ++ Bytes.ofString " is not in the roster"
  | .intervals => TimerPair.intervalMessage
  | .transport error => error.message

/-- A replica that is set up, and what it has done so far. -/
structure Replica where
  scenario : Scenario
  engine : Engine
  transport : Transport
  machine : Machine
  /-- The test case has reached its end. -/
  finished : Bool := false
  sendings : Array Sending := #[]
  /-- The installed views and their leaders. -/
  installs : Array (Int × Int) := #[]

inductive Ending
  | finished
  | crashed (view : Int)
  | stopped
deriving DecidableEq, Repr

namespace Replica

structure Plan where
  name : Bytes
  testCase : Option TestCase
  /-- In milliseconds. -/
  progressInterval : Int
  proofInterval : Int
deriving DecidableEq, Repr

def setUp (machine : Machine) (plan : Plan) (roster : Roster) :
    Except ReplicaError Replica × Machine :=
  match roster.indexOf? plan.name with
  | none => (.error (.notInRoster plan.name), machine)
  | some position =>
      match TimerPair.ofIntervals? plan.progressInterval plan.proofInterval with
      | none => (.error .intervals, machine)
      | some timers =>
          let entry := roster.entries.get position
          match Transport.setUp machine position.val roster.addresses entry.address.port {} with
          | (.error error, machine) => (.error (.transport error), machine)
          | (.ok transport, machine) =>
              let scenario := ⟨plan.testCase, position.val, roster.size⟩
              let engine := Engine.ofPosition position timers
              (.ok { scenario, engine, transport, machine }, machine)

def now (replica : Replica) : Int :=
  replica.machine.clock

def perform (replica : Replica) : Event → Replica
  | .broadcast message =>
      let (sendings, machine) := replica.transport.broadcast replica.machine message
      { replica with machine, sendings := replica.sendings ++ sendings }
  | .quorumCollected _ => replica
  | .viewInstalled view leader =>
      { replica with
        installs := replica.installs.push (view, leader)
        finished := replica.finished || replica.scenario.isFinished view leader }

def follow (replica : Replica) (engine : Engine) (events : List Event) : Replica :=
  events.foldl perform { replica with engine }

def fireDue (replica : Replica) : Replica × Option Ending :=
  let scenario := replica.scenario
  let firing :=
    replica.engine.fireDue scenario.crashesOnQuorum scenario.periodicProofs replica.now
  let fired := replica.follow firing.engine firing.events
  match firing.progress with
  | some (.halted view) => (fired, some (.crashed view))
  | _ => (fired, if fired.finished then some .finished else none)

def patience (replica : Replica) : Int :=
  replica.engine.timers.untilNextDeadline replica.now

/-- The second part of a turn: a message is awaited and taken in. -/
def listen (replica : Replica) : Replica × Option Ending :=
  let (received, transport, machine) := replica.transport.receive replica.machine replica.patience
  let heard := { replica with transport, machine }
  match received with
  | .stopped => (heard, some .stopped)
  | .nothing => (heard, none)
  | .envelope envelope =>
      let step := heard.engine.receive heard.scenario.crashesOnQuorum heard.now envelope
      let moved := heard.follow step.engine step.events
      match step.outcome with
      | .halted view => (moved, some (.crashed view))
      | .settled _ => (moved, if moved.finished then some .finished else none)

def turn (replica : Replica) : Replica × Option Ending :=
  match replica.fireDue with
  | (fired, some ending) => (fired, some ending)
  | (fired, none) => fired.listen

/-- At most `limit` turns. There is no ending if they were not enough. -/
def runFor : Nat → Replica → Replica × Option Ending
  | 0, replica => (replica, none)
  | limit + 1, replica =>
      match replica.turn with
      | (last, some ending) => (last, some ending)
      | (next, none) => runFor limit next

/-- Turns beyond this number are not made. As long as every turn takes in an envelope or an arrival
or moves the clock, a run to the horizon is shorter. -/
def turnLimit (replica : Replica) : Nat :=
  (replica.machine.conditions.horizon.toNat + replica.machine.arrivals.length + 1) * 1000000

def run (replica : Replica) : Replica × Ending :=
  let started := { replica with engine := replica.engine.start replica.now }
  let (last, ending) := started.runFor started.turnLimit
  (last, ending.getD .stopped)

def installLine (self view leader : Int) : Bytes :=
  Decimal.write self ++ Bytes.ofString ": Server " ++ Decimal.write leader ++
    Bytes.ofString " is the new leader of view " ++ Decimal.write view ++ Bytes.ofString "\n"

def printed (replica : Replica) : Bytes :=
  replica.installs.toList.flatMap fun (view, leader) =>
    installLine replica.engine.self view leader

def crashMessage (self view : Int) : Bytes :=
  Bytes.ofString "node " ++ Decimal.write self ++
    Bytes.ofString " crashed before installing view " ++ Decimal.write view

end Replica

end ViewSync
