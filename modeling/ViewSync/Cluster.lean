import ViewSync.Engine

/-!
A cluster: replicas that share one clock and one queue of messages in flight. Messages may be
delivered in any order, delivered twice or lost, and replicas may crash and come back with
nothing remembered. Messages may also be put in flight in the name of an outsider, an identifier
that no replica of the cluster has; an outsider can be crashed like anyone else.
-/

namespace ViewSync

/-- A message in flight. Its receiver is a position in the cluster. -/
structure Packet where
  sender : Int
  receiver : Int
  message : Message
deriving DecidableEq, Repr

structure Cluster where
  /-- The replicas, each at the position that is its identifier. -/
  engines : List Engine
  crashed : List Int := []
  /-- Nanoseconds since the clock was started. -/
  now : Int := 0
  queue : List Packet := []
  /-- How many more messages may be taken by draining the queue. -/
  allowance : Nat := 20000
deriving DecidableEq

structure Report where
  /-- The position of a replica and what it did. -/
  events : List (Nat × Event) := []
  /-- The receiver of a delivered message and how it took it. -/
  outcomes : List (Int × Outcome) := []
deriving DecidableEq, Repr

def Report.andThen (first second : Report) : Report :=
  ⟨first.events ++ second.events, first.outcomes ++ second.outcomes⟩

namespace Cluster

/-- Replicas in a cluster let every quorum stand. -/
def neverHalts : Int → Bool := fun _ => false

def seats (timers : List TimerPair) (now : Int) : List Engine :=
  List.ofFn fun position : Fin timers.length =>
    (Engine.ofPosition position timers[position]).start now

/-- A cluster of started replicas. Each has a progress interval of its own, and they share the
proof interval. There is none unless all intervals are positive. -/
def start? (progressIntervals : List Int) (proofInterval : Int) : Option Cluster := do
  let timers ← progressIntervals.mapM (TimerPair.ofIntervals? · proofInterval)
  some { engines := seats timers 0 }

def engine? (cluster : Cluster) (identifier : Int) : Option Engine :=
  if 0 ≤ identifier then cluster.engines[identifier.toNat]? else none

def isDown (cluster : Cluster) (identifier : Int) : Bool :=
  cluster.crashed.contains identifier

def copies (cluster : Cluster) (sender : Nat) (message : Message) : List Packet :=
  (List.range cluster.engines.length).map fun (receiver : Nat) => ⟨sender, receiver, message⟩

def posted (cluster : Cluster) (sender : Nat) (events : List Event) : List Packet :=
  events.flatMap fun
    | .broadcast message => cluster.copies sender message
    | _ => []

def post (cluster : Cluster) (packets : List Packet) : Cluster :=
  if packets.isEmpty then cluster else { cluster with queue := cluster.queue ++ packets }

/-- Puts a replica's new state in place and its broadcasts at the end of the queue. -/
def record (cluster : Cluster) (position : Nat) (engine : Engine) (events : List Event) :
    Cluster :=
  { cluster with engines := cluster.engines.set position engine }.post
    (cluster.posted position events)

/-- Fires the due timers of one replica, unless it is crashed. -/
def fireAt (cluster : Cluster) (position : Nat) : Cluster × Report :=
  if cluster.isDown position then
    (cluster, {})
  else
    match cluster.engines[position]? with
    | none => (cluster, {})
    | some engine =>
        let firing := engine.fireDue neverHalts true cluster.now
        (cluster.record position firing.engine firing.events,
          { events := firing.events.map (position, ·) })

def fireFrom (cluster : Cluster) (positions : List Nat) : Cluster × Report :=
  positions.foldl
    (fun (before, report) position =>
      let (after, seen) := fireAt before position
      (after, report.andThen seen))
    (cluster, {})

def tick (cluster : Cluster) (millis : Int) : Cluster × Report :=
  { cluster with now := wrap64 (cluster.now + nanosOfMillis millis) }.fireFrom
    (List.range cluster.engines.length)

def handOver (cluster : Cluster) (packet : Packet) : Cluster × Report :=
  match cluster.engine? packet.receiver with
  | none => (cluster, {})
  | some engine =>
      let position := packet.receiver.toNat
      let step := engine.receive neverHalts cluster.now ⟨packet.sender, packet.message⟩
      (cluster.record position step.engine step.events,
        { events := step.events.map (position, ·)
          outcomes := [(packet.receiver, step.outcome)] })

/-- Hands a message over, unless either end is crashed; then it is lost. -/
def consume (cluster : Cluster) (packet : Packet) : Cluster × Report :=
  if cluster.isDown packet.sender || cluster.isDown packet.receiver then
    (cluster, {})
  else
    cluster.handOver packet

/-- The position in the queue that an index stands for, counted round the queue. -/
def queuePosition (cluster : Cluster) (index : Int) : Nat :=
  (index % cluster.queue.length).toNat

def deliver (cluster : Cluster) (index : Int) : Cluster × Report :=
  let position := cluster.queuePosition index
  match cluster.queue[position]? with
  | none => (cluster, {})
  | some packet => { cluster with queue := cluster.queue.eraseIdx position }.consume packet

def duplicate (cluster : Cluster) (index : Int) : Cluster × Report :=
  match cluster.queue[cluster.queuePosition index]? with
  | none => (cluster, {})
  | some packet => cluster.consume packet

def lose (cluster : Cluster) (index : Int) : Cluster :=
  { cluster with queue := cluster.queue.eraseIdx (cluster.queuePosition index) }

/-- How the queue is drained: from which end, and which pairs of sender and receiver are cut off
from each other. -/
structure Draining where
  newestFirst : Bool := false
  blocked : List (Int × Int) := []
deriving DecidableEq, Repr

namespace Draining

/-- A queue in the order in which its messages are taken. Arranged once more, the messages are
back in the order of the queue. -/
def arrange (draining : Draining) (queue : List Packet) : List Packet :=
  if draining.newestFirst then queue.reverse else queue

/-- The messages to take, in order, when more have been posted while some were waiting. -/
def lineUp (draining : Draining) (waiting posted : List Packet) : List Packet :=
  if posted.isEmpty then waiting
  else if draining.newestFirst then posted.reverse ++ waiting
  else waiting ++ posted

end Draining

/-- Takes the waiting messages one at a time until none is left or `limit` messages are taken. The
queue of the cluster holds what each of them leads to; at the end it holds all that is left. -/
def drainUpTo (draining : Draining) : Nat → List Packet → Cluster → Cluster × Report
  | 0, waiting, cluster => ({ cluster with queue := draining.arrange waiting }, {})
  | _ + 1, [], cluster => ({ cluster with queue := [] }, {})
  | limit + 1, packet :: waiting, cluster =>
      let taken := { cluster with queue := [], allowance := cluster.allowance - 1 }
      let (after, seen) :=
        if draining.blocked.contains (packet.sender, packet.receiver) then (taken, {})
        else taken.consume packet
      let (last, later) :=
        drainUpTo draining limit (draining.lineUp waiting after.queue) after
      (last, seen.andThen later)

def drain (cluster : Cluster) (draining : Draining) : Cluster × Report :=
  drainUpTo draining cluster.allowance (draining.arrange cluster.queue) cluster

def rounds (draining : Draining) (millis : Int) : Nat → Cluster → Cluster × Report
  | 0, cluster => (cluster, {})
  | count + 1, cluster =>
      let (ticked, fired) := cluster.tick millis
      let (drained, seen) := ticked.drain draining
      let (last, later) := rounds draining millis count drained
      (last, (fired.andThen seen).andThen later)

/-- The number of rounds of `step` milliseconds that begin within `millis`. -/
def roundsWithin (millis step : Int) : Nat :=
  if 0 < step then ((millis + step - 1) / step).toNat else 0

inductive Action
  | tick (millis : Int)
  | deliver (index : Int)
  | duplicate (index : Int)
  | lose (index : Int)
  | drain (draining : Draining)
  | run (millis step : Int) (draining : Draining)
  | inject (packet : Packet)
  | crash (identifier : Int)
  | restart (identifier : Int)
deriving DecidableEq, Repr

def crash (cluster : Cluster) (identifier : Int) : Cluster :=
  { cluster with crashed := cluster.crashed.insert identifier }

/-- Takes an identifier back into service. Its replica starts anew, crashed or not. -/
def restart (cluster : Cluster) (identifier : Int) : Cluster :=
  let back := { cluster with crashed := cluster.crashed.filter (· ≠ identifier) }
  match cluster.engine? identifier with
  | none => back
  | some engine =>
      { back with
        engines := cluster.engines.set identifier.toNat (engine.fresh.start cluster.now) }

def act (cluster : Cluster) : Action → Cluster × Report
  | .tick millis => cluster.tick millis
  | .deliver index => cluster.deliver index
  | .duplicate index => cluster.duplicate index
  | .lose index => (cluster.lose index, {})
  | .drain draining => cluster.drain draining
  | .run millis step draining =>
      cluster.rounds draining step (roundsWithin millis step)
  | .inject packet => (cluster.post [packet], {})
  | .crash identifier => (cluster.crash identifier, {})
  | .restart identifier => (cluster.restart identifier, {})

end Cluster

end ViewSync
