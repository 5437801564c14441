import Std.Data.ExtTreeMap
import ViewSync.Roster
import ViewSync.Timer

/-!
The machine that a replica runs on, as far as the replica can tell: a clock, name lookups, two
sockets, and what arrives on the first of them. Which of its services fail is laid down in
advance. Time is counted in milliseconds from the start and passes only while the replica waits.
The clock that timers are set by counts nanoseconds, and it has been running for a while.
-/

namespace ViewSync

namespace Address

def toBytes (address : Address) : Bytes :=
  address.host ++ Bytes.ofString ":" ++ Decimal.write address.port

end Address

inductive Signal
  | datagram (payload : Bytes)
  /-- A datagram seems to be there and cannot be read. -/
  | readFailure
  | waitFailure
deriving DecidableEq, Repr

structure Arrival where
  time : Int
  signal : Signal
deriving DecidableEq, Repr

structure Conditions where
  /-- Hosts whose first lookups fail, and how many; all of them if the number is negative. Of two
  entries for a host the later one counts. -/
  failingLookups : List (Bytes × Int) := []
  deniedPorts : List Nat := []
  busyPorts : List Nat := []
  /-- The number of the socket that cannot be had. -/
  missingSocket : Option Nat := none
  /-- The machine does not tell the port of a socket. -/
  hidesPorts : Bool := false
  /-- Targets to which nothing can be sent. -/
  failingTargets : List Bytes := []
  /-- Targets to which a datagram goes short of its last byte. -/
  shortTargets : List Bytes := []
  /-- Hosts that are this machine. -/
  localHosts : List Bytes := []
  /-- The last instant that may come while the replica waits for a datagram. -/
  horizon : Int := 60000
  /-- What the clock reads when time begins. -/
  clockStart : Nat := 3600000000000
deriving DecidableEq, Repr

/-- What the clock reads at an instant. -/
def Conditions.reading (conditions : Conditions) (instant : Int) : Int :=
  wrap64 (conditions.clockStart + instant * nanosPerMilli)

structure Machine where
  conditions : Conditions := {}
  now : Int := 0
  /-- How often each host was looked up so far. -/
  lookups : Std.ExtTreeMap Bytes Nat := ∅
  nextSocket : Nat := 0
  /-- The port of the inbound socket, which is the first to be bound. -/
  inboundPort : Option Nat := none
  closed : List Nat := []
  /-- What is still to happen on the inbound socket, in order of time. -/
  arrivals : List Arrival := []
deriving DecidableEq, Repr

structure Sending where
  time : Int
  target : Bytes
  payload : Bytes
  complete : Bool
deriving DecidableEq, Repr

inductive BindRefusal
  | denied
  | busy
deriving DecidableEq, Repr

inductive Binding
  | bound (socket : Nat)
  | noSocket
  | refused (refusal : BindRefusal)
deriving DecidableEq, Repr

inductive Awaited
  | datagram (payload : Bytes)
  | nothing
  /-- Waiting would have gone past the horizon. -/
  | stopped
deriving DecidableEq, Repr

namespace Machine

def clock (machine : Machine) : Int :=
  machine.conditions.reading machine.now

/-- Puts an arrival behind all that happens no later. -/
def placeArrival (arrival : Arrival) : List Arrival → List Arrival
  | [] => [arrival]
  | first :: rest =>
      if arrival.time < first.time then arrival :: first :: rest
      else first :: placeArrival arrival rest

def addArrival (machine : Machine) (arrival : Arrival) : Machine :=
  { machine with arrivals := placeArrival arrival machine.arrivals }

def sleep (machine : Machine) (millis : Int) : Machine :=
  { machine with now := machine.now + max millis 0 }

/-- Whether a lookup fails, given the number of lookups of the same host before it. -/
def lookupFails (conditions : Conditions) (host : Bytes) (earlier : Nat) : Bool :=
  match conditions.failingLookups.reverse.lookup host with
  | none => false
  | some failures => failures < 0 || (earlier : Int) < failures

def lookUp (machine : Machine) (host : Bytes) : Bool × Machine :=
  let earlier := machine.lookups.getD host 0
  (!lookupFails machine.conditions host earlier,
    { machine with lookups := machine.lookups.insert host (earlier + 1) })

def close (machine : Machine) (socket : Nat) : Machine :=
  { machine with closed := machine.closed ++ [socket] }

/-- Asks for a socket bound to a port. A socket whose port is refused is closed at once. -/
def bind (machine : Machine) (port : Nat) : Binding × Machine :=
  let socket := machine.nextSocket
  let asked := { machine with nextSocket := socket + 1 }
  if machine.conditions.missingSocket = some socket then
    (.noSocket, asked)
  else if machine.conditions.deniedPorts.contains port then
    (.refused .denied, asked.close socket)
  else if machine.conditions.busyPorts.contains port then
    (.refused .busy, asked.close socket)
  else
    (.bound socket, { asked with inboundPort := asked.inboundPort.or (some port) })

def toldPort (machine : Machine) : Nat :=
  if machine.conditions.hidesPorts then 0 else machine.inboundPort.getD 0

def isOwn (machine : Machine) (address : Address) : Bool :=
  machine.conditions.localHosts.contains address.host &&
    machine.inboundPort = some address.port

def send (machine : Machine) (address : Address) (payload : Bytes) : Sending × Machine :=
  let target := address.toBytes
  let complete :=
    !machine.conditions.failingTargets.contains target &&
      !machine.conditions.shortTargets.contains target
  (⟨machine.now, target, payload, complete⟩,
    if complete && machine.isOwn address then
      machine.addArrival ⟨machine.now, .datagram payload⟩
    else
      machine)

/-- The most bytes of a datagram that are read. The rest of a longer one is lost. -/
def maxDatagram : Nat := 65540

def heard : Signal → Awaited
  | .datagram payload => .datagram (payload.take maxDatagram)
  | .readFailure => .nothing
  | .waitFailure => .nothing

def waitOut (machine : Machine) (timeout : Int) : Awaited × Machine :=
  if timeout < 0 || machine.conditions.horizon < machine.now + timeout then
    (.stopped, machine)
  else
    (.nothing, { machine with now := machine.now + timeout })

/-- Waits on the inbound socket for at most `timeout` milliseconds, or for ever if it is
negative. What happens after the horizon is out of reach, even if its time has come; what happened
earlier is still taken when the horizon has passed. -/
def await (machine : Machine) (timeout : Int) : Awaited × Machine :=
  match machine.arrivals with
  | [] => machine.waitOut timeout
  | arrival :: rest =>
      if timeout < 0 || arrival.time ≤ machine.now + timeout then
        if machine.conditions.horizon < arrival.time then
          (.stopped, machine)
        else
          (heard arrival.signal,
            { machine with now := max machine.now arrival.time, arrivals := rest })
      else
        machine.waitOut timeout

end Machine

end ViewSync
