import ViewSync.Machine
import ViewSync.Wire.Stream

/-!
Messages between replicas as datagrams. A replica listens on its port and sends from the next one.
Every frame goes out as a datagram of its own; a datagram that arrives may hold several frames.
A peer whose host cannot be found is left out, and what is meant for it is not sent.
-/

namespace ViewSync

inductive TransportError
  | selfOutside (self : Int)
  | noSocket
  | refused (port : Nat) (refusal : BindRefusal)
deriving DecidableEq, Repr

def TransportError.message : TransportError → Bytes
  | .selfOutside self =>
      Bytes.ofString "self " ++ Decimal.write self ++ Bytes.ofString " is not in the peer list"
  | .noSocket => Bytes.ofString "socket: Too many open files"
  | .refused port refusal =>
      Bytes.ofString "bind to port " ++ Decimal.write port ++ Bytes.ofString ": " ++
        match refusal with
        | .denied => Bytes.ofString "Permission denied"
        | .busy => Bytes.ofString "Address already in use"

structure Transport where
  self : Int
  inboundSocket : Nat
  outboundSocket : Nat
  /-- The addresses of the peers, this replica among them, as far as they were found. -/
  peers : List (Option Address)
  /-- Bytes that belong to no frame yet. -/
  stream : Stream := {}
  /-- Envelopes that have arrived and are not handed on yet. -/
  received : List Envelope := []
deriving DecidableEq, Repr

/-- How often a host is looked up, and how long to wait between two times. -/
structure Persistence where
  attempts : Nat := 20
  /-- In milliseconds. -/
  retry : Int := 500
deriving DecidableEq, Repr

namespace Transport

def lookUp (host : Bytes) (retry : Int) : Nat → Machine → Bool × Machine
  | 0, machine => (false, machine)
  | attempts + 1, machine =>
      let (found, asked) := machine.lookUp host
      if found then (true, asked)
      else if attempts = 0 then (false, asked)
      else lookUp host retry attempts (asked.sleep retry)

def resolve (persistence : Persistence) : List Address → Machine → List (Option Address) × Machine
  | [], machine => ([], machine)
  | peer :: rest, machine =>
      let (found, asked) := lookUp peer.host persistence.retry persistence.attempts machine
      let (peers, last) := resolve persistence rest asked
      ((if found then some peer else none) :: peers, last)

/-- Ports are numbered modulo 65536. -/
def portAfter (port : Nat) : Nat :=
  (port + 1) % 65536

def bindBoth (machine : Machine) (port : Nat) : Except TransportError (Nat × Nat) × Machine :=
  match machine.bind port with
  | (.noSocket, machine) => (.error .noSocket, machine)
  | (.refused refusal, machine) => (.error (.refused port refusal), machine)
  | (.bound inbound, machine) =>
      match machine.bind (portAfter port) with
      | (.noSocket, machine) => (.error .noSocket, machine.close inbound)
      | (.refused refusal, machine) =>
          (.error (.refused (portAfter port) refusal), machine.close inbound)
      | (.bound outbound, machine) => (.ok (inbound, outbound), machine)

/-- Sets a transport up. Hosts are handed over as NUL-terminated text. -/
def setUp (machine : Machine) (self : Int) (peers : List Address) (port : Nat)
    (persistence : Persistence) : Except TransportError Transport × Machine :=
  if self < 0 ∨ (peers.length : Int) ≤ self then
    (.error (.selfOutside self), machine)
  else
    match bindBoth machine port with
    | (.error error, machine) => (.error error, machine)
    | (.ok (inboundSocket, outboundSocket), machine) =>
        let named := peers.map fun peer => { peer with host := peer.host.terminated }
        let (peers, machine) := resolve persistence named machine
        (.ok { self, inboundSocket, outboundSocket, peers }, machine)

def close (transport : Transport) (machine : Machine) : Machine :=
  (machine.close transport.inboundSocket).close transport.outboundSocket

def reachable (transport : Transport) : Nat :=
  transport.peers.countP (·.isSome)

def sendEach (frame : Bytes) : List (Option Address) → Machine → List Sending × Machine
  | [], machine => ([], machine)
  | none :: rest, machine => sendEach frame rest machine
  | some address :: rest, machine =>
      let (sending, after) := machine.send address frame
      let (sendings, last) := sendEach frame rest after
      (sending :: sendings, last)

def sendTo (transport : Transport) (machine : Machine) (peers : List (Option Address))
    (message : Message) : List Sending × Machine :=
  match Frame.encode ⟨transport.self, message⟩ with
  | .error _ => ([], machine)
  | .ok frame => sendEach frame peers machine

/-- Sends a message to one peer. There is nobody outside the list of peers. -/
def send (transport : Transport) (machine : Machine) (receiver : Int) (message : Message) :
    List Sending × Machine :=
  let peers := if 0 ≤ receiver then transport.peers[receiver.toNat]?.toList else []
  transport.sendTo machine peers message

def broadcast (transport : Transport) (machine : Machine) (message : Message) :
    List Sending × Machine :=
  transport.sendTo machine transport.peers message

/-- Takes the frames of a datagram in. What is not a whole frame is dropped together with all that
follows it. -/
def absorb (transport : Transport) (payload : Bytes) : Transport :=
  let (envelopes, _) := (transport.stream.append payload).takeAll
  { transport with stream := {}, received := transport.received ++ envelopes }

inductive Received
  | envelope (envelope : Envelope)
  | nothing
  | stopped
deriving DecidableEq, Repr

/-- Waiting times are handed to the machine as integers of 32 bits with a sign. -/
def pollTimeout (millis : Int) : Int :=
  Int.bmod millis 4294967296

def handOn (transport : Transport) : Received × Transport :=
  match transport.received with
  | [] => (.nothing, transport)
  | envelope :: rest => (.envelope envelope, { transport with received := rest })

/-- The next message. Only when none has arrived does the machine wait for a datagram. -/
def receive (transport : Transport) (machine : Machine) (millis : Int) :
    Received × Transport × Machine :=
  if transport.received.isEmpty then
    match machine.await (pollTimeout millis) with
    | (.stopped, machine) => (.stopped, transport, machine)
    | (.nothing, machine) => (.nothing, transport, machine)
    | (.datagram payload, machine) =>
        let (received, transport) := (transport.absorb payload).handOn
        (received, transport, machine)
  else
    let (received, transport) := transport.handOn
    (received, transport, machine)

end Transport

end ViewSync
