import Mathlib.Data.List.Forall2
import ViewSync.Transport
import ViewSync.Proofs.Segmentation

/-!
What a transport hands on.

Datagrams hold frames, good ones and bad ones, and a transport hands the envelopes in them on one
at a time. Of every datagram it takes the longest run of canonical frames at the front, and nothing
of a datagram is left over for the next one. So what it has handed on, followed by what is waiting
in it, is what the datagrams so far have held, in order, however they were formed and whatever else
the machine did in between. While an envelope is waiting the machine is not asked for more.
-/

namespace ViewSync

namespace Frame

/-! ### The frames at the front -/

def IsRun (bytes : Bytes) (run : List (Envelope × Bytes)) : Prop :=
  (∀ pair ∈ run, Canonical pair.1 pair.2) ∧ run.flatMap Prod.snd <+: bytes

/-- The envelopes of the longest run of canonical frames at the front. -/
def Heads (bytes : Bytes) (envelopes : List Envelope) : Prop :=
  ∃ run, IsRun bytes run ∧ (∀ other, IsRun bytes other → other <+: run) ∧
    envelopes = run.map Prod.fst

variable {bytes rest frame : Bytes} {envelope : Envelope}

theorem isRun_nil (bytes : Bytes) : IsRun bytes [] :=
  ⟨fun _ listed => absurd listed List.not_mem_nil, List.nil_prefix⟩

theorem isRun_cons (canonical : Canonical envelope frame) {run : List (Envelope × Bytes)} :
    IsRun (frame ++ rest) ((envelope, frame) :: run) ↔ IsRun rest run := by
  unfold IsRun
  rw [List.forall_mem_cons, and_iff_right canonical, List.flatMap_cons,
    List.prefix_append_right_inj]

theorem eq_of_front (canonical : Canonical envelope frame) {other : Envelope × Bytes}
    {run : List (Envelope × Bytes)} (begins : IsRun (frame ++ rest) (other :: run)) :
    other = (envelope, frame) := by
  obtain ⟨all, joined⟩ := begins
  rw [List.flatMap_cons] at joined
  obtain ⟨tail, whole⟩ := (List.prefix_append _ _).trans joined
  have read := (all other List.mem_cons_self).decode?_append tail
  rw [whole, canonical.decode?_append rest] at read
  obtain ⟨sameEnvelope, sameSize⟩ := Decoded.mk.inj (Option.some.inj read)
  exact Prod.ext sameEnvelope.symm (List.append_inj_left whole sameSize.symm)

/-- All that is taken from a stream is the longest run of frames at its front. -/
theorem heads_takeAll (stream : Stream) : Heads stream.pending stream.takeAll.1 := by
  rw [Stream.takeAll_eq]
  induction stream using Stream.apart with
  | waiting stream awaits =>
      rw [Stream.answers_waiting awaits]
      refine ⟨[], isRun_nil _, ?_, rfl⟩
      intro other run
      cases other with
      | nil => exact List.nil_prefix
      | cons first later =>
          obtain ⟨tail, whole⟩ := (List.prefix_append _ _).trans run.2
          have settled := Stream.awaitsMore_of_canonical (run.1 first List.mem_cons_self) tail
          rw [whole, awaits] at settled
          cases settled
  | broken stream broken =>
      rw [Stream.answers_broken broken]
      refine ⟨[], isRun_nil _, ?_, rfl⟩
      intro other run
      cases other with
      | nil => exact List.nil_prefix
      | cons first later =>
          obtain ⟨tail, whole⟩ := (List.prefix_append _ _).trans run.2
          have read := (run.1 first List.mem_cons_self).decode?_append tail
          rw [whole, broken.2] at read
          cases read
  | framed envelope frame rest canonical ih =>
      obtain ⟨run, begins, longest, envelopes⟩ := ih
      rw [Stream.answers_frame canonical]
      refine ⟨(envelope, frame) :: run, (isRun_cons canonical).2 begins, ?_,
        congrArg (envelope :: ·) envelopes⟩
      intro other otherRun
      cases other with
      | nil => exact List.nil_prefix
      | cons first later =>
          cases eq_of_front canonical otherRun
          exact (List.cons_prefix_cons).2
            ⟨rfl, longest later ((isRun_cons canonical).1 otherRun)⟩

end Frame

/-! ### Waiting -/

namespace Machine

variable {machine : Machine} {timeout : Int}

theorem await_cases (machine : Machine) (timeout : Int) :
    machine.await timeout = (.stopped, machine) ∨
    (machine.await timeout = (.nothing, { machine with now := machine.now + timeout }) ∧
      0 ≤ timeout) ∨
    ∃ arrival rest, machine.arrivals = arrival :: rest ∧
      machine.await timeout =
        (heard arrival.signal,
          { machine with now := max machine.now arrival.time, arrivals := rest }) ∧
      (0 ≤ timeout → arrival.time ≤ machine.now + timeout) := by
  have waitOut_cases : machine.waitOut timeout = (.stopped, machine) ∨
      (machine.waitOut timeout = (.nothing, { machine with now := machine.now + timeout }) ∧
        0 ≤ timeout) := by
    unfold waitOut
    split
    · exact .inl rfl
    · next patient =>
        simp only [Bool.or_eq_true, decide_eq_true_eq, not_or] at patient
        exact .inr ⟨rfl, Int.not_lt.1 patient.1⟩
  cases first : machine.arrivals with
  | nil =>
      have opened : machine.await timeout = machine.waitOut timeout := by rw [await, first]
      rw [first] at waitOut_cases
      rw [opened]
      exact waitOut_cases.imp_right .inl
  | cons arrival rest =>
      have opened : machine.await timeout =
          if timeout < 0 || arrival.time ≤ machine.now + timeout then
            if machine.conditions.horizon < arrival.time then (.stopped, machine)
            else
              (heard arrival.signal,
                { machine with now := max machine.now arrival.time, arrivals := rest })
          else machine.waitOut timeout := by
        rw [await, first]
      rw [opened]
      rw [first] at waitOut_cases
      split
      · next reached =>
          simp only [Bool.or_eq_true, decide_eq_true_eq] at reached
          split
          · exact .inl rfl
          · exact .inr (.inr ⟨arrival, rest, rfl, rfl, fun patient => by omega⟩)
      · exact waitOut_cases.imp_right .inl

def takenBy (before after : Machine) : List Arrival :=
  before.arrivals.take (before.arrivals.length - after.arrivals.length)

theorem takenBy_of_same {before after : Machine} (same : after.arrivals = before.arrivals) :
    before.takenBy after = [] := by
  rw [takenBy, same, Nat.sub_self, List.take_zero]

theorem takenBy_of_taken {before after : Machine} {arrival : Arrival}
    (taken : before.arrivals = arrival :: after.arrivals) :
    before.takenBy after = [arrival] := by
  rw [takenBy, taken, List.length_cons, Nat.add_sub_cancel_left]
  rfl

end Machine

namespace Transport

/-- What is asked of the machine for the next message: how long to wait, or nothing at all. -/
def request (transport : Transport) (millis : Int) : Option Int :=
  if transport.received.isEmpty then some (pollTimeout millis) else none

def takeIn (transport : Transport) : Awaited → Received × Transport
  | .datagram payload => (transport.absorb payload).handOn
  | .nothing => (.nothing, transport)
  | .stopped => (.stopped, transport)

variable {transport : Transport} {machine : Machine} {millis : Int}

/-- The request is all that the machine gets to see of a transport that awaits a message. -/
theorem receive_eq (transport : Transport) (machine : Machine) (millis : Int) :
    transport.receive machine millis =
      match transport.request millis with
      | none => (transport.handOn.1, transport.handOn.2, machine)
      | some timeout =>
          ((transport.takeIn (machine.await timeout).1).1,
            (transport.takeIn (machine.await timeout).1).2, (machine.await timeout).2) := by
  unfold receive request
  cases transport.received.isEmpty with
  | false => rfl
  | true =>
      simp only [if_true]
      cases machine.await (pollTimeout millis) with
      | mk awaited after =>
          cases awaited with
          | datagram payload => rfl
          | nothing => rfl
          | stopped => rfl

theorem request_of_waiting {envelope : Envelope} {rest : List Envelope}
    (waiting : transport.received = envelope :: rest) : transport.request millis = none := by
  rw [request, waiting]
  rfl

theorem request_of_empty (empty : transport.received = []) :
    transport.request millis = some (pollTimeout millis) := by
  rw [request, empty]
  rfl

theorem receive_of_waiting {envelope : Envelope} {rest : List Envelope}
    (waiting : transport.received = envelope :: rest) (machine : Machine) (millis : Int) :
    transport.receive machine millis =
      (.envelope envelope, { transport with received := rest }, machine) := by
  rw [receive_eq, request_of_waiting waiting, handOn, waiting]

theorem receive_of_empty (empty : transport.received = []) (machine : Machine) (millis : Int) :
    transport.receive machine millis =
      ((transport.takeIn (machine.await (pollTimeout millis)).1).1,
        (transport.takeIn (machine.await (pollTimeout millis)).1).2,
        (machine.await (pollTimeout millis)).2) := by
  rw [receive_eq, request_of_empty empty]

def Received.envelopes : Received → List Envelope
  | .envelope handed => [handed]
  | .nothing => []
  | .stopped => []

theorem handOn_received (transport : Transport) :
    transport.handOn.1.envelopes ++ transport.handOn.2.received = transport.received := by
  unfold handOn
  split
  · exact List.nil_append _
  · next waiting => exact waiting.symm

theorem handOn_stream (transport : Transport) :
    transport.handOn.2.stream = transport.stream := by
  unfold handOn
  split
  · rfl
  · rfl

/-- Nothing of an earlier datagram gets in the way of the frames of the next one. -/
theorem heads_absorb (fresh : transport.stream = {}) (payload : Bytes) :
    ∃ envelopes, Frame.Heads payload envelopes ∧
      (transport.absorb payload).received = transport.received ++ envelopes := by
  refine ⟨_, Frame.heads_takeAll ⟨payload⟩, ?_⟩
  unfold absorb
  rw [fresh]
  rfl

end Transport

/-! ### Books -/

def Signal.Holds : Signal → List Envelope → Prop
  | .datagram payload, envelopes => Frame.Heads (payload.take Machine.maxDatagram) envelopes
  | .readFailure, envelopes => envelopes = []
  | .waitFailure, envelopes => envelopes = []

/-- A transport on its machine, all arrivals that it has taken so far, and all envelopes that it
has handed on. -/
structure Book where
  transport : Transport
  machine : Machine
  taken : List Arrival := []
  handed : List Envelope := []
deriving DecidableEq

inductive Dealing
  /-- The next message is awaited, for so many milliseconds. -/
  | receive (millis : Int)
  /-- Something more is to happen on the inbound socket. -/
  | arrive (arrival : Arrival)
  | send (receiver : Int) (message : Message)
  | broadcast (message : Message)
deriving DecidableEq, Repr

namespace Book

def receive (book : Book) (millis : Int) : Book :=
  let (received, transport, machine) := book.transport.receive book.machine millis
  { transport, machine
    taken := book.taken ++ book.machine.takenBy machine
    handed := book.handed ++ received.envelopes }

def deal (book : Book) : Dealing → Book
  | .receive millis => book.receive millis
  | .arrive arrival => { book with machine := book.machine.addArrival arrival }
  | .send receiver message =>
      { book with machine := (book.transport.send book.machine receiver message).2 }
  | .broadcast message =>
      { book with machine := (book.transport.broadcast book.machine message).2 }

def after (book : Book) (dealings : List Dealing) : Book :=
  dealings.foldl deal book

/-- The books balance when all that the arrivals have held was handed on or is waiting, in order,
and no bytes are kept. -/
structure Balanced (book : Book) : Prop where
  accounted : ∃ held : List (List Envelope),
    List.Forall₂ (fun arrival envelopes => arrival.signal.Holds envelopes) book.taken held ∧
      book.handed ++ book.transport.received = held.flatten
  fresh : book.transport.stream = {}

variable {book : Book}

/-- A message is handed on from those that are waiting, and no arrival is taken; or no arrival is
taken and none is handed on; or one arrival is taken and its first envelope handed on. -/
theorem receive_cases (book : Book) (millis : Int) :
    (∃ envelope rest, book.transport.received = envelope :: rest ∧
      book.receive millis =
        { book with
          transport := { book.transport with received := rest }
          handed := book.handed ++ [envelope] }) ∨
    (∃ machine : Machine, machine.arrivals = book.machine.arrivals ∧
      book.receive millis = { book with machine }) ∨
    ∃ arrival machine, book.transport.received = [] ∧
      book.machine.arrivals = arrival :: machine.arrivals ∧
      book.receive millis =
        { transport := (book.transport.takeIn (Machine.heard arrival.signal)).2
          machine
          taken := book.taken ++ [arrival]
          handed := book.handed ++
            (book.transport.takeIn (Machine.heard arrival.signal)).1.envelopes } := by
  unfold receive
  cases waiting : book.transport.received with
  | cons envelope rest =>
      refine .inl ⟨envelope, rest, rfl, ?_⟩
      rw [Transport.receive_of_waiting waiting]
      simp only [Machine.takenBy_of_same, List.append_nil, Transport.Received.envelopes]
  | nil =>
      right
      rw [Transport.receive_of_empty waiting]
      rcases book.machine.await_cases (Transport.pollTimeout millis) with
        stopped | ⟨waited, -⟩ | ⟨arrival, rest, first, taken, -⟩
      · refine .inl ⟨book.machine, rfl, ?_⟩
        simp only [stopped, Transport.takeIn, Transport.Received.envelopes, List.append_nil,
          Machine.takenBy_of_same]
      · let later : Machine :=
          { book.machine with now := book.machine.now + Transport.pollTimeout millis }
        refine .inl ⟨later, rfl, ?_⟩
        have none : book.machine.takenBy later = [] := Machine.takenBy_of_same rfl
        simp only [waited, Transport.takeIn, Transport.Received.envelopes, List.append_nil]
        rw [none, List.append_nil]
      · let later : Machine :=
          { book.machine with now := max book.machine.now arrival.time, arrivals := rest }
        refine .inr ⟨arrival, later, rfl, first, ?_⟩
        have one : book.machine.takenBy later = [arrival] := Machine.takenBy_of_taken first
        simp only [taken]
        rw [one]

theorem Balanced.receive (balanced : book.Balanced) (millis : Int) :
    (book.receive millis).Balanced := by
  obtain ⟨held, holds, accounted⟩ := balanced.accounted
  rcases book.receive_cases millis with
    ⟨envelope, rest, waiting, after⟩ | ⟨machine, -, after⟩ |
      ⟨arrival, machine, empty, -, after⟩
  · rw [after]
    refine ⟨⟨held, holds, ?_⟩, balanced.fresh⟩
    rw [← accounted, waiting, List.append_assoc]
    rfl
  · rw [after]
    exact ⟨⟨held, holds, accounted⟩, balanced.fresh⟩
  · rw [after]
    rw [empty, List.append_nil] at accounted
    have joins : ∀ {envelopes : List Envelope}, arrival.signal.Holds envelopes →
        List.Forall₂ (fun arrival envelopes => arrival.signal.Holds envelopes)
          (book.taken ++ [arrival]) (held ++ [envelopes]) := by
      intro envelopes holdsLast
      exact List.rel_append holds (.cons holdsLast .nil)
    cases signal : arrival.signal with
    | datagram payload =>
        obtain ⟨envelopes, heads, received⟩ :=
          Transport.heads_absorb balanced.fresh (payload.take Machine.maxDatagram)
        rw [empty, List.nil_append] at received
        constructor
        · refine ⟨held ++ [envelopes], joins (by rw [signal]; exact heads), ?_⟩
          change (book.handed ++ Transport.Received.envelopes (Transport.handOn _).1) ++
            (Transport.handOn _).2.received = _
          rw [List.append_assoc, Transport.handOn_received, received, accounted,
            List.flatten_append, List.flatten_singleton]
        · exact Transport.handOn_stream _
    | readFailure =>
        refine ⟨⟨held ++ [[]], joins (by rw [signal]; rfl), ?_⟩, balanced.fresh⟩
        change (book.handed ++ []) ++ book.transport.received = _
        rw [empty, accounted, List.flatten_append]
        simp
    | waitFailure =>
        refine ⟨⟨held ++ [[]], joins (by rw [signal]; rfl), ?_⟩, balanced.fresh⟩
        change (book.handed ++ []) ++ book.transport.received = _
        rw [empty, accounted, List.flatten_append]
        simp

theorem Balanced.deal (balanced : book.Balanced) (dealing : Dealing) :
    (book.deal dealing).Balanced := by
  cases dealing with
  | receive millis => exact balanced.receive millis
  | arrive arrival => exact ⟨balanced.accounted, balanced.fresh⟩
  | send receiver message => exact ⟨balanced.accounted, balanced.fresh⟩
  | broadcast message => exact ⟨balanced.accounted, balanced.fresh⟩

theorem Balanced.after (balanced : book.Balanced) (dealings : List Dealing) :
    (book.after dealings).Balanced := by
  induction dealings generalizing book with
  | nil => exact balanced
  | cons dealing rest ih => exact ih (balanced.deal dealing)

theorem receive_takes (book : Book) (millis : Int) :
    ∃ taken, book.machine.arrivals = taken ++ (book.receive millis).machine.arrivals ∧
      (book.receive millis).taken = book.taken ++ taken := by
  rcases book.receive_cases millis with
    ⟨envelope, rest, -, after⟩ | ⟨machine, same, after⟩ | ⟨arrival, machine, -, first, after⟩
  · rw [after]
    exact ⟨[], rfl, (List.append_nil _).symm⟩
  · rw [after]
    exact ⟨[], same.symm, (List.append_nil _).symm⟩
  · rw [after]
    exact ⟨[arrival], first, rfl⟩

end Book

namespace Transport

theorem setUp_fresh {machine after : Machine} {self : Int} {peers : List Address} {port : Nat}
    {persistence : Persistence} {transport : Transport}
    (made : setUp machine self peers port persistence = (.ok transport, after)) :
    transport.stream = {} ∧ transport.received = [] := by
  unfold setUp at made
  split at made
  · cases made
  · split at made
    · cases made
    · cases made
      exact ⟨rfl, rfl⟩

/-- A transport has been set up, and then messages are awaited and sent while things happen on the
inbound socket. All that it has handed on, and what is waiting behind it, are the envelopes of the
arrivals that it has taken: of each datagram, cut to the most bytes that are read, those of the
longest run of canonical frames in front. Arrivals are taken from the front, no bytes stay behind,
and nothing is asked of the machine while an envelope is waiting. -/
theorem envelopes_come_once_and_in_order {machine after : Machine} {self : Int}
    {peers : List Address} {port : Nat} {persistence : Persistence} {transport : Transport}
    (made : setUp machine self peers port persistence = (.ok transport, after))
    (dealings : List Dealing) :
    let book := (Book.mk transport after [] []).after dealings
    (∃ held : List (List Envelope),
      List.Forall₂ (fun arrival envelopes => arrival.signal.Holds envelopes) book.taken held ∧
        book.handed ++ book.transport.received = held.flatten) ∧
    (∀ millis, ∃ taken,
      book.machine.arrivals = taken ++ (book.receive millis).machine.arrivals ∧
        (book.receive millis).taken = book.taken ++ taken) ∧
    book.transport.stream = {} ∧
    ∀ envelope rest, book.transport.received = envelope :: rest → ∀ millis,
      book.transport.request millis = none ∧
        ∀ machine, book.transport.receive machine millis =
          (.envelope envelope, { book.transport with received := rest }, machine) := by
  intro book
  obtain ⟨fresh, empty⟩ := setUp_fresh made
  have opening : (Book.mk transport after [] []).Balanced := by
    refine ⟨⟨[], .nil, ?_⟩, fresh⟩
    rw [empty]
    rfl
  have balanced : book.Balanced := opening.after dealings
  refine ⟨balanced.accounted, book.receive_takes, balanced.fresh, ?_⟩
  intro envelope rest waiting millis
  exact ⟨request_of_waiting waiting, fun machine => receive_of_waiting waiting machine millis⟩

/-- A datagram with two frames and the beginning of a third, one that is cut short, a failure, and
a good one. Three messages are taken and one is waiting. -/
theorem envelopes_come_once_and_in_order_of_mixed_datagrams :
    let good : Bytes := [0, 0, 0, 12, 0, 0, 0, 1, 0, 0, 0, 2, 0, 0, 0, 9]
    let machine : Machine :=
      { arrivals :=
          [⟨3, .datagram (good ++ good ++ [0, 0, 0, 12, 0, 0])⟩, ⟨4, .datagram (good.take 15)⟩,
            ⟨4, .readFailure⟩, ⟨7, .datagram (good ++ good ++ [255, 255, 255, 255])⟩] }
    let asked := setUp machine 0 [⟨[97], 5000⟩] 5000 {}
    ∃ transport after, asked = (.ok transport, after) ∧
      let book := (Book.mk transport after [] []).after (List.replicate 5 (.receive 10))
      (book.handed = List.replicate 3 ⟨1, .viewChange 9⟩ ∧
        book.transport.received = [⟨1, .viewChange 9⟩] ∧ book.taken.length = 4) ∧
      ∃ held : List (List Envelope),
        List.Forall₂ (fun arrival envelopes => arrival.signal.Holds envelopes) book.taken held ∧
          book.handed ++ book.transport.received = held.flatten := by
  intro good machine asked
  have made : asked = (.ok _, _) := rfl
  refine ⟨_, _, made, by decide +kernel, ?_⟩
  exact (envelopes_come_once_and_in_order made (List.replicate 5 (.receive 10))).1

end Transport

end ViewSync
