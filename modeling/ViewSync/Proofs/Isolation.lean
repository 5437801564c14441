import Mathlib.Data.List.ReduceOption
import ViewSync.Proofs.Passage
import ViewSync.Proofs.Spelling
import ViewSync.Proofs.Targets

/-!
What peers have to do with each other.

Whatever is broadcast goes to the peers that were found, in the order of the roster, one datagram
for each, and goes on to the next whatever becomes of a single sending. Together with what is known
of lookups this means that the troubles of one peer are its own. Two machines on which only the
lookups of its host and the sendings to its address turn out differently see the same datagrams to
all the others.
-/

namespace ViewSync

/-! ### Sendings -/

structure Dispatch where
  target : Bytes
  payload : Bytes
  complete : Bool
deriving DecidableEq, Repr

def Sending.dispatch (sending : Sending) : Dispatch :=
  ⟨sending.target, sending.payload, sending.complete⟩

def Conditions.carries (conditions : Conditions) (target : Bytes) : Bool :=
  !conditions.failingTargets.contains target && !conditions.shortTargets.contains target

def Message.NonNegative : Message → Prop
  | .viewChange view => 0 ≤ view
  | .viewProof view attestations =>
      0 ≤ view ∧ ∀ attestation ∈ attestations, 0 ≤ attestation.sender ∧ 0 ≤ attestation.view

theorem Frame.encodes_iff {self : Int} (seated : 0 ≤ self) (message : Message) :
    (∃ frame, encode ⟨self, message⟩ = .ok frame) ↔ message.NonNegative := by
  have signed : (∃ frame, encode ⟨self, message⟩ = .ok frame) ↔
      ∀ field ∈ signed ⟨self, message⟩, 0 ≤ field.value := by
    simp only [encode_eq_ok_iff, exists_and_left, exists_eq, and_true]
  rw [signed]
  cases message with
  | viewChange view => exact (@forall_signed_viewChange (0 ≤ ·) _ _).trans (and_iff_right seated)
  | viewProof view attestations =>
      exact (@forall_signed_viewProof (0 ≤ ·) _ _ _).trans (and_iff_right seated)

namespace Conditions

def troubled (conditions : Conditions) (failingLookups : List (Bytes × Int))
    (failingTargets shortTargets : List Bytes) : Conditions :=
  { conditions with failingLookups, failingTargets, shortTargets }

/-- Only lookups of the host of the peer, and sendings to it, may turn out differently. -/
structure AlikeButFor (first second : Conditions) (peer : Address) : Prop where
  lookups : ∀ host, host ≠ peer.host → ∀ earlier,
    Machine.lookupFails second host earlier = Machine.lookupFails first host earlier
  carries : ∀ target, target ≠ peer.toBytes → second.carries target = first.carries target

end Conditions

def Address.dispatch (conditions : Conditions) (frame : Bytes) (address : Address) : Dispatch :=
  ⟨address.toBytes, frame, conditions.carries address.toBytes⟩

namespace Transport

section Sending

def dispatches (self : Int) (conditions : Conditions) (message : Message)
    (peers : List (Option Address)) : List Dispatch :=
  match Frame.encode ⟨self, message⟩ with
  | .error _ => []
  | .ok frame => peers.reduceOption.map (·.dispatch conditions frame)

/-- Whatever becomes of a sending, the next one follows. -/
theorem sendEach_dispatches (frame : Bytes) (peers : List (Option Address)) (machine : Machine) :
    (sendEach frame peers machine).1.map Sending.dispatch =
      peers.reduceOption.map (·.dispatch machine.conditions frame) := by
  induction peers generalizing machine with
  | nil => rfl
  | cons peer rest ih =>
      cases peer with
      | none => exact ih machine
      | some address =>
          have later := ih (machine.send address frame).2
          rw [(machine.atOnce_send address frame).conditions] at later
          rw [List.reduceOption_cons_of_some, List.map_cons, ← later]
          rfl

theorem sendTo_dispatches (transport : Transport) (machine : Machine)
    (peers : List (Option Address)) (message : Message) :
    (transport.sendTo machine peers message).1.map Sending.dispatch =
      dispatches transport.self machine.conditions message peers := by
  unfold sendTo dispatches
  cases Frame.encode ⟨transport.self, message⟩ with
  | error field => rfl
  | ok frame => exact sendEach_dispatches frame peers machine

/-- A message goes to all peers that were found, or if it cannot be written, to nobody. -/
theorem broadcast_dispatches {transport : Transport} (seated : 0 ≤ transport.self)
    (machine : Machine) (message : Message) :
    (message.NonNegative → ∃ frame, Frame.encode ⟨transport.self, message⟩ = .ok frame ∧
      (transport.broadcast machine message).1.map Sending.dispatch =
        transport.peers.reduceOption.map (·.dispatch machine.conditions frame)) ∧
    (¬ message.NonNegative → transport.broadcast machine message = ([], machine)) := by
  have encodes := Frame.encodes_iff seated message
  constructor
  · intro nonNegative
    obtain ⟨frame, encoded⟩ := encodes.2 nonNegative
    refine ⟨frame, encoded, ?_⟩
    have dispatched := sendTo_dispatches transport machine transport.peers message
    rw [dispatches, encoded] at dispatched
    exact dispatched
  · intro negative
    unfold broadcast sendTo
    cases written : Frame.encode ⟨transport.self, message⟩ with
    | error field => rfl
    | ok frame => exact absurd (encodes.1 ⟨frame, written⟩) negative

theorem reduceOption_cons {α : Type} (first : Option α) (rest : List (Option α)) :
    (first :: rest).reduceOption = first.toList ++ rest.reduceOption := by
  cases first with
  | none => rfl
  | some value => rfl

section Alike

variable {target : Bytes} {first second : Conditions}

theorem filter_dispatch_of_target (conditions : Conditions) (frame : Bytes) {peer : Option Address}
    (targeted : ∀ address, some address = peer → address.toBytes = target) :
    (peer.toList.map (·.dispatch conditions frame)).filter (·.target ≠ target) = [] := by
  cases peer with
  | none => rfl
  | some address => simp [Address.dispatch, targeted address rfl]

theorem filter_dispatch_alike
    (carries : ∀ other, other ≠ target → second.carries other = first.carries other)
    (frame : Bytes) (peer : Option Address) :
    (peer.toList.map (·.dispatch second frame)).filter (·.target ≠ target) =
      (peer.toList.map (·.dispatch first frame)).filter (·.target ≠ target) := by
  cases peer with
  | none => rfl
  | some address =>
      by_cases targeted : address.toBytes = target
      · simp [Address.dispatch, targeted]
      · simp [Address.dispatch, carries address.toBytes targeted]

theorem dispatches_alike
    (carries : ∀ other, other ≠ target → second.carries other = first.carries other)
    (self : Int) (message : Message) {one other : List (Option Address)}
    (alike : List.Forall₂ (AlikeBut target) one other) :
    (dispatches self second message other).filter (·.target ≠ target) =
      (dispatches self first message one).filter (·.target ≠ target) := by
  unfold dispatches
  cases Frame.encode ⟨self, message⟩ with
  | error field => rfl
  | ok frame =>
      dsimp only
      induction alike with
      | nil => rfl
      | cons like _ ih =>
          rw [reduceOption_cons, reduceOption_cons, List.map_append, List.map_append,
            List.filter_append, List.filter_append, ih]
          rcases like with rfl | targeted
          · rw [filter_dispatch_alike carries]
          · rw [filter_dispatch_of_target second frame fun address found =>
              targeted address (.inr found)]
            rw [filter_dispatch_of_target first frame fun address found =>
              targeted address (.inl found)]

end Alike

end Sending

/-! ### Trouble with one peer -/

section Trouble

variable (machine : Machine) (failingLookups : List (Bytes × Int))
  (failingTargets shortTargets : List Bytes) (port : Nat)

theorem bind_troubled :
    let conditions := machine.conditions.troubled failingLookups failingTargets shortTargets
    ({ machine with conditions } : Machine).bind port =
      ((machine.bind port).1, { (machine.bind port).2 with conditions }) := by
  unfold Machine.bind
  dsimp only [Conditions.troubled]
  split
  · rfl
  · split
    · rfl
    · split
      · rfl
      · rfl

theorem bindBoth_troubled :
    let conditions := machine.conditions.troubled failingLookups failingTargets shortTargets
    bindBoth { machine with conditions } port =
      ((bindBoth machine port).1, { (bindBoth machine port).2 with conditions }) := by
  have first := machine.atOnce_bind port
  have bound := bind_troubled machine failingLookups failingTargets shortTargets port
  intro conditions
  unfold bindBoth
  rw [bound]
  cases inbound : machine.bind port with
  | mk binding after =>
      rw [inbound] at first
      cases binding with
      | noSocket => rfl
      | refused refusal => rfl
      | bound socket =>
          have second :=
            bind_troubled after failingLookups failingTargets shortTargets (portAfter port)
          have same : after.conditions = machine.conditions := first.conditions
          rw [same] at second
          dsimp only
          rw [second]
          cases after.bind (portAfter port) with
          | mk other last =>
              cases other with
              | noSocket => rfl
              | refused refusal => rfl
              | bound socket => rfl

end Trouble

/-- Under conditions that differ for one peer a transport is set up as well, and has found the same
peers but that one. -/
theorem setUp_alike {machine after : Machine} {self : Int} {peers : List Address} {port : Nat}
    {persistence : Persistence} {transport : Transport}
    (made : setUp machine self peers port persistence = (.ok transport, after))
    {peer : Address} (alone : ∀ other ∈ peers.map Address.named,
      other.host = peer.host → other = peer)
    {failingLookups : List (Bytes × Int)} {failingTargets shortTargets : List Bytes}
    (alike : machine.conditions.AlikeButFor
      (machine.conditions.troubled failingLookups failingTargets shortTargets) peer) :
    ∃ different afterwards,
      setUp
        { machine with
          conditions := machine.conditions.troubled failingLookups failingTargets shortTargets }
        self peers port persistence = (.ok different, afterwards) ∧
      different.self = transport.self ∧
      List.Forall₂ (AlikeBut peer.toBytes) transport.peers different.peers := by
  obtain ⟨seated, inboundSocket, outboundSocket, bound, sockets, rfl, -⟩ :=
    setUp_eq_ok_iff.1 made
  have otherSockets := bindBoth_troubled machine failingLookups failingTargets shortTargets port
  have keeps := (atOnce_bindBoth machine port).conditions
  rw [sockets] at otherSockets keeps
  change bound.conditions = machine.conditions at keeps
  have lookups : bound.Alike peer.host
      { bound with
        conditions := machine.conditions.troubled failingLookups failingTargets shortTargets } := by
    refine ⟨?_, fun _ _ => rfl⟩
    rw [keeps]
    exact alike.lookups
  refine ⟨_, _, setUp_eq_ok_iff.2 ⟨seated, inboundSocket, outboundSocket, _, otherSockets, rfl,
    rfl⟩, rfl, ?_⟩
  exact resolve_alike persistence lookups
    fun other present same => congrArg Address.toBytes (alone other present same)

end Transport

/-! ### Runs -/

def Dealing.dispatches (self : Int) (conditions : Conditions) (peers : List (Option Address)) :
    Dealing → List Dispatch
  | .receive _ => []
  | .arrive _ => []
  | .send receiver message =>
      Transport.dispatches self conditions message
        (if 0 ≤ receiver then peers[receiver.toNat]?.toList else [])
  | .broadcast message => Transport.dispatches self conditions message peers

namespace Book

def sends (book : Book) : Dealing → List Sending
  | .receive _ => []
  | .arrive _ => []
  | .send receiver message => (book.transport.send book.machine receiver message).1
  | .broadcast message => (book.transport.broadcast book.machine message).1

def sent (book : Book) : List Dealing → List Sending
  | [] => []
  | dealing :: rest => book.sends dealing ++ (book.deal dealing).sent rest

structure Keeps (before after : Book) : Prop where
  self : after.transport.self = before.transport.self
  peers : after.transport.peers = before.transport.peers
  conditions : after.machine.conditions = before.machine.conditions

theorem receive_keeps (book : Book) (millis : Int) : book.Keeps (book.receive millis) := by
  have handsOn : ∀ transport : Transport, transport.handOn.2.self = transport.self ∧
      transport.handOn.2.peers = transport.peers := by
    intro transport
    unfold Transport.handOn
    split
    · exact ⟨rfl, rfl⟩
    · exact ⟨rfl, rfl⟩
  have takesIn : ∀ awaited, (book.transport.takeIn awaited).2.self = book.transport.self ∧
      (book.transport.takeIn awaited).2.peers = book.transport.peers := by
    intro awaited
    cases awaited with
    | datagram payload => exact handsOn (book.transport.absorb payload)
    | nothing => exact ⟨rfl, rfl⟩
    | stopped => exact ⟨rfl, rfl⟩
  let received := book.transport.receive book.machine millis
  have answer : received = _ := book.transport.receive_eq book.machine millis
  change book.Keeps ⟨received.2.1, received.2.2, _, _⟩
  rw [answer]
  cases book.transport.request millis with
  | none => exact ⟨(handsOn book.transport).1, (handsOn book.transport).2, rfl⟩
  | some timeout =>
      exact ⟨(takesIn _).1, (takesIn _).2, (book.machine.precedes_await timeout).conditions⟩

theorem deal_keeps (book : Book) (dealing : Dealing) : book.Keeps (book.deal dealing) := by
  cases dealing with
  | receive millis => exact book.receive_keeps millis
  | arrive arrival => exact ⟨rfl, rfl, rfl⟩
  | send receiver message => exact ⟨rfl, rfl, (Transport.atOnce_sendTo _ _ _ _).conditions⟩
  | broadcast message => exact ⟨rfl, rfl, (Transport.atOnce_sendTo _ _ _ _).conditions⟩

theorem after_keeps (book : Book) (dealings : List Dealing) : book.Keeps (book.after dealings) := by
  induction dealings generalizing book with
  | nil => exact ⟨rfl, rfl, rfl⟩
  | cons dealing rest ih =>
      have first := book.deal_keeps dealing
      have later := ih (book.deal dealing)
      exact ⟨later.self.trans first.self, later.peers.trans first.peers,
        later.conditions.trans first.conditions⟩

theorem sends_dispatches (book : Book) (dealing : Dealing) :
    (book.sends dealing).map Sending.dispatch =
      dealing.dispatches book.transport.self book.machine.conditions book.transport.peers := by
  cases dealing with
  | receive millis => rfl
  | arrive arrival => rfl
  | send receiver message => exact Transport.sendTo_dispatches _ _ _ message
  | broadcast message => exact Transport.sendTo_dispatches _ _ _ message

/-- What is sent in a run does not depend on what has become of earlier sendings in it. -/
theorem sent_dispatches (book : Book) (dealings : List Dealing) :
    (book.sent dealings).map Sending.dispatch =
      dealings.flatMap
        (·.dispatches book.transport.self book.machine.conditions book.transport.peers) := by
  induction dealings generalizing book with
  | nil => rfl
  | cons dealing rest ih =>
      have keeps := book.deal_keeps dealing
      rw [sent, List.map_append, ih, sends_dispatches, keeps.self, keeps.peers, keeps.conditions]
      rfl

end Book

theorem Dealing.dispatches_alike {target : Bytes} {first second : Conditions}
    (carries : ∀ other, other ≠ target → second.carries other = first.carries other) (self : Int)
    {one other : List (Option Address)}
    (alike : List.Forall₂ (Transport.AlikeBut target) one other) (dealing : Dealing) :
    (dealing.dispatches self second other).filter (·.target ≠ target) =
      (dealing.dispatches self first one).filter (·.target ≠ target) := by
  cases dealing with
  | receive millis => rfl
  | arrive arrival => rfl
  | send receiver message =>
      apply Transport.dispatches_alike carries
      split
      · have entry : ∀ position : Nat,
            List.Forall₂ (Transport.AlikeBut target) one[position]?.toList
              other[position]?.toList := by
          intro position
          induction alike generalizing position with
          | nil => exact .nil
          | cons like _ ih =>
              cases position with
              | zero => exact .cons like .nil
              | succ position => exact ih position
        exact entry _
      · exact .nil
  | broadcast message => exact Transport.dispatches_alike carries self message alike

theorem Book.sent_alike {target : Bytes} {first second : Book}
    (self : second.transport.self = first.transport.self)
    (peers : List.Forall₂ (Transport.AlikeBut target) first.transport.peers
      second.transport.peers)
    (carries : ∀ other, other ≠ target →
      second.machine.conditions.carries other = first.machine.conditions.carries other)
    (dealings : List Dealing) :
    ((second.sent dealings).map Sending.dispatch).filter (·.target ≠ target) =
      ((first.sent dealings).map Sending.dispatch).filter (·.target ≠ target) := by
  rw [sent_dispatches, sent_dispatches, List.filter_flatMap, List.filter_flatMap, self]
  exact List.flatMap_congr fun dealing _ => dealing.dispatches_alike carries _ peers

namespace Transport

/-- A transport is set up for any peers on any machine, and then messages are awaited and sent. A
peer has been found if one of the attempts at its host has succeeded, beginning with the first
lookup of the host unless an earlier peer has the same one. Whenever a message without negative
numbers is broadcast, each peer that was found is sent the frame of the message, in the order of
the list and the sender included, and nobody else is sent anything. A message with a negative
number leaves the machine alone. And if the lookups of the host of one peer turned out in some other
way, and so did the sendings to that peer, then the transport would be set up as well and all the
other peers would be sent the same. -/
theorem peers_are_isolated {machine after : Machine} {self : Int} {peers : List Address}
    {port : Nat} {persistence : Persistence} {transport : Transport}
    (made : setUp machine self peers port persistence = (.ok transport, after)) :
    (∀ earlier peer later, peers = earlier ++ peer :: later →
      let turn := (resolve persistence (earlier.map Address.named) (bindBoth machine port).2).2
      transport.peers[earlier.length]? =
        some (if ∃ attempt < persistence.attempts, turn.answers peer.named.host attempt = true
          then some peer.named else none) ∧
      ((∀ other ∈ earlier, other.named.host ≠ peer.named.host) →
        ∀ attempt, turn.answers peer.named.host attempt =
          machine.answers peer.named.host attempt)) ∧
    (0 ≤ self ∧ self < transport.peers.length ∧ transport.peers.length = peers.length) ∧
    (∀ (dealings : List Dealing) (message : Message),
      let book := (Book.mk transport after [] []).after dealings
      (message.NonNegative → ∃ frame, Frame.encode ⟨self, message⟩ = .ok frame ∧
        (book.transport.broadcast book.machine message).1.map Sending.dispatch =
          transport.peers.reduceOption.map fun address =>
            ⟨address.toBytes, frame, machine.conditions.carries address.toBytes⟩) ∧
      (¬ message.NonNegative →
        book.transport.broadcast book.machine message = ([], book.machine))) ∧
    ∀ peer ∈ peers.map Address.named,
      (∀ other ∈ peers.map Address.named, other.host = peer.host → other = peer) →
      (∀ other ∈ peers.map Address.named, other ≠ peer → other.toBytes ≠ peer.toBytes) ∧
      ∀ failingLookups failingTargets shortTargets,
        let conditions := machine.conditions.troubled failingLookups failingTargets shortTargets
        machine.conditions.AlikeButFor conditions peer →
        ∃ different afterwards,
          setUp { machine with conditions } self peers port persistence =
            (.ok different, afterwards) ∧
          ∀ dealings : List Dealing,
            (((Book.mk different afterwards [] []).sent dealings).map Sending.dispatch).filter
                (·.target ≠ peer.toBytes) =
              (((Book.mk transport after [] []).sent dealings).map Sending.dispatch).filter
                (·.target ≠ peer.toBytes) := by
  have conditions := (precedes_setUp made).conditions
  obtain ⟨seated, _, _, bound, -, found, -⟩ := setUp_eq_ok_iff.1 made
  have place : transport.self = self := by rw [found]
  refine ⟨?_, ?_, ?_, ?_⟩
  · rintro earlier peer later rfl
    exact ⟨getElem?_setUp made, fun others => answers_of_turn persistence others machine port⟩
  · have length := length_resolve persistence (peers.map Address.named) bound
    rw [List.length_map] at length
    rw [found, length]
    exact ⟨seated.1, seated.2, rfl⟩
  · intro dealings message book
    have keeps : Book.Keeps _ book := Book.after_keeps _ dealings
    have self_eq : book.transport.self = self := keeps.self.trans place
    have answers := broadcast_dispatches (self_eq ▸ seated.1) book.machine message
    rw [self_eq, keeps.peers, keeps.conditions.trans conditions] at answers
    exact answers
  · intro peer listed alone
    refine ⟨fun other _ different same => different (Address.toBytes_injective same), ?_⟩
    intro failingLookups failingTargets shortTargets altered alike
    obtain ⟨different, afterwards, madeToo, sameSelf, samePeers⟩ := setUp_alike made alone alike
    refine ⟨different, afterwards, madeToo, fun dealings => ?_⟩
    apply Book.sent_alike sameSelf samePeers
    change ∀ other, _ → afterwards.conditions.carries other = after.conditions.carries other
    rw [(precedes_setUp madeToo).conditions, conditions]
    exact alike.carries

/-- The first of three peers is found at the last attempt and gets datagrams that are cut short, the
third is never found. If the first had not been found either, the second would be sent the same. -/
theorem peers_are_isolated_of_late_answer :
    let first : Address := ⟨[97], 5000⟩
    let peers := [first, ⟨[98], 5002⟩, ⟨[99], 5004⟩]
    let machine : Machine :=
      { conditions :=
          { failingLookups := [([97], 2), ([99], -1)], shortTargets := [first.toBytes] } }
    let conditions := machine.conditions.troubled [([97], 3), ([99], -1)] [] []
    let asked := setUp machine 1 peers 5002 { attempts := 3 }
    ∃ transport after, asked = (.ok transport, after) ∧
      transport.peers = [some first, some ⟨[98], 5002⟩, none] ∧
      (first ∈ peers.map Address.named ∧
        (∀ other ∈ peers.map Address.named, other.host = first.host → other = first) ∧
        machine.conditions.AlikeButFor conditions first) ∧
      ∃ different afterwards,
        setUp { machine with conditions } 1 peers 5002 { attempts := 3 } =
          (.ok different, afterwards) ∧
        ∀ dealings : List Dealing,
          (((Book.mk different afterwards [] []).sent dealings).map Sending.dispatch).filter
              (·.target ≠ first.toBytes) =
            (((Book.mk transport after [] []).sent dealings).map Sending.dispatch).filter
              (·.target ≠ first.toBytes) := by
  intro first peers machine conditions asked
  have made : asked = (.ok _, _) := rfl
  have listed : first ∈ peers.map Address.named := by decide +kernel
  have alone : ∀ other ∈ peers.map Address.named, other.host = first.host → other = first := by
    decide +kernel
  have alike : machine.conditions.AlikeButFor conditions first := by
    constructor
    · intro host different earlier
      have apart : (host == [97]) = false := beq_false_of_ne different
      simp [Machine.lookupFails, machine, conditions, Conditions.troubled, List.lookup_cons, apart]
    · intro target different
      simp [Conditions.carries, machine, conditions, Conditions.troubled, different]
  exact ⟨_, _, made, by decide +kernel, ⟨listed, alone, alike⟩,
    ((peers_are_isolated made).2.2.2 first listed alone).2 _ _ _ alike⟩

end Transport

end ViewSync
