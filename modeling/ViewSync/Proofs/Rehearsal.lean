import ViewSync.Proofs.Hearsay
import ViewSync.Proofs.Watcher

/-!
Rehearsals of a test case.

Every replica of a roster is set up on a machine of its own and runs the same test case. In which
order the replicas take their turns, how much time passes in between, and which of the datagrams
that were sent to a replica reaches it in a turn, if any, is open: a datagram may be late, come more
than once or never come. Nothing else is ever put on the network. A replica that has crashed,
finished or stopped takes no more turns, but what it has sent may still arrive.

A turn is made of passages, in each of which the replica is supplied by its machine, or asks its
timers, or hears a message.
-/

namespace ViewSync

open Cluster (neverHalts)

/-! ### A replica's turn as seen from outside -/

namespace Replica

def replies (replica : Replica) : List Event :=
  match replica.hear.1 with
  | .envelope envelope => (replica.hear.2.answer envelope).events
  | _ => []

def deeds (replica : Replica) : List Event :=
  replica.firing.events ++
    if replica.fireDue.2.isSome then [] else replica.fireDue.1.replies

def endingAfter (moved : Replica) (halt : Option Int) : Option Ending :=
  match halt with
  | some view => some (.crashed view)
  | none => if moved.finished then some .finished else none

end Replica

/-- A replica that takes part, and how its loop ended, if it did. -/
structure Player where
  replica : Replica
  ending : Option Ending := none

structure Rehearsal where
  roster : Roster
  testCase : TestCase
  players : List Player
  /-- All that the players have done so far, in order. -/
  seen : List (Nat × Event) := []

/-- The machine that a replica is set up on, and its intervals in milliseconds. -/
structure Station where
  machine : Machine := {}
  progressInterval : Int
  proofInterval : Int

/-- A datagram that reaches a replica: the one of this number among those that `sender` has sent. -/
structure Delivery where
  time : Int
  sender : Nat
  index : Nat
deriving DecidableEq, Repr

/-- A replica takes a turn when `delay` milliseconds have passed. -/
structure Cue where
  position : Nat
  delay : Int := 0
  delivery : Option Delivery := none
deriving DecidableEq, Repr

namespace Rehearsal

def player? (roster : Roster) (testCase : TestCase) (name : Bytes) (station : Station) :
    Option Player :=
  match Replica.setUp station.machine
      ⟨name, some testCase, station.progressInterval, station.proofInterval⟩ roster with
  | (.error _, _) => none
  | (.ok replica, _) =>
      some ⟨{ replica.started with machine := { replica.machine with arrivals := [] } }, none⟩

def opening? (roster : Roster) (testCase : TestCase)
    (station : Fin roster.size → Station) : Option Rehearsal :=
  ((List.finRange roster.size).mapM fun position : Fin roster.size =>
    player? roster testCase (roster.entries.get position).name (station position)).map
      fun players => { roster, testCase, players }

/-- The datagram, if it was sent to the replica at `position` and sent whole. -/
def carried? (rehearsal : Rehearsal) (position : Nat) (delivery : Delivery) : Option Bytes := do
  let entry ← rehearsal.roster.entries[position]?
  let player ← rehearsal.players[delivery.sender]?
  let sending ← player.replica.sendings[delivery.index]?
  let address := { entry.address with host := entry.address.host.terminated }
  if sending.complete && sending.target = address.toBytes then some sending.payload else none

def arrivals (rehearsal : Rehearsal) (cue : Cue) : List Arrival :=
  match cue.delivery with
  | none => []
  | some delivery =>
      match rehearsal.carried? cue.position delivery with
      | none => []
      | some payload => [⟨delivery.time, .datagram payload⟩]

def note (rehearsal : Rehearsal) (position : Nat) (player : Player) (events : List Event) :
    Rehearsal :=
  { rehearsal with
    players := rehearsal.players.set position player
    seen := rehearsal.seen ++ events.map (position, ·) }

def play (rehearsal : Rehearsal) (cue : Cue) : Rehearsal :=
  match rehearsal.players[cue.position]? with
  | some ⟨replica, none⟩ =>
      let machine := { replica.machine.sleep cue.delay with arrivals := rehearsal.arrivals cue }
      let ready := { replica with machine }
      let (last, ending) := ready.turn
      rehearsal.note cue.position ⟨last, ending⟩ ready.deeds
  | _ => rehearsal

def after (rehearsal : Rehearsal) (cues : List Cue) : Rehearsal :=
  cues.foldl play rehearsal

/-! ### Passages -/

def Said (rehearsal : Rehearsal) (envelope : Envelope) : Prop :=
  ∃ position : Nat, envelope.sender = position ∧
    (position, .broadcast envelope.message) ∈ rehearsal.seen

end Rehearsal

/-- What becomes of a replica in a part of its turn: it waits, or it does one thing and follows it
up. Whatever it hears was said, and so is whatever is about to reach it. -/
inductive Replica.Passage (said : Envelope → Prop) (replica : Replica) :
    Player → List Event → Prop
  | wait (transport : Transport) (machine : Machine) {ending : Option Ending}
      (self : transport.self = replica.transport.self)
      (tuned : Replica.Tuned said { replica with transport, machine })
      (unfinished : ending ≠ some .finished) :
      Passage said replica ⟨{ replica with transport, machine }, ending⟩ []
  | act (transport : Transport) (machine : Machine)
      (self : transport.self = replica.transport.self)
      (tuned : Replica.Tuned said { replica with transport, machine })
      (act : Engine.Act) (heard : ∀ now envelope, act = .hear now envelope → said envelope)
      {step : Step}
      (watched : Engine.Watched replica.scenario.crashesOnQuorum
        (replica.engine.enact neverHalts act) step) :
      Passage said replica
        ⟨Replica.follow { replica with transport, machine } step.engine step.events,
          (Replica.follow { replica with transport, machine } step.engine
            step.events).endingAfter step.outcome.halt?⟩
        step.events

namespace Replica

variable {said : Envelope → Prop} {replica : Replica}

theorem fireDue_ending (replica : Replica) :
    replica.fireDue.2 =
      (replica.follow replica.firing.engine replica.firing.events).endingAfter
        replica.firing.step.outcome.halt? := by
  cases asked : replica.firing.progress with
  | none =>
      have settled := replica.fireDue_settled (by simp [asked])
      rw [settled, Engine.Firing.step, asked]
      rfl
  | some outcome =>
      cases outcome with
      | settled verdict =>
          have settled := replica.fireDue_settled (by simp [asked])
          rw [settled, Engine.Firing.step, asked]
          rfl
      | halted view =>
          rw [replica.fireDue_halted asked, Engine.Firing.step, asked]
          rfl

theorem listen_ending (replica : Replica) {envelope : Envelope}
    (heard : replica.hear.1 = .envelope envelope) :
    replica.listen.2 =
      (replica.hear.2.follow (replica.hear.2.answer envelope).engine
        (replica.hear.2.answer envelope).events).endingAfter
          (replica.hear.2.answer envelope).outcome.halt? := by
  rw [listen_eq, heard]
  dsimp only
  cases (replica.hear.2.answer envelope).outcome with
  | settled verdict => rfl
  | halted view => rfl

theorem turn_of_ended {ending : Ending} (ended : replica.fireDue.2 = some ending) :
    replica.turn = replica.fireDue := by
  unfold turn
  cases fired : replica.fireDue with
  | mk last found =>
      rw [fired] at ended
      cases ended
      rfl

theorem turn_of_going (going : replica.fireDue.2 = none) :
    replica.turn = replica.fireDue.1.listen := by
  unfold turn
  cases fired : replica.fireDue with
  | mk last found =>
      rw [fired] at going
      cases going
      rfl

theorem passage_fire (tuned : replica.Tuned said)
    (periodic : replica.scenario.periodicProofs = true) :
    replica.Passage said ⟨replica.fireDue.1, replica.fireDue.2⟩ replica.firing.events := by
  have watched := replica.engine.enact_watched replica.scenario.crashesOnQuorum
    (.fire replica.now)
  have asked : replica.engine.enact replica.scenario.crashesOnQuorum (.fire replica.now) =
      replica.firing.step := by
    rw [Replica.firing, periodic]
    rfl
  rw [asked] at watched
  rw [replica.fireDue_eq, replica.fireDue_ending]
  exact .act replica.transport replica.machine rfl tuned (.fire replica.now)
    (fun _ _ impossible => Engine.Act.noConfusion impossible) watched

theorem passage_listen (tuned : replica.Tuned said)
    (legible : ∀ envelope, said envelope → Frame.Legible envelope) :
    replica.Passage said ⟨replica.listen.1, replica.listen.2⟩ replica.replies := by
  obtain ⟨still, spoken⟩ := tuned.hear legible
  cases heard : replica.hear.1 with
  | stopped =>
      rw [listen_eq, replies, heard]
      exact .wait replica.hear.2.transport replica.hear.2.machine replica.hear_self still (by simp)
  | nothing =>
      rw [listen_eq, replies, heard]
      exact .wait replica.hear.2.transport replica.hear.2.machine replica.hear_self still (by simp)
  | envelope envelope =>
      have watched := replica.engine.enact_watched replica.scenario.crashesOnQuorum
        (.hear replica.hear.2.now envelope)
      rw [replica.listen_envelope heard, replica.listen_ending heard, replies, heard]
      exact .act replica.hear.2.transport replica.hear.2.machine replica.hear_self still
        (.hear replica.hear.2.now envelope)
        (fun _ _ same => by cases same; exact spoken envelope heard) watched

end Replica

namespace Rehearsal

/-! ### Putting a turn down passage by passage -/

section Note

variable {rehearsal : Rehearsal} {position other : Nat} {player found : Player}
  {events : List Event}

theorem note_note (rehearsal : Rehearsal) (position : Nat) (first second : Player)
    (earlier later : List Event) :
    (rehearsal.note position first earlier).note position second later =
      rehearsal.note position second (earlier ++ later) := by
  unfold note
  rw [List.set_set, List.map_append, List.append_assoc]

theorem player_note
    (stored : (rehearsal.note position player events).players[other]? = some found) :
    (other = position ∧ found = player) ∨
      (other ≠ position ∧ rehearsal.players[other]? = some found) :=
  Cluster.stored_of_set stored

theorem player_note_self {former : Player}
    (present : rehearsal.players[position]? = some former) (player : Player)
    (events : List Event) :
    (rehearsal.note position player events).players[position]? = some player :=
  List.getElem?_set_self (List.getElem?_eq_some_iff.1 present).1

theorem mem_seen_note {event : Event} :
    (other, event) ∈ (rehearsal.note position player events).seen ↔
      (other, event) ∈ rehearsal.seen ∨ (other = position ∧ event ∈ events) := by
  simp only [note, List.mem_append, List.mem_map, Prod.mk.injEq]
  constructor
  · rintro (earlier | ⟨_, happened, rfl, rfl⟩)
    · exact .inl earlier
    · exact .inr ⟨rfl, happened⟩
  · rintro (earlier | ⟨rfl, happened⟩)
    · exact .inl earlier
    · exact .inr ⟨event, happened, rfl, rfl⟩

theorem Said.note {envelope : Envelope} (said : rehearsal.Said envelope) (position : Nat)
    (player : Player) (events : List Event) :
    (rehearsal.note position player events).Said envelope := by
  obtain ⟨sender, same, told⟩ := said
  exact ⟨sender, same, mem_seen_note.2 (.inl told)⟩

end Note

/-! ### Openings -/

theorem setUp_player {machine after : Machine} {plan : Replica.Plan} {roster : Roster}
    {replica : Replica} (made : Replica.setUp machine plan roster = (.ok replica, after)) :
    ∃ position timers, roster.indexOf? plan.name = some position ∧
      replica.engine = .ofPosition position timers ∧
      replica.scenario = ⟨plan.testCase, position.val, roster.size⟩ ∧
      replica.transport.self = position.val ∧
      (replica.transport.stream = {} ∧ replica.transport.received = []) ∧
      replica.finished = false ∧ replica.sendings = #[] ∧ replica.installs = #[] := by
  unfold Replica.setUp at made
  split at made
  · cases made
  · next position located =>
      split at made
      · cases made
      · next timers positive =>
          dsimp only at made
          split at made
          · cases made
          · next transport later asked =>
              cases made
              refine ⟨position, timers, located, rfl, rfl, ?_, Transport.setUp_fresh asked, rfl,
                rfl, rfl⟩
              unfold Transport.setUp at asked
              split at asked
              · cases asked
              · split at asked
                · cases asked
                · cases asked
                  rfl

theorem getElem?_mapM {α β : Type} {make : α → Option β} {items : List α} {made : List β}
    (all : items.mapM make = some made) {index : Nat} {found : β}
    (present : made[index]? = some found) :
    ∃ item, items[index]? = some item ∧ make item = some found := by
  induction items generalizing made index with
  | nil =>
      rw [List.mapM_nil] at all
      cases all
      simp at present
  | cons item rest ih =>
      rw [List.mapM_cons] at all
      obtain ⟨first, firstMade, all⟩ := Option.bind_eq_some_iff.1 all
      obtain ⟨others, othersMade, all⟩ := Option.bind_eq_some_iff.1 all
      cases all
      cases index with
      | zero =>
          cases present
          exact ⟨item, rfl, firstMade⟩
      | succ index => exact ih othersMade present

theorem opening_player {roster : Roster} {testCase : TestCase}
    {station : Fin roster.size → Station} {opening : Rehearsal}
    (opened : opening? roster testCase station = some opening) {position : Nat} {player : Player}
    (present : opening.players[position]? = some player) :
    ∃ (within : position < roster.size) (timers : TimerPair) (now : Int),
      player.ending = none ∧
      player.replica.engine =
        (Engine.ofPosition (⟨position, within⟩ : Fin roster.size) timers).start now ∧
      player.replica.scenario = ⟨some testCase, position, roster.size⟩ ∧
      player.replica.transport.self = position ∧
      (player.replica.transport.stream = {} ∧ player.replica.transport.received = [] ∧
        player.replica.machine.arrivals = []) ∧
      player.replica.finished = false ∧ player.replica.sendings = #[] ∧
      player.replica.installs = #[] := by
  obtain ⟨players, made, rfl⟩ := Option.map_eq_some_iff.1 opened
  obtain ⟨seat, listed, manned⟩ := getElem?_mapM made present
  obtain ⟨within, rfl⟩ := List.getElem?_eq_some_iff.1 listed
  rw [List.length_finRange] at within
  rw [List.getElem_finRange] at manned
  unfold player? at manned
  split at manned
  · cases manned
  · next replica after madeReplica =>
      cases manned
      obtain ⟨found, timers, located, engine, scenario, self, fresh, rest⟩ :=
        setUp_player madeReplica
      have same : found = ⟨position, within⟩ := by
        rw [Roster.indexOf?_name] at located
        exact (Option.some.inj located).symm
      subst same
      refine ⟨within, timers, replica.now, rfl, ?_, scenario, self, ⟨fresh.1, fresh.2, rfl⟩, rest⟩
      change replica.engine.start replica.now = _
      rw [engine]

theorem opening_cast {roster : Roster} {testCase : TestCase}
    {station : Fin roster.size → Station} {opening : Rehearsal}
    (opened : opening? roster testCase station = some opening) :
    opening.roster = roster ∧ opening.testCase = testCase ∧ opening.seen = [] := by
  obtain ⟨players, -, rfl⟩ := Option.map_eq_some_iff.1 opened
  exact ⟨rfl, rfl, rfl⟩

theorem after_cast (rehearsal : Rehearsal) (cues : List Cue) :
    (rehearsal.after cues).roster = rehearsal.roster ∧
      (rehearsal.after cues).testCase = rehearsal.testCase := by
  induction cues generalizing rehearsal with
  | nil => exact ⟨rfl, rfl⟩
  | cons cue rest ih =>
      have same : (rehearsal.play cue).roster = rehearsal.roster ∧
          (rehearsal.play cue).testCase = rehearsal.testCase := by
        unfold play
        split <;> exact ⟨rfl, rfl⟩
      exact ⟨(ih _).1.trans same.1, (ih _).2.trans same.2⟩

end Rehearsal

end ViewSync
