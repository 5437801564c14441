import ViewSync.Replica
import ViewSync.Proofs.Clock
import ViewSync.Proofs.Passage
import ViewSync.Proofs.Timekeeping

/-!
The watch that a replica keeps.

A vigil is a replica at work together with what an onlooker notes of it: when its progress timer
was set last, and when it last announced its view. Both timers of the replica agree with these
notes after any number of turns, whatever arrives, because every call that sets a timer does so at
the instant at which it is made. This holds on any clock. As long as the clock keeps within its
range no timer is ever late: the replica asks its timers at the beginning of a turn, and then waits
for no longer than the first of them has left.
-/

namespace ViewSync

/-! ### The clock of a machine -/

namespace Conditions

def Shows (conditions : Conditions) (instant : Int) : Prop :=
  Showable (conditions.clockStart + instant * nanosPerMilli)

instance (conditions : Conditions) (instant : Int) : Decidable (conditions.Shows instant) :=
  inferInstanceAs (Decidable (Showable _))

variable {conditions : Conditions} {instant later : Int}

theorem reading_of_shows (shows : conditions.Shows instant) :
    conditions.reading instant = conditions.clockStart + instant * nanosPerMilli :=
  wrap64_of_showable shows

theorem Shows.earlier (shows : conditions.Shows later) (begun : 0 ≤ instant)
    (past : instant ≤ later) : conditions.Shows instant := by
  unfold Shows Showable nanosPerMilli at *
  omega

theorem Shows.apart (reached : conditions.Shows later) (present : conditions.Shows instant)
    (begun : 0 ≤ instant) (ahead : 0 ≤ later) :
    Showable ((later - instant) * nanosPerMilli) := by
  unfold Shows Showable nanosPerMilli at *
  omega

end Conditions

namespace Countdown

theorem deadline_reset (conditions : Conditions) (instant interval : Int) :
    (reset (conditions.reading instant) (nanosOfMillis interval)).deadline =
      conditions.reading (instant + interval) := by
  simp only [reset, Conditions.reading, nanosOfMillis, wrap64, Int.add_bmod_bmod,
    Int.bmod_add_bmod, Int.add_mul, Int.add_assoc]

theorem isDue_reset {conditions : Conditions} {instant interval now : Int}
    (reached : conditions.Shows (instant + interval)) (present : conditions.Shows now) :
    (reset (conditions.reading instant) (nanosOfMillis interval)).isDue
        (conditions.reading now) = true ↔
      instant + interval ≤ now := by
  rw [isDue, deadline_reset, Conditions.reading_of_shows reached,
    Conditions.reading_of_shows present]
  simp only [reset, Bool.true_and, decide_eq_true_eq]
  unfold nanosPerMilli
  omega

end Countdown

theorem TimerPair.resetProgress_interval (timers : TimerPair) (now : Int) :
    (timers.resetProgress now).progressInterval = timers.progressInterval :=
  rfl

theorem millisCovering_nanos (millis : Int) : millisCovering (millis * nanosPerMilli) = millis := by
  unfold millisCovering nanosPerMilli
  omega

/-- It does not matter here whether the clock has gone around. -/
theorem TimerPair.millisLeft_reset (conditions : Conditions) {instant interval now : Int}
    (near : Showable ((instant + interval - now) * nanosPerMilli)) :
    millisLeft (.reset (conditions.reading instant) (nanosOfMillis interval))
        (conditions.reading now) =
      instant + interval - now := by
  have left : wrap64 (conditions.reading (instant + interval) - conditions.reading now) =
      (instant + interval - now) * nanosPerMilli := by
    have apart : (conditions.clockStart + (instant + interval) * nanosPerMilli) -
        (conditions.clockStart + now * nanosPerMilli) =
          (instant + interval - now) * nanosPerMilli := by
      rw [Int.sub_mul]
      omega
    rw [Conditions.reading, Conditions.reading, wrap64, wrap64, wrap64, Int.sub_bmod_bmod,
      Int.bmod_sub_bmod, apart]
    exact wrap64_of_showable near
  rw [millisLeft, Countdown.deadline_reset, left, millisCovering_nanos]

namespace Replica

section Work

variable (replica : Replica)

theorem perform_engine (event : Event) : (replica.perform event).engine = replica.engine := by
  cases event with
  | broadcast message => rfl
  | quorumCollected view => rfl
  | viewInstalled view leader => rfl

theorem atOnce_perform (event : Event) :
    replica.machine.AtOnce (replica.perform event).machine := by
  cases event with
  | broadcast message => exact replica.transport.atOnce_sendTo replica.machine _ message
  | quorumCollected view => exact .refl replica.machine
  | viewInstalled view leader => exact .refl replica.machine

theorem follow_induction (engine : Engine) (events : List Event)
    (holds : Replica → List Event → Prop)
    (start : holds { replica with engine } [])
    (step : ∀ (before : Replica) (earlier : List Event) (event : Event),
      holds before earlier → holds (before.perform event) (earlier ++ [event])) :
    holds (replica.follow engine events) events := by
  unfold follow
  induction events using List.reverseRecOn with
  | nil => exact start
  | append_singleton earlier event ih =>
      rw [List.foldl_append]
      exact step _ earlier event ih

theorem follow_engine (engine : Engine) (events : List Event) :
    (replica.follow engine events).engine = engine :=
  replica.follow_induction engine events (fun after _ => after.engine = engine) rfl
    fun before _ event kept => (before.perform_engine event).trans kept

theorem atOnce_follow (engine : Engine) (events : List Event) :
    replica.machine.AtOnce (replica.follow engine events).machine :=
  replica.follow_induction engine events (fun after _ => replica.machine.AtOnce after.machine)
    (.refl replica.machine) fun before _ event kept => kept.trans (before.atOnce_perform event)

theorem follow_clock (engine : Engine) (events : List Event) :
    (replica.follow engine events).machine.now = replica.machine.now :=
  (replica.atOnce_follow engine events).clock

theorem follow_now (engine : Engine) (events : List Event) :
    (replica.follow engine events).now = replica.now := by
  unfold now Machine.clock
  rw [(replica.atOnce_follow engine events).conditions, follow_clock]

def progressFires : Bool :=
  (replica.engine.timers.consumeProgress replica.now).1

theorem progressFires_eq :
    replica.progressFires = replica.engine.timers.progress.isDue replica.now := by
  unfold progressFires TimerPair.consumeProgress Countdown.consume
  cases replica.engine.timers.progress.isDue replica.now with
  | true => rfl
  | false => rfl

def firing : Engine.Firing :=
  replica.engine.fireDue replica.scenario.crashesOnQuorum replica.scenario.periodicProofs
    replica.now

theorem fireDue_eq :
    replica.fireDue.1 = replica.follow replica.firing.engine replica.firing.events := by
  unfold fireDue firing
  dsimp only
  split
  · rfl
  · rfl

theorem fireDue_halted {view : Int} (halted : replica.firing.progress = some (.halted view)) :
    replica.fireDue.2 = some (.crashed view) := by
  unfold firing at halted
  unfold fireDue
  simp only [halted]

theorem fireDue_settled
    (settled : ∀ view, replica.firing.progress ≠ some (.halted view)) :
    replica.fireDue =
      (replica.follow replica.firing.engine replica.firing.events,
        if (replica.follow replica.firing.engine replica.firing.events).finished then
          some .finished
        else none) := by
  unfold firing at settled ⊢
  unfold fireDue
  cases asked : (replica.engine.fireDue replica.scenario.crashesOnQuorum
      replica.scenario.periodicProofs replica.now).progress with
  | none => simp only [asked]
  | some outcome =>
      cases outcome with
      | settled verdict => simp only [asked]
      | halted view => exact absurd asked (settled view)

theorem fireDue_engine : replica.fireDue.1.engine = replica.firing.engine := by
  rw [fireDue_eq, follow_engine]

theorem fireDue_clock : replica.fireDue.1.machine.now = replica.machine.now := by
  rw [fireDue_eq, follow_clock]

theorem fireDue_conditions :
    replica.fireDue.1.machine.conditions = replica.machine.conditions := by
  rw [fireDue_eq]
  exact (replica.atOnce_follow _ _).conditions

theorem fireDue_now : replica.fireDue.1.now = replica.now := by
  rw [fireDue_eq, follow_now]

def hear : Transport.Received × Replica :=
  let (received, transport, machine) := replica.transport.receive replica.machine replica.patience
  (received, { replica with transport, machine })

theorem precedes_hear : replica.machine.Precedes replica.hear.2.machine :=
  replica.transport.precedes_receive replica.machine replica.patience

def answer (envelope : Envelope) : Step :=
  replica.engine.receive replica.scenario.crashesOnQuorum replica.now envelope

theorem listen_eq :
    replica.listen =
      match replica.hear.1 with
      | .stopped => (replica.hear.2, some .stopped)
      | .nothing => (replica.hear.2, none)
      | .envelope envelope =>
          let step := replica.hear.2.answer envelope
          let moved := replica.hear.2.follow step.engine step.events
          match step.outcome with
          | .halted view => (moved, some (.crashed view))
          | .settled _ => (moved, if moved.finished then some .finished else none) :=
  rfl

theorem listen_envelope {envelope : Envelope} (heard : replica.hear.1 = .envelope envelope) :
    replica.listen.1 = replica.hear.2.follow (replica.hear.2.answer envelope).engine
      (replica.hear.2.answer envelope).events := by
  rw [listen_eq, heard]
  dsimp only
  split
  · rfl
  · rfl

theorem listen_silent (silent : ∀ envelope, replica.hear.1 ≠ .envelope envelope) :
    replica.listen.1 = replica.hear.2 := by
  rw [listen_eq]
  cases heard : replica.hear.1 with
  | envelope envelope => exact absurd heard (silent envelope)
  | nothing => rfl
  | stopped => rfl

theorem precedes_listen : replica.machine.Precedes replica.listen.1.machine := by
  have waited := replica.precedes_hear
  cases heard : replica.hear.1 with
  | envelope envelope =>
      rw [listen_envelope _ heard]
      exact waited.trans (atOnce_follow _ _ _).precedes
  | nothing =>
      rw [listen_silent _ (by simp [heard])]
      exact waited
  | stopped =>
      rw [listen_silent _ (by simp [heard])]
      exact waited

theorem turn_replica :
    replica.turn.1 =
      if replica.fireDue.2.isSome then replica.fireDue.1 else replica.fireDue.1.listen.1 := by
  unfold turn
  cases replica.fireDue with
  | mk fired ending =>
      cases ending with
      | some ending => rfl
      | none => rfl

theorem fireDue_of_turn {replica : Replica} (going : replica.turn.2 = none) :
    replica.fireDue.2 = none := by
  unfold turn at going
  cases first : replica.fireDue with
  | mk fired ending =>
      cases ending with
      | some ending =>
          rw [first] at going
          cases going
      | none => rfl

theorem runFor_succ {turns : Nat} {replica : Replica}
    (going : (replica.runFor (turns + 1)).2 = none) :
    (replica.runFor turns).2 = none ∧
      replica.runFor (turns + 1) = (replica.runFor turns).1.turn := by
  induction turns generalizing replica with
  | zero =>
      refine ⟨rfl, ?_⟩
      simp only [runFor]
      cases replica.turn with
      | mk next ending =>
          cases ending with
          | some ending => rfl
          | none => rfl
  | succ turns ih =>
      cases first : replica.turn with
      | mk next ending =>
          cases ending with
          | some ending =>
              rw [runFor, first] at going
              cases going
          | none =>
              rw [runFor, first] at going ⊢
              rw [runFor, first]
              exact ih going

theorem runFor_add {turns : Nat} {replica next : Replica}
    (ran : replica.runFor turns = (next, none)) (more : Nat) :
    replica.runFor (turns + more) = next.runFor more := by
  induction turns generalizing replica with
  | zero =>
      cases ran
      rw [Nat.zero_add]
  | succ turns ih =>
      rw [Nat.succ_add, runFor]
      cases first : replica.turn with
      | mk second ending =>
          rw [runFor, first] at ran
          cases ending with
          | some ending => cases ran
          | none => exact ih ran

theorem runFor_going {turns : Nat} {replica next : Replica}
    (ran : replica.runFor turns = (next, none)) (going : next.turn.2 = none) :
    (replica.runFor (turns + 1)).2 = none := by
  rw [runFor_add ran, runFor]
  cases turned : next.turn with
  | mk later ending =>
      rw [turned] at going
      cases going
      rfl

/-- A replica is set up with the intervals of the plan, and setting it up takes its time. -/
theorem setUp_made {machine after : Machine} {plan : Plan} {roster : Roster} {replica : Replica}
    (made : setUp machine plan roster = (.ok replica, after)) :
    replica.engine.timers.progressInterval = plan.progressInterval ∧
      replica.engine.timers.proofInterval = plan.proofInterval ∧
      machine.Precedes replica.machine := by
  unfold setUp at made
  split at made
  · cases made
  · next position located =>
      unfold TimerPair.ofIntervals? at made
      by_cases positive : 0 < plan.progressInterval ∧ 0 < plan.proofInterval
      · rw [dif_pos positive] at made
        dsimp only at made
        split at made
        · cases made
        · next asked =>
            cases made
            exact ⟨rfl, rfl, Transport.precedes_setUp asked⟩
      · rw [dif_neg positive] at made
        cases made

def started : Replica :=
  { replica with engine := replica.engine.start replica.now }

end Work

end Replica

/-! ### Vigils -/

/-- A replica at work, and what is noted of it. Instants are in milliseconds. -/
structure Vigil where
  replica : Replica
  /-- When the progress timer was set last. -/
  resetAt : Int
  /-- When the replica announced its view last. -/
  announcedAt : Int

namespace Vigil

def opening (replica : Replica) : Vigil :=
  ⟨replica.started, replica.machine.now, replica.machine.now⟩

def note (vigil : Vigil) (replica : Replica) (set announced : Bool) : Vigil :=
  { replica
    resetAt := if set then replica.machine.now else vigil.resetAt
    announcedAt := if announced then replica.machine.now else vigil.announcedAt }

def fire (vigil : Vigil) : Vigil :=
  vigil.note vigil.replica.fireDue.1 vigil.replica.firing.progress.isSome
    (Engine.announces vigil.replica.firing.events)

def listen (vigil : Vigil) : Vigil :=
  match vigil.replica.hear.1 with
  | .envelope envelope =>
      let step := vigil.replica.hear.2.answer envelope
      vigil.note vigil.replica.listen.1 (Engine.renews envelope.message step)
        (Engine.announces step.events)
  | _ => vigil.note vigil.replica.listen.1 false false

def next (vigil : Vigil) : Vigil :=
  if vigil.replica.fireDue.2.isSome then vigil.fire else vigil.fire.listen

def after (vigil : Vigil) : Nat → Vigil
  | 0 => vigil
  | turns + 1 => (vigil.after turns).next

variable {vigil : Vigil}

theorem listen_replica (vigil : Vigil) : vigil.listen.replica = vigil.replica.listen.1 := by
  unfold listen
  split
  · rfl
  · rfl

theorem next_replica (vigil : Vigil) : vigil.next.replica = vigil.replica.turn.1 := by
  rw [Replica.turn_replica, next]
  split
  · rfl
  · rw [listen_replica]
    rfl

/-- Keeping notes does not change what the replica does. -/
theorem after_replica {turns : Nat} (going : (vigil.replica.runFor turns).2 = none) :
    (vigil.after turns).replica = (vigil.replica.runFor turns).1 := by
  induction turns with
  | zero => rfl
  | succ turns ih =>
      obtain ⟨before, last⟩ := Replica.runFor_succ going
      rw [after, next_replica, ih before, last]

/-! ### Both timers agree with the notes -/

structure Dated (vigil : Vigil) : Prop where
  reset_past : 0 ≤ vigil.resetAt ∧ vigil.resetAt ≤ vigil.replica.machine.now
  announced_past : 0 ≤ vigil.announcedAt ∧ vigil.announcedAt ≤ vigil.replica.machine.now
  progress : vigil.replica.engine.timers.progress =
    .reset (vigil.replica.machine.conditions.reading vigil.resetAt)
      (nanosOfMillis vigil.replica.engine.timers.progressInterval)
  proof : vigil.replica.engine.timers.proof.armed = true →
    vigil.replica.engine.timers.proof =
      .reset (vigil.replica.machine.conditions.reading vigil.announcedAt)
        (nanosOfMillis vigil.replica.engine.timers.proofInterval)

theorem dated_opening {replica : Replica} (origin : 0 ≤ replica.machine.now) :
    (opening replica).Dated where
  reset_past := ⟨origin, Int.le_refl _⟩
  announced_past := ⟨origin, Int.le_refl _⟩
  progress := rfl
  proof armed := by cases armed

theorem Dated.begun (dated : vigil.Dated) : 0 ≤ vigil.replica.machine.now :=
  dated.reset_past.1.trans dated.reset_past.2

theorem Dated.note {replica : Replica} {set announced : Bool} (dated : vigil.Dated)
    (later : vigil.replica.machine.Precedes replica.machine)
    (retimes : vigil.replica.engine.Retimes replica.engine replica.now set announced) :
    (vigil.note replica set announced).Dated := by
  have forward := later.forward
  have origin : 0 ≤ replica.machine.now := dated.begun.trans forward
  constructor
  · cases set with
    | true => exact ⟨origin, Int.le_refl _⟩
    | false => exact ⟨dated.reset_past.1, dated.reset_past.2.trans forward⟩
  · cases announced with
    | true => exact ⟨origin, Int.le_refl _⟩
    | false => exact ⟨dated.announced_past.1, dated.announced_past.2.trans forward⟩
  · change replica.engine.timers.progress = _
    rw [retimes.progress]
    simp only [Vigil.note, Engine.seat_progressInterval retimes.seat]
    cases set with
    | true => rfl
    | false =>
        rw [later.conditions]
        exact dated.progress
  · intro armed
    change replica.engine.timers.proof = _
    have last := retimes.proof armed
    simp only [Vigil.note, Engine.seat_proofInterval retimes.seat]
    cases announced with
    | true => exact last
    | false =>
        have earlier : replica.engine.timers.proof = vigil.replica.engine.timers.proof := last
        rw [earlier, later.conditions]
        exact dated.proof (earlier ▸ armed)

theorem fire_retimes (vigil : Vigil) :
    vigil.replica.engine.Retimes vigil.replica.fireDue.1.engine vigil.replica.fireDue.1.now
      vigil.replica.firing.progress.isSome (Engine.announces vigil.replica.firing.events) := by
  rw [Replica.fireDue_now, Replica.fireDue_engine, Replica.firing, Engine.fireDue_asked]
  exact Engine.fireDue_retimes _ _ _ _

theorem listen_retimes (vigil : Vigil) :
    ∃ set announced, vigil.listen = vigil.note vigil.replica.listen.1 set announced ∧
      vigil.replica.listen.1.machine.now = vigil.replica.hear.2.machine.now ∧
      vigil.replica.engine.Retimes vigil.replica.listen.1.engine vigil.replica.listen.1.now
        set announced := by
  unfold listen
  cases heard : vigil.replica.hear.1 with
  | envelope envelope =>
      refine ⟨_, _, rfl, ?_⟩
      rw [Replica.listen_envelope _ heard, Replica.follow_engine, Replica.follow_clock,
        Replica.follow_now]
      exact ⟨rfl, (Engine.receive_change _ _ _ envelope).retimes⟩
  | nothing =>
      refine ⟨false, false, rfl, ?_⟩
      rw [Replica.listen_silent _ (by simp [heard])]
      exact ⟨rfl, .rfl⟩
  | stopped =>
      refine ⟨false, false, rfl, ?_⟩
      rw [Replica.listen_silent _ (by simp [heard])]
      exact ⟨rfl, .rfl⟩

theorem precedes_fire (vigil : Vigil) :
    vigil.replica.machine.Precedes vigil.fire.replica.machine where
  conditions := vigil.replica.fireDue_conditions
  forward := Int.le_of_eq vigil.replica.fireDue_clock.symm

theorem Dated.fire (dated : vigil.Dated) : vigil.fire.Dated :=
  dated.note vigil.precedes_fire vigil.fire_retimes

theorem Dated.listen (dated : vigil.Dated) : vigil.listen.Dated := by
  obtain ⟨set, announced, noted, -, retimes⟩ := vigil.listen_retimes
  rw [noted]
  exact dated.note vigil.replica.precedes_listen retimes

theorem Dated.next (dated : vigil.Dated) : vigil.next.Dated := by
  unfold Vigil.next
  split
  · exact dated.fire
  · exact dated.fire.listen

theorem Dated.after (dated : vigil.Dated) (turns : Nat) : (vigil.after turns).Dated := by
  induction turns with
  | zero => exact dated
  | succ turns ih => exact ih.next

theorem next_seat (vigil : Vigil) :
    vigil.next.replica.engine.seat = vigil.replica.engine.seat := by
  have first : vigil.fire.replica.engine.seat = vigil.replica.engine.seat :=
    vigil.fire_retimes.seat
  unfold next
  split
  · exact first
  · obtain ⟨set, announced, noted, -, retimes⟩ := vigil.fire.listen_retimes
    rw [listen_replica]
    exact retimes.seat.trans first

theorem after_seat (vigil : Vigil) (turns : Nat) :
    (vigil.after turns).replica.engine.seat = vigil.replica.engine.seat := by
  induction turns with
  | zero => rfl
  | succ turns ih => exact (next_seat _).trans ih

theorem precedes_next (vigil : Vigil) :
    vigil.replica.machine.Precedes vigil.next.replica.machine := by
  unfold next
  split
  · exact vigil.precedes_fire
  · rw [listen_replica]
    exact vigil.precedes_fire.trans vigil.fire.replica.precedes_listen

theorem after_conditions (vigil : Vigil) (turns : Nat) :
    (vigil.after turns).replica.machine.conditions = vigil.replica.machine.conditions := by
  induction turns with
  | zero => rfl
  | succ turns ih => exact (precedes_next _).conditions.trans ih

end Vigil

end ViewSync
