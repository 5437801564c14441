import ViewSync.Proofs.Solitude

/-!
Timers are served exactly on time.

A replica is never late for a timer: when it waits, then for no longer than the first of its timers
has left, and at the beginning of the next turn the timers are asked before anything else. A timer
therefore fires at the very millisecond of its deadline, whatever has arrived in between; and since
no timer is due when the replica begins to wait, it waits for one millisecond at least, or takes
something in. All this is so as long as deadlines do not lie beyond the range of the clock.
-/

namespace ViewSync

theorem Countdown.armed_of_isDue {timer : Countdown} {now : Int}
    (due : timer.isDue now = true) : timer.armed = true :=
  (Bool.and_eq_true_iff.1 due).1

theorem Transport.request_eq_some {transport : Transport} {millis timeout : Int}
    (asked : transport.request millis = some timeout) : timeout = pollTimeout millis := by
  unfold request at asked
  split at asked
  · exact (Option.some.inj asked).symm
  · cases asked

/-- What a transport makes of a call for the next message: it stops with its machine, or hands on
an envelope that was waiting, or takes an arrival in, or lets time pass. -/
inductive Transport.Yields (transport : Transport) (machine : Machine) :
    Received × Transport × Machine → Prop
  | stopped : Yields transport machine (.stopped, transport, machine)
  | handed (envelope : Envelope) (rest : List Envelope)
      (waiting : transport.received = envelope :: rest) :
      Yields transport machine (.envelope envelope, { transport with received := rest }, machine)
  | taken (arrival : Arrival) (later : Machine) (empty : transport.received = [])
      (first : machine.arrivals = arrival :: later.arrivals) :
      Yields transport machine
        ((transport.takeIn (Machine.heard arrival.signal)).1,
          (transport.takeIn (Machine.heard arrival.signal)).2, later)
  | waited (later : Machine) (passed : machine.now < later.now) :
      Yields transport machine (.nothing, transport, later)

theorem Transport.yields_receive {transport : Transport} {machine : Machine} {millis : Int}
    (patient : ∀ timeout, transport.request millis = some timeout → 1 ≤ timeout) :
    transport.Yields machine (transport.receive machine millis) := by
  cases waiting : transport.received with
  | cons envelope rest =>
      rw [receive_of_waiting waiting]
      exact .handed envelope rest waiting
  | nil =>
      have positive := patient _ (request_of_empty waiting)
      rw [receive_of_empty waiting]
      rcases machine.await_cases (pollTimeout millis) with
        stopped | ⟨waited, -⟩ | ⟨arrival, rest, first, taken, -⟩
      · rw [stopped]
        exact .stopped
      · rw [waited]
        refine .waited _ ?_
        exact Int.lt_add_of_pos_right machine.now positive
      · rw [taken]
        exact .taken arrival _ waiting first

namespace Replica

/-- The proof timer fires in the coming turn. It is asked second, unless the replica is halted
before that. -/
def proofFires (replica : Replica) : Bool :=
  let first := replica.engine.fireProgress replica.scenario.crashesOnQuorum replica.now
  match first.progress with
  | some (.halted _) => false
  | _ => (first.engine.timers.consumeProof replica.now).1

theorem isDue_of_proofFires {replica : Replica} (fires : replica.proofFires = true) :
    (replica.engine.fireProgress replica.scenario.crashesOnQuorum
      replica.now).engine.timers.proof.isDue replica.now = true := by
  unfold proofFires at fires
  dsimp only at fires
  split at fires
  · cases fires
  · unfold TimerPair.consumeProof Countdown.consume at fires
    dsimp only at fires
    split at fires
    · assumption
    · cases fires

end Replica

namespace Vigil

structure Fits (vigil : Vigil) : Prop where
  progress : vigil.replica.machine.conditions.Shows
    (vigil.replica.machine.now + vigil.replica.engine.timers.progressInterval)
  proof : vigil.replica.machine.conditions.Shows
    (vigil.replica.machine.now + vigil.replica.engine.timers.proofInterval)

structure InTime (vigil : Vigil) : Prop where
  progress : vigil.replica.machine.now ≤
    vigil.resetAt + vigil.replica.engine.timers.progressInterval
  proof : vigil.replica.engine.timers.proof.armed = true →
    vigil.replica.machine.now ≤
      vigil.announcedAt + vigil.replica.engine.timers.proofInterval

structure Ahead (vigil : Vigil) : Prop where
  progress : vigil.replica.machine.now <
    vigil.resetAt + vigil.replica.engine.timers.progressInterval
  proof : vigil.replica.engine.timers.proof.armed = true →
    vigil.replica.machine.now <
      vigil.announcedAt + vigil.replica.engine.timers.proofInterval

variable {vigil : Vigil}

theorem Fits.earlier {later : Vigil} (fits : later.Fits) (begun : 0 ≤ vigil.replica.machine.now)
    (past : vigil.replica.machine.Precedes later.replica.machine)
    (same : later.replica.engine.seat = vigil.replica.engine.seat) : vigil.Fits := by
  obtain ⟨progress, proof⟩ := fits
  have forward := past.forward
  have progressPositive := vigil.replica.engine.timers.progress_positive
  have proofPositive := vigil.replica.engine.timers.proof_positive
  rw [Engine.seat_progressInterval same, past.conditions] at progress
  rw [Engine.seat_proofInterval same, past.conditions] at proof
  constructor
  · exact progress.earlier (by omega) (by omega)
  · exact proof.earlier (by omega) (by omega)

section Exact

variable (dated : vigil.Dated) (fits : vigil.Fits)

include dated fits

theorem shown :
    vigil.replica.machine.conditions.Shows vigil.replica.machine.now ∧
      vigil.replica.machine.conditions.Shows
        (vigil.resetAt + vigil.replica.engine.timers.progressInterval) ∧
      vigil.replica.machine.conditions.Shows
        (vigil.announcedAt + vigil.replica.engine.timers.proofInterval) := by
  obtain ⟨setBegun, setPast⟩ := dated.reset_past
  obtain ⟨announcedBegun, announcedPast⟩ := dated.announced_past
  have progressPositive := vigil.replica.engine.timers.progress_positive
  have proofPositive := vigil.replica.engine.timers.proof_positive
  refine ⟨?_, ?_, ?_⟩
  · exact fits.progress.earlier (by omega) (by omega)
  · exact fits.progress.earlier (by omega) (by omega)
  · exact fits.proof.earlier (by omega) (by omega)

theorem progress_due_iff :
    vigil.replica.engine.timers.progress.isDue vigil.replica.now = true ↔
      vigil.resetAt + vigil.replica.engine.timers.progressInterval ≤
        vigil.replica.machine.now := by
  obtain ⟨present, reached, -⟩ := shown dated fits
  rw [dated.progress]
  exact Countdown.isDue_reset reached present

theorem proof_due_iff (armed : vigil.replica.engine.timers.proof.armed = true) :
    vigil.replica.engine.timers.proof.isDue vigil.replica.now = true ↔
      vigil.announcedAt + vigil.replica.engine.timers.proofInterval ≤
        vigil.replica.machine.now := by
  obtain ⟨present, -, reached⟩ := shown dated fits
  rw [dated.proof armed]
  exact Countdown.isDue_reset reached present

theorem Ahead.fire (going : vigil.replica.fireDue.2 = none) : vigil.fire.Ahead := by
  have retimes := vigil.fire_retimes
  have clock := vigil.replica.fireDue_clock
  have progressPositive := vigil.replica.engine.timers.progress_positive
  have proofPositive := vigil.replica.engine.timers.proof_positive
  have settled : ∀ view, (vigil.replica.engine.fireProgress vigil.replica.scenario.crashesOnQuorum
      vigil.replica.now).progress ≠ some (.halted view) := by
    intro view halted
    have firing := Engine.fireDue_of_halted vigil.replica.scenario.periodicProofs halted
    have crashed := vigil.replica.fireDue_halted ((congrArg _ firing).trans halted)
    rw [going] at crashed
    cases crashed
  have asked := Engine.fireDue_asked vigil.replica.engine
    vigil.replica.scenario.crashesOnQuorum vigil.replica.scenario.periodicProofs vigil.replica.now
  constructor
  · change vigil.replica.fireDue.1.machine.now < (if vigil.replica.firing.progress.isSome then
      vigil.replica.fireDue.1.machine.now else vigil.resetAt) +
        vigil.replica.fireDue.1.engine.timers.progressInterval
    rw [Engine.seat_progressInterval retimes.seat, clock]
    split
    · omega
    · next quiet =>
        have waiting : ¬ vigil.replica.engine.timers.progress.isDue vigil.replica.now = true := by
          rw [← asked]
          exact quiet
        exact Int.not_le.1 (waiting ∘ (progress_due_iff dated fits).2)
  · intro armed
    change vigil.replica.fireDue.1.machine.now <
      (if Engine.announces vigil.replica.firing.events then
        vigil.replica.fireDue.1.machine.now else vigil.announcedAt) +
        vigil.replica.fireDue.1.engine.timers.proofInterval
    have set := retimes.proof armed
    rw [Engine.seat_proofInterval retimes.seat, clock]
    split
    · omega
    · next quiet =>
        rw [if_neg quiet] at set
        change vigil.replica.fireDue.1.engine.timers.proof.armed = true at armed
        have before := armed
        rw [set] at before
        rw [Replica.fireDue_engine] at armed
        have early := (Engine.proof_rests _ _ _ _ settled armed).resolve_left quiet
        have waiting := Bool.eq_false_iff.1 early
        exact Int.not_le.1 (waiting ∘ (proof_due_iff dated fits before).2)

theorem Ahead.patience (ahead : vigil.Ahead) :
    1 ≤ vigil.replica.patience ∧
      vigil.replica.machine.now + vigil.replica.patience ≤
        vigil.resetAt + vigil.replica.engine.timers.progressInterval ∧
      (vigil.replica.engine.timers.proof.armed = true →
        vigil.replica.machine.now + vigil.replica.patience ≤
          vigil.announcedAt + vigil.replica.engine.timers.proofInterval) := by
  have later := ahead.progress
  have begun := dated.begun
  obtain ⟨setBegun, setPast⟩ := dated.reset_past
  obtain ⟨announcedBegun, announcedPast⟩ := dated.announced_past
  obtain ⟨present, progressShown, proofShown⟩ := shown dated fits
  have left : TimerPair.millisLeft vigil.replica.engine.timers.progress vigil.replica.now =
      vigil.resetAt + vigil.replica.engine.timers.progressInterval -
        vigil.replica.machine.now := by
    rw [dated.progress]
    exact TimerPair.millisLeft_reset _ (progressShown.apart present begun (by omega))
  have running : vigil.replica.engine.timers.progress.armed = true := by
    rw [dated.progress]
    rfl
  unfold Replica.patience TimerPair.untilNextDeadline
  rw [running, left]
  cases armed : vigil.replica.engine.timers.proof.armed with
  | false =>
      refine ⟨?_, ?_, fun impossible => absurd impossible Bool.false_ne_true⟩
      · dsimp only
        omega
      · dsimp only
        omega
  | true =>
      have soon := ahead.proof armed
      have proofLeft : TimerPair.millisLeft vigil.replica.engine.timers.proof vigil.replica.now =
          vigil.announcedAt + vigil.replica.engine.timers.proofInterval -
            vigil.replica.machine.now := by
        rw [dated.proof armed]
        exact TimerPair.millisLeft_reset _ (proofShown.apart present begun (by omega))
      rw [proofLeft]
      dsimp only
      omega

end Exact

/-- A machine that is asked to wait is asked for as long as the replica is willing to. -/
theorem request_of_ahead (dated : vigil.Dated) (fits : vigil.Fits) (ahead : vigil.Ahead)
    (short : vigil.replica.engine.timers.progressInterval ≤ 2147483647) {timeout : Int}
    (asked : vigil.replica.transport.request vigil.replica.patience = some timeout) :
    timeout = vigil.replica.patience := by
  obtain ⟨positive, inTime, -⟩ := ahead.patience dated fits
  have past := dated.reset_past.2
  rw [Transport.request_eq_some asked, Transport.pollTimeout_eq_iff]
  · omega
  · omega

theorem InTime.listen (dated : vigil.Dated) (fits : vigil.Fits) (ahead : vigil.Ahead)
    (short : vigil.replica.engine.timers.progressInterval ≤ 2147483647) :
    vigil.listen.InTime := by
  obtain ⟨positive, progress, proof⟩ := ahead.patience dated fits
  obtain ⟨set, announced, noted, clock, retimes⟩ := vigil.listen_retimes
  have progressPositive := vigil.replica.engine.timers.progress_positive
  have proofPositive := vigil.replica.engine.timers.proof_positive
  have soon : vigil.replica.listen.1.machine.now ≤
      vigil.replica.machine.now + vigil.replica.patience := by
    rw [clock]
    apply Transport.receive_le
    · omega
    · intro timeout asked
      have same := request_of_ahead dated fits ahead short asked
      omega
  rw [noted]
  constructor
  · change vigil.replica.listen.1.machine.now ≤
      (if set then vigil.replica.listen.1.machine.now else vigil.resetAt) +
        vigil.replica.listen.1.engine.timers.progressInterval
    rw [Engine.seat_progressInterval retimes.seat]
    split
    · omega
    · omega
  · intro armed
    change vigil.replica.listen.1.machine.now ≤
      (if announced then vigil.replica.listen.1.machine.now else vigil.announcedAt) +
        vigil.replica.listen.1.engine.timers.proofInterval
    rw [Engine.seat_proofInterval retimes.seat]
    have set := retimes.proof armed
    split
    · omega
    · next quiet =>
        rw [if_neg quiet] at set
        change vigil.replica.listen.1.engine.timers.proof.armed = true at armed
        rw [set] at armed
        have bound := proof armed
        omega

theorem fire_progressInterval (vigil : Vigil) :
    vigil.fire.replica.engine.timers.progressInterval =
      vigil.replica.engine.timers.progressInterval :=
  Engine.seat_progressInterval vigil.fire_retimes.seat

theorem Fits.fire (fits : vigil.Fits) : vigil.fire.Fits := by
  have conditions := vigil.precedes_fire.conditions
  have clock : vigil.fire.replica.machine.now = vigil.replica.machine.now :=
    vigil.replica.fireDue_clock
  constructor
  · rw [conditions, clock, fire_progressInterval]
    exact fits.progress
  · have kept : vigil.fire.replica.engine.timers.proofInterval =
        vigil.replica.engine.timers.proofInterval :=
      Engine.seat_proofInterval vigil.fire_retimes.seat
    rw [conditions, clock, kept]
    exact fits.proof

theorem InTime.next (dated : vigil.Dated) (fits : vigil.Fits)
    (short : vigil.replica.engine.timers.progressInterval ≤ 2147483647)
    (going : vigil.replica.fireDue.2 = none) : vigil.next.InTime := by
  rw [Vigil.next, going]
  apply InTime.listen dated.fire fits.fire (Ahead.fire dated fits going)
  rw [fire_progressInterval]
  exact short

theorem inTime_after (dated : vigil.Dated) (inTime : vigil.InTime)
    (short : vigil.replica.engine.timers.progressInterval ≤ 2147483647) {turns : Nat}
    (going : (vigil.replica.runFor turns).2 = none) (fits : (vigil.after turns).Fits) :
    (vigil.after turns).InTime := by
  induction turns with
  | zero => exact inTime
  | succ turns ih =>
      obtain ⟨before, last⟩ := Replica.runFor_succ going
      have earlier : (vigil.after turns).Fits :=
        fits.earlier (dated.after turns).begun (precedes_next _) (next_seat _)
      apply InTime.next (dated.after turns) earlier
      · rw [Engine.seat_progressInterval (vigil.after_seat turns)]
        exact short
      · rw [after_replica before]
        rw [last] at going
        exact Replica.fireDue_of_turn going

/-- How a replica waits when timers are served on time: with its progress timer running and no
timer due, for a time that the machine can be asked for, and never in vain. -/
structure Waits (vigil : Vigil) : Prop where
  running : vigil.replica.engine.timers.progress.armed = true
  ahead : vigil.Ahead
  request : ∀ timeout, vigil.replica.transport.request vigil.replica.patience = some timeout →
    1 ≤ timeout ∧ timeout ≤ vigil.replica.engine.timers.progressInterval
  yields : vigil.replica.transport.Yields vigil.replica.machine
    (vigil.replica.transport.receive vigil.replica.machine vigil.replica.patience)

/-- How a turn goes when timers are served on time. Deadlines are one interval after the timer was
set; timers fire at their deadlines and are not late for them. -/
structure Prompt (vigil : Vigil) : Prop where
  progress_deadline : vigil.replica.engine.timers.progress.deadline =
    vigil.replica.machine.conditions.clockStart +
      (vigil.resetAt + vigil.replica.engine.timers.progressInterval) * nanosPerMilli
  proof_deadline : vigil.replica.engine.timers.proof.armed = true →
    vigil.replica.engine.timers.proof.deadline =
      vigil.replica.machine.conditions.clockStart +
        (vigil.announcedAt + vigil.replica.engine.timers.proofInterval) * nanosPerMilli
  inTime : vigil.InTime
  progress_fires : vigil.replica.progressFires = true ↔
    vigil.replica.machine.now = vigil.resetAt + vigil.replica.engine.timers.progressInterval
  proof_fires : vigil.replica.proofFires = true →
    vigil.replica.machine.now = vigil.announcedAt + vigil.replica.engine.timers.proofInterval
  waits : vigil.replica.fireDue.2 = none → vigil.fire.Waits

theorem Ahead.waits (dated : vigil.Dated) (fits : vigil.Fits) (ahead : vigil.Ahead)
    (short : vigil.replica.engine.timers.progressInterval ≤ 2147483647) : vigil.Waits := by
  obtain ⟨positive, inTime, -⟩ := ahead.patience dated fits
  have past := dated.reset_past.2
  constructor
  · rw [dated.progress]
    rfl
  · exact ahead
  · intro timeout asked
    rw [request_of_ahead dated fits ahead short asked]
    omega
  · apply Transport.yields_receive
    intro timeout asked
    rw [request_of_ahead dated fits ahead short asked]
    exact positive

/-- A proof timer that fires was not set in the same turn. -/
theorem proof_fires_at (dated : vigil.Dated) (fits : vigil.Fits) (inTime : vigil.InTime)
    (fires : vigil.replica.proofFires = true) :
    vigil.replica.machine.now =
      vigil.announcedAt + vigil.replica.engine.timers.proofInterval := by
  have due := Replica.isDue_of_proofFires fires
  have armed := Countdown.armed_of_isDue due
  have set := (Engine.fireProgress_change vigil.replica.engine
    vigil.replica.scenario.crashesOnQuorum vigil.replica.now).retimes.proof armed
  split at set
  · rw [set] at due
    have positive := vigil.replica.engine.timers.proof_positive
    have present := fits.proof.earlier dated.begun (by omega)
    rw [Replica.now, Machine.clock, Countdown.isDue_reset fits.proof present] at due
    omega
  · rw [set] at due armed
    have late := inTime.proof armed
    have reached := (proof_due_iff dated fits armed).1 due
    omega

theorem InTime.prompt (dated : vigil.Dated) (fits : vigil.Fits) (inTime : vigil.InTime)
    (short : vigil.replica.engine.timers.progressInterval ≤ 2147483647) : vigil.Prompt := by
  obtain ⟨present, progressShown, proofShown⟩ := shown dated fits
  constructor
  · rw [dated.progress, Countdown.deadline_reset]
    exact Conditions.reading_of_shows progressShown
  · intro armed
    rw [dated.proof armed, Countdown.deadline_reset]
    exact Conditions.reading_of_shows proofShown
  · exact inTime
  · have late := inTime.progress
    rw [Replica.progressFires_eq, progress_due_iff dated fits]
    omega
  · exact proof_fires_at dated fits inTime
  · intro going
    apply (Ahead.fire dated fits going).waits dated.fire fits.fire
    rw [fire_progressInterval]
    exact short

section Plan

variable {machine after : Machine} {plan : Replica.Plan} {roster : Roster} {replica : Replica}

theorem dated_of_plan (origin : 0 ≤ machine.now)
    (made : Replica.setUp machine plan roster = (.ok replica, after)) (turns : Nat) :
    let vigil := (opening replica).after turns
    vigil.Dated ∧ vigil.replica.machine.conditions = machine.conditions ∧
      vigil.replica.engine.timers.progressInterval = plan.progressInterval ∧
      vigil.replica.engine.timers.proofInterval = plan.proofInterval := by
  obtain ⟨progressInterval, proofInterval, later⟩ := Replica.setUp_made made
  have seat := (opening replica).after_seat turns
  exact ⟨(dated_opening (Int.le_trans origin later.forward)).after turns,
    ((opening replica).after_conditions turns).trans later.conditions,
    (Engine.seat_progressInterval seat).trans progressInterval,
    (Engine.seat_proofInterval seat).trans proofInterval⟩

/-- The proof timer has the shorter interval, so that the other one decides what fits. -/
theorem fits_of_plan (origin : 0 ≤ machine.now)
    (made : Replica.setUp machine plan roster = (.ok replica, after))
    (shorter : plan.proofInterval < plan.progressInterval) {turns : Nat}
    (going : (replica.started.runFor turns).2 = none)
    (range : machine.conditions.Shows
      ((replica.started.runFor turns).1.machine.now + plan.progressInterval)) :
    ((opening replica).after turns).Fits := by
  obtain ⟨dated, conditions, progress, proof⟩ := dated_of_plan origin made turns
  have same : ((opening replica).after turns).replica = (replica.started.runFor turns).1 :=
    after_replica going
  have begun := dated.begun
  have positive := ((opening replica).after turns).replica.engine.timers.proof_positive
  rw [proof] at positive
  rw [← same, ← conditions] at range
  constructor
  · rw [progress]
    exact range
  · rw [proof]
    exact range.earlier (by omega) (by omega)

theorem inTime_opening (replica : Replica) : (opening replica).InTime := by
  constructor
  · exact Int.le_add_of_nonneg_right
      (Int.le_of_lt replica.started.engine.timers.progress_positive)
  · intro armed
    cases armed

/-- Whatever arrives at a replica, and after however many turns, timers are served exactly on time
for as long as the clock keeps away from the end of its range by one interval. -/
theorem timers_are_served_on_time (origin : 0 ≤ machine.now)
    (made : Replica.setUp machine plan roster = (.ok replica, after))
    (shorter : plan.proofInterval < plan.progressInterval)
    (short : plan.progressInterval ≤ 2147483647) (turns : Nat)
    (going : (replica.started.runFor turns).2 = none)
    (range : machine.conditions.Shows
      ((replica.started.runFor turns).1.machine.now + plan.progressInterval)) :
    let vigil := (opening replica).after turns
    vigil.replica = (replica.started.runFor turns).1 ∧
      vigil.replica.machine.conditions = machine.conditions ∧
      vigil.replica.engine.timers.progressInterval = plan.progressInterval ∧
      vigil.replica.engine.timers.proofInterval = plan.proofInterval ∧ vigil.Prompt := by
  intro vigil
  obtain ⟨opened, -, begins, -⟩ := dated_of_plan origin made 0
  obtain ⟨dated, conditions, progress, proof⟩ := dated_of_plan origin made turns
  have fits : vigil.Fits := fits_of_plan origin made shorter going range
  have inTime : vigil.InTime :=
    inTime_after opened (inTime_opening replica) (begins.trans_le short) going fits
  exact ⟨after_replica going, conditions, progress, proof,
    inTime.prompt dated fits (progress.trans_le short)⟩

end Plan

/-- A replica that is alone installs view 1 when its progress timer fires, hears of it from itself,
and announces the view again when its proof timer fires. -/
theorem timers_are_served_on_time_of_lone_replica :
    let machine : Machine := { conditions := { localHosts := [[97]] } }
    let roster : Roster := ⟨[⟨[97], [97], 5000⟩], by decide, by decide⟩
    let asked := Replica.setUp machine ⟨[97], some .threeCrashes, 30, 10⟩ roster
    ∃ replica after, asked = (.ok replica, after) ∧
      (replica.started.runFor 4).2 = none ∧
      let vigil := (opening replica).after 4
      vigil.replica.proofFires = true ∧ vigil.announcedAt = 30 ∧ vigil.Prompt := by
  intro machine roster asked
  have made : asked = (.ok _, _) := rfl
  refine ⟨_, _, made, by decide +kernel, by decide +kernel, by decide +kernel, ?_⟩
  have prompt := timers_are_served_on_time (by decide) made (by decide) (by decide) 4
    (by decide +kernel) (by decide +kernel)
  exact prompt.2.2.2.2

/-- The range is needed. A replica that reaches nobody proposes every 24 days, until its next
deadline lies beyond the end of the clock and seems to be past. Then anything that arrives makes
the progress timer fire, here ten milliseconds after it was set. -/
theorem timers_fire_early_at_end_of_clock :
    let machine : Machine :=
      { conditions := { failingLookups := [([97], -1), ([98], -1)], horizon := 9223442282870 }
        arrivals := [⟨9221294799228, .readFailure⟩] }
    let roster : Roster := ⟨[⟨[97], [97], 5000⟩, ⟨[98], [98], 5000⟩], by decide, by decide⟩
    let asked := Replica.setUp machine ⟨[97], some .threeCrashes, 2147483647, 1⟩ roster
    ∃ replica after, asked = (.ok replica, after) ∧
      (replica.started.runFor 4295).2 = none ∧
      let vigil := (opening replica).after 4295
      vigil.replica.machine.now = 9221294799228 ∧ vigil.resetAt = 9221294799218 ∧
        vigil.replica.engine.timers.progressInterval = 2147483647 ∧
        vigil.replica.progressFires = true ∧ ¬ vigil.Prompt := by
  intro machine roster asked
  have made : ∃ replica after, asked = (.ok replica, after) ∧
      replica.engine = .ofPosition (0 : Fin 2) ⟨2147483647, 1, by decide, by decide, {}, {}⟩ ∧
      replica.scenario = ⟨some .threeCrashes, 0, 2⟩ ∧
      replica.transport.peers = [none, none] ∧ replica.transport.received = [] ∧
      replica.finished = false ∧ replica.machine.now = 19000 ∧
      replica.machine.conditions.horizon = 9223442282870 ∧
      replica.machine.conditions.clockStart = 3600000000000 ∧
      replica.machine.arrivals = [⟨9221294799228, .readFailure⟩] :=
    ⟨_, _, rfl, rfl, rfl, rfl, rfl, rfl, rfl, rfl, rfl, rfl⟩
  obtain ⟨replica, after, made, engine, scenario, peers, received, finished, clock, horizon, zero,
    arrivals⟩ := made
  refine ⟨replica, after, made, ?_⟩
  have interval : replica.engine.timers.progressInterval = 2147483647 := by
    rw [engine]
    rfl
  have alone : replica.started.Alone := by
    apply Replica.Alone.started engine (by decide) _ _ received finished
    · intro view
      rw [scenario]
      exact Bool.and_false _
    · rw [peers]
      decide
  have early : replica.started.engine.timers.progress.isDue replica.now = false := by
    apply Replica.started_early
    · rw [clock]
      decide
    · rw [Conditions.Shows, zero, interval, clock]
      decide
  obtain ⟨alive, length, counted, machineThere, ran⟩ :=
    after_alone alone (Int.le_of_eq interval) 4293 early
      (by
        rw [arrivals, interval, clock]
        decide)
      (by
        rw [horizon, interval, clock]
        decide)
  rw [interval] at length
  rw [interval, clock] at counted machineThere
  have last : (opening replica).after 4295 = ((opening replica).after (4293 + 1)).next := by
    rw [show 4295 = 4293 + 1 + 1 from rfl, Vigil.after]
  rw [last]
  -- the last instant at which the replica proposes in time
  generalize (opening replica).after (4293 + 1) = before at *
  have present : before.replica.machine.now = 9221294799218 := congrArg (·.now) machineThere
  have first : before.replica.machine.arrivals = [⟨9221294799228, .readFailure⟩] :=
    (congrArg (·.arrivals) machineThere).trans arrivals
  have reach : before.replica.machine.conditions.horizon = 9223442282870 :=
    (congrArg (·.conditions.horizon) machineThere).trans horizon
  obtain ⟨going, resetAt, now, timers⟩ := next_of_failure alive counted (by omega)
    (Int.le_of_eq length) first (by omega) (by omega)
  have laterLength : before.next.replica.engine.timers.progressInterval = 2147483647 := by
    rw [timers, TimerPair.resetProgress_interval, length]
  have zeroThere : before.replica.machine.conditions.clockStart = 3600000000000 :=
    (congrArg (·.conditions.clockStart) machineThere).trans zero
  have fires : before.next.replica.progressFires = true := by
    rw [Replica.progressFires_eq, Replica.now, Machine.clock, before.precedes_next.conditions,
      Conditions.reading, zeroThere, now, timers, present]
    change (Countdown.reset before.replica.now
      (nanosOfMillis before.replica.engine.timers.progressInterval)).isDue _ = true
    rw [length, Replica.now, Machine.clock, Conditions.reading, zeroThere, present]
    decide
  rw [present] at resetAt now
  refine ⟨?_, now, resetAt, laterLength, fires, ?_⟩
  · exact Replica.runFor_going ran going
  · intro prompt
    have late := prompt.progress_fires.1 fires
    rw [now, resetAt, laterLength] at late
    exact absurd late (by decide)

end Vigil

end ViewSync
