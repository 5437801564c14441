import ViewSync.Proofs.Vigil

/-!
A replica that is left to itself.

One vote is no quorum among several replicas. A replica that reaches nobody and hears from nobody
therefore proposes the same view in every progress interval, and apart from its progress timer it
remains as it is for as long as nothing arrives.
-/

namespace ViewSync

namespace Engine

/-- The replica knows of no vote for the next view but its own, and announces nothing. -/
structure Alone (engine : Engine) : Prop where
  several : 1 < engine.replicas
  next : engine.view ≠ maxView
  ballot : (engine.candidacy (engine.view + 1)).IsBallot (engine.view + 1) (· = engine.self)
  silent : engine.timers.proof.armed = false

variable {engine : Engine} {halts : Int → Bool} {now : Int}

theorem alone_start {replicas : Nat} (position : Fin replicas) (timers : TimerPair)
    (several : 1 < replicas) : ((ofPosition position timers).start now).Alone where
  several := Int.ofNat_lt.2 several
  next := Int.ne_of_lt (by decide : (0 : Int) < maxView)
  ballot := Certificate.isBallot_blank 1 _
  silent := rfl

theorem Alone.own_vote_not_valid (alone : engine.Alone) :
    ¬ ((engine.candidacy (engine.view + 1)).add ⟨engine.self, engine.view + 1⟩).isValid
      engine.replicas = true := by
  have ballot := alone.ballot.add rfl
  have quorum := two_le_quorumSize alone.several
  have own : ((engine.candidacy (engine.view + 1)).add
      ⟨engine.self, engine.view + 1⟩).voters ⊆ {engine.self} := by
    intro voter voted
    exact Finset.mem_singleton.2 (ballot.cast voter voted)
  have few := Finset.card_le_card own
  rw [Finset.card_singleton] at few
  have seated : ∀ voter, voter = engine.self → 0 ≤ voter ∧ voter < engine.replicas := by
    intro voter same
    rw [same]
    exact engine.seated
  rw [ballot.isValid_iff seated engine.roster_positive]
  omega

theorem Alone.progressTimeout (alone : engine.Alone) (calm : ∀ view, halts view = false) :
    (engine.progressTimeout halts now).engine.Alone ∧
      (engine.progressTimeout halts now).engine.timers = engine.timers.resetProgress now ∧
      (engine.progressTimeout halts now).events =
        [.broadcast (.viewChange (engine.view + 1))] := by
  obtain ⟨after, events⟩ := @progressTimeout_of_next engine halts now (calm _) alone.next
  have invalid : ¬ ((engine.candidacy (engine.view + 1)).add
      ⟨engine.self, engine.view + 1⟩).isValid (engine.rearm now).replicas = true :=
    alone.own_vote_not_valid
  rw [tally_of_not_valid invalid] at after events
  rw [after, events]
  refine ⟨⟨alone.several, alone.next, ?_, alone.silent⟩, rfl, rfl⟩
  change ((((engine.rearm now).pending.insert (engine.view + 1) _)[engine.view + 1]?).getD
    _).IsBallot (engine.view + 1) (· = engine.self)
  rw [Table.getElem?_insert, if_pos rfl]
  exact alone.ballot.add rfl

theorem Alone.fireDue (alone : engine.Alone) (calm : ∀ view, halts view = false)
    (periodic : Bool) (due : engine.timers.progress.isDue now = true) :
    (engine.fireDue halts periodic now).engine.Alone ∧
      (engine.fireDue halts periodic now).engine.timers = engine.timers.resetProgress now ∧
      (engine.fireDue halts periodic now).events =
        [.broadcast (.viewChange (engine.view + 1))] := by
  obtain ⟨proposes, timers, events⟩ := @Alone.progressTimeout engine halts now alone calm
  obtain ⟨sameEngine, sameEvents⟩ := @fireDue_eq engine halts now calm periodic
  obtain ⟨fired, seen, -⟩ := @fireProgress_of_due engine halts now due
  rw [fired] at sameEngine sameEvents
  rw [seen, events] at sameEvents
  have asked := (engine.progressTimeout halts now).engine.proofAsked_fireProof periodic now
  have early : (engine.progressTimeout halts now).engine.timers.proof.isDue now = false := by
    rw [Countdown.isDue, proposes.silent]
    rfl
  rw [sameEngine, sameEvents]
  generalize ((engine.progressTimeout halts now).engine.fireProof periodic now).engine = last
    at asked ⊢
  generalize ((engine.progressTimeout halts now).engine.fireProof periodic now).events = more
    at asked ⊢
  cases asked with
  | waiting early => exact ⟨proposes, timers, rfl⟩
  | silent due disarmed => exact absurd (early.symm.trans due) Bool.false_ne_true
  | announced due reset announces => exact absurd (early.symm.trans due) Bool.false_ne_true

end Engine

theorem Transport.broadcast_to_nobody {transport : Transport}
    (deaf : ∀ peer ∈ transport.peers, peer = none) (machine : Machine) (message : Message) :
    transport.broadcast machine message = ([], machine) := by
  have nobody : ∀ (frame : Bytes) (peers : List (Option Address)),
      (∀ peer ∈ peers, peer = none) → sendEach frame peers machine = ([], machine) := by
    intro frame peers unknown
    induction peers with
    | nil => rfl
    | cons peer rest ih =>
        rw [unknown peer List.mem_cons_self]
        exact ih fun other later => unknown other (List.mem_cons_of_mem peer later)
  unfold broadcast sendTo
  split
  · rfl
  · exact nobody _ _ deaf

namespace Replica

/-- The replica reaches nobody, has heard from nobody, and is not made to die. -/
structure Alone (replica : Replica) : Prop where
  engine : replica.engine.Alone
  calm : ∀ view, replica.scenario.crashesOnQuorum view = false
  deaf : ∀ peer ∈ replica.transport.peers, peer = none
  empty : replica.transport.received = []
  going : replica.finished = false

def moved (replica : Replica) (engine : Engine) (millis : Int) : Replica :=
  { replica with engine, machine := { replica.machine with now := millis } }

variable {replica : Replica}

theorem Alone.started {replicas : Nat} {position : Fin replicas} {timers : TimerPair}
    (engine : replica.engine = .ofPosition position timers) (several : 1 < replicas)
    (calm : ∀ view, replica.scenario.crashesOnQuorum view = false)
    (deaf : ∀ peer ∈ replica.transport.peers, peer = none)
    (empty : replica.transport.received = []) (going : replica.finished = false) :
    replica.started.Alone := by
  refine ⟨?_, calm, deaf, empty, going⟩
  rw [Replica.started, engine]
  exact Engine.alone_start position timers several

theorem started_early (begun : 0 ≤ replica.machine.now)
    (range : replica.machine.conditions.Shows
      (replica.machine.now + replica.engine.timers.progressInterval)) :
    replica.started.engine.timers.progress.isDue replica.now = false := by
  have positive := replica.engine.timers.progress_positive
  rw [← Bool.not_eq_true]
  intro due
  have reached := (Countdown.isDue_reset range (range.earlier begun (by omega))).1 due
  omega

theorem Alone.moved (alone : replica.Alone) {engine : Engine} (still : engine.Alone)
    (millis : Int) : (replica.moved engine millis).Alone :=
  ⟨still, alone.calm, alone.deaf, alone.empty, alone.going⟩

theorem Alone.fireDue (alone : replica.Alone)
    (due : replica.engine.timers.progress.isDue replica.now = true) :
    ∃ engine : Engine, engine.Alone ∧
      engine.timers = replica.engine.timers.resetProgress replica.now ∧
      replica.fireDue = (replica.moved engine replica.machine.now, none) := by
  obtain ⟨still, timers, events⟩ :=
    alone.engine.fireDue alone.calm replica.scenario.periodicProofs due
  refine ⟨replica.firing.engine, still, timers, ?_⟩
  have proposed : replica.follow replica.firing.engine replica.firing.events =
      replica.moved replica.firing.engine replica.machine.now := by
    unfold firing
    rw [events]
    unfold follow
    rw [List.foldl_cons, List.foldl_nil, perform, Transport.broadcast_to_nobody alone.deaf]
    simp only [Replica.moved, Array.appendList_nil]
  have settled : ∀ view, replica.firing.progress ≠ some (.halted view) :=
    Engine.fireDue_not_halted alone.calm _
  rw [fireDue_settled _ settled, proposed]
  have going : (replica.moved replica.firing.engine replica.machine.now).finished = false :=
    alone.going
  rw [going]
  rfl

theorem Alone.fireDue_early (alone : replica.Alone)
    (early : replica.engine.timers.progress.isDue replica.now = false) :
    replica.fireDue = (replica, none) := by
  have waiting := Bool.eq_false_iff.1 early
  obtain ⟨sameEngine, sameEvents⟩ := @Engine.fireDue_eq replica.engine
    replica.scenario.crashesOnQuorum replica.now alone.calm replica.scenario.periodicProofs
  obtain ⟨unfired, unseen, -⟩ := @Engine.fireProgress_of_not_due replica.engine
    replica.scenario.crashesOnQuorum replica.now waiting
  have silent : ¬ replica.engine.timers.proof.isDue replica.now = true := by
    rw [Countdown.isDue, alone.engine.silent]
    exact Bool.false_ne_true
  have asked := Engine.fireProof_of_early replica.scenario.periodicProofs silent
  rw [unfired, asked] at sameEngine sameEvents
  rw [unseen] at sameEvents
  have settled : ∀ view, replica.firing.progress ≠ some (.halted view) :=
    Engine.fireDue_not_halted alone.calm _
  have quiet : replica.follow replica.firing.engine replica.firing.events = replica := by
    unfold firing
    rw [sameEngine, sameEvents]
    rfl
  rw [fireDue_settled _ settled, quiet, alone.going]
  rfl

theorem listen_in_vain (empty : replica.transport.received = []) (patient : 0 ≤ replica.patience)
    (short : replica.patience ≤ 2147483647)
    (quiet : ∀ arrival ∈ replica.machine.arrivals,
      replica.machine.now + replica.patience < arrival.time)
    (far : replica.machine.now + replica.patience ≤ replica.machine.conditions.horizon) :
    replica.listen =
      (replica.moved replica.engine (replica.machine.now + replica.patience), none) := by
  have asked : Transport.pollTimeout replica.patience = replica.patience :=
    (Transport.pollTimeout_eq_iff patient).2 short
  have waitedOut : replica.machine.waitOut replica.patience =
      (.nothing, { replica.machine with now := replica.machine.now + replica.patience }) := by
    rw [Machine.waitOut, if_neg]
    simp only [Bool.or_eq_true, decide_eq_true_eq]
    omega
  have waited : replica.machine.await replica.patience =
      (.nothing, { replica.machine with now := replica.machine.now + replica.patience }) := by
    unfold Machine.await
    cases arrivals : replica.machine.arrivals with
    | nil => exact waitedOut
    | cons arrival rest =>
        have later := quiet arrival (arrivals ▸ List.mem_cons_self)
        dsimp only
        rw [if_neg]
        · exact waitedOut
        · simp only [Bool.or_eq_true, decide_eq_true_eq]
          omega
  have heard : replica.hear =
      (.nothing, replica.moved replica.engine (replica.machine.now + replica.patience)) := by
    unfold hear
    rw [Transport.receive_of_empty empty, asked, waited]
    rfl
  rw [listen_eq, heard]

theorem hear_arrival {arrival : Arrival} {rest : List Arrival}
    (empty : replica.transport.received = []) (patient : 0 ≤ replica.patience)
    (short : replica.patience ≤ 2147483647)
    (first : replica.machine.arrivals = arrival :: rest)
    (soon : arrival.time ≤ replica.machine.now + replica.patience)
    (near : arrival.time ≤ replica.machine.conditions.horizon) :
    replica.hear =
      ((replica.transport.takeIn (Machine.heard arrival.signal)).1,
        { replica with
          transport := (replica.transport.takeIn (Machine.heard arrival.signal)).2
          machine :=
            { replica.machine with
              now := max replica.machine.now arrival.time, arrivals := rest } }) := by
  have asked : Transport.pollTimeout replica.patience = replica.patience :=
    (Transport.pollTimeout_eq_iff patient).2 short
  have taken : replica.machine.await replica.patience =
      (Machine.heard arrival.signal,
        { replica.machine with
          now := max replica.machine.now arrival.time, arrivals := rest }) := by
    unfold Machine.await
    rw [first]
    dsimp only
    rw [if_pos, if_neg (Int.not_lt.2 near)]
    simp only [Bool.or_eq_true, decide_eq_true_eq]
    omega
  unfold hear
  rw [Transport.receive_of_empty empty, asked, taken]

theorem hear_failure {time : Int} {rest : List Arrival}
    (empty : replica.transport.received = []) (patient : 0 ≤ replica.patience)
    (short : replica.patience ≤ 2147483647)
    (first : replica.machine.arrivals = ⟨time, .readFailure⟩ :: rest)
    (soon : time ≤ replica.machine.now + replica.patience)
    (near : time ≤ replica.machine.conditions.horizon) :
    replica.hear =
      (.nothing,
        { replica with
          machine :=
            { replica.machine with now := max replica.machine.now time, arrivals := rest } }) :=
  hear_arrival empty patient short first soon near

structure Counts (replica : Replica) (since : Int) : Prop where
  set : replica.engine.timers.progress =
    .reset (replica.machine.conditions.reading since)
      (nanosOfMillis replica.engine.timers.progressInterval)
  silent : replica.engine.timers.proof.armed = false

theorem Counts.patience {since : Int} (counts : replica.Counts since)
    (near : Showable ((since + replica.engine.timers.progressInterval - replica.machine.now) *
      nanosPerMilli)) :
    replica.patience =
      max (since + replica.engine.timers.progressInterval - replica.machine.now) 0 := by
  have left := TimerPair.millisLeft_reset replica.machine.conditions near
  rw [← counts.set] at left
  have running : replica.engine.timers.progress.armed = true := by
    rw [counts.set]
    rfl
  unfold Replica.patience TimerPair.untilNextDeadline Replica.now Machine.clock
  rw [running, counts.silent]
  dsimp only
  rw [left]

theorem Counts.isDue {since : Int} (counts : replica.Counts since)
    (due : replica.machine.now = since + replica.engine.timers.progressInterval) :
    replica.engine.timers.progress.isDue replica.now = true := by
  rw [Countdown.isDue, counts.set, Countdown.deadline_reset, ← due]
  simp only [Countdown.reset, Replica.now, Machine.clock, Int.le_refl, decide_true, Bool.and_true]

theorem Counts.of_timers {since : Int} (counts : replica.Counts since) {engine : Engine}
    (timers : engine.timers = replica.engine.timers.resetProgress replica.now) (millis : Int) :
    (replica.moved engine millis).Counts replica.machine.now := by
  constructor
  · change engine.timers.progress = .reset _ (nanosOfMillis engine.timers.progressInterval)
    rw [timers]
    rfl
  · change engine.timers.proof.armed = false
    rw [timers]
    exact counts.silent

theorem Alone.wait (alone : replica.Alone) (counts : replica.Counts replica.machine.now)
    (short : replica.engine.timers.progressInterval ≤ 2147483647)
    (quiet : ∀ arrival ∈ replica.machine.arrivals,
      replica.machine.now + replica.engine.timers.progressInterval < arrival.time)
    (far : replica.machine.now + replica.engine.timers.progressInterval ≤
      replica.machine.conditions.horizon) :
    replica.listen =
      (replica.moved replica.engine
        (replica.machine.now + replica.engine.timers.progressInterval), none) := by
  have positive := replica.engine.timers.progress_positive
  have patience : replica.patience = replica.engine.timers.progressInterval := by
    rw [counts.patience]
    · omega
    · unfold Showable nanosPerMilli
      omega
  rw [← patience] at short quiet far positive ⊢
  exact listen_in_vain alone.empty (Int.le_of_lt positive) short quiet far

/-- A turn that begins when the progress timer is due ends when it is due again. -/
theorem Alone.turn {since : Int} (alone : replica.Alone) (counts : replica.Counts since)
    (due : replica.machine.now = since + replica.engine.timers.progressInterval)
    (short : replica.engine.timers.progressInterval ≤ 2147483647)
    (quiet : ∀ arrival ∈ replica.machine.arrivals,
      replica.machine.now + replica.engine.timers.progressInterval < arrival.time)
    (far : replica.machine.now + replica.engine.timers.progressInterval ≤
      replica.machine.conditions.horizon) :
    ∃ engine : Engine, engine.Alone ∧
      engine.timers = replica.engine.timers.resetProgress replica.now ∧
      replica.turn =
        (replica.moved engine
          (replica.machine.now + replica.engine.timers.progressInterval), none) := by
  obtain ⟨engine, still, timers, fired⟩ := alone.fireDue (counts.isDue due)
  have interval : engine.timers.progressInterval = replica.engine.timers.progressInterval := by
    rw [timers, TimerPair.resetProgress_interval]
  refine ⟨engine, still, timers, ?_⟩
  have waits := (alone.moved still replica.machine.now).wait (counts.of_timers timers _)
    (interval.trans_le short)
  change (∀ arrival ∈ replica.machine.arrivals,
      replica.machine.now + engine.timers.progressInterval < arrival.time) →
    replica.machine.now + engine.timers.progressInterval ≤ replica.machine.conditions.horizon →
      (replica.moved engine replica.machine.now).listen =
        (replica.moved engine
          (replica.machine.now + engine.timers.progressInterval), none) at waits
  rw [interval] at waits
  rw [Replica.turn, fired]
  exact waits quiet far

/-- Left to itself, the replica proposes once in every interval and nothing else happens. -/
theorem Alone.runFor {since : Int} (alone : replica.Alone) (counts : replica.Counts since)
    (due : replica.machine.now = since + replica.engine.timers.progressInterval)
    (short : replica.engine.timers.progressInterval ≤ 2147483647) (turns : Nat)
    (quiet : ∀ arrival ∈ replica.machine.arrivals,
      replica.machine.now + turns * replica.engine.timers.progressInterval < arrival.time)
    (far : replica.machine.now + turns * replica.engine.timers.progressInterval ≤
      replica.machine.conditions.horizon) :
    ∃ engine : Engine, engine.Alone ∧
      engine.timers.progressInterval = replica.engine.timers.progressInterval ∧
      (replica.moved engine
        (replica.machine.now + turns * replica.engine.timers.progressInterval)).Counts
          (since + turns * replica.engine.timers.progressInterval) ∧
      replica.runFor turns =
        (replica.moved engine
          (replica.machine.now + turns * replica.engine.timers.progressInterval), none) := by
  have positive := replica.engine.timers.progress_positive
  generalize length : replica.engine.timers.progressInterval = interval at *
  induction turns generalizing replica since with
  | zero =>
      rw [show ((0 : Nat) : Int) = 0 from rfl, Int.zero_mul, Int.add_zero, Int.add_zero]
      exact ⟨replica.engine, alone.engine, length, counts, rfl⟩
  | succ turns ih =>
      have rest : (turns + 1 : Nat) * interval = interval + turns * interval := by
        rw [Int.natCast_succ, Int.add_mul, Int.one_mul, Int.add_comm]
      have more : 0 ≤ turns * interval :=
        Int.mul_nonneg (Int.natCast_nonneg turns) (Int.le_of_lt positive)
      rw [rest] at far quiet ⊢
      rw [← Int.add_assoc] at far quiet ⊢
      have soon : ∀ arrival ∈ replica.machine.arrivals,
          replica.machine.now + replica.engine.timers.progressInterval < arrival.time := by
        intro arrival listed
        have later := quiet arrival listed
        omega
      obtain ⟨engine, still, timers, turned⟩ :=
        alone.turn counts (by omega) (by omega) soon (by omega)
      rw [length] at turned
      have same : engine.timers.progressInterval = interval := by
        rw [timers, TimerPair.resetProgress_interval, length]
      obtain ⟨last, lastAlone, lastInterval, lastCounts, ran⟩ :=
        ih (alone.moved still (replica.machine.now + interval)) (counts.of_timers timers _)
          same rfl quiet far
      refine ⟨last, lastAlone, lastInterval, ?_, ?_⟩
      · rw [← Int.add_assoc, ← due]
        exact lastCounts
      · rw [Replica.runFor, turned]
        exact ran

theorem Alone.runFor_from_set (alone : replica.Alone)
    (counts : replica.Counts replica.machine.now)
    (short : replica.engine.timers.progressInterval ≤ 2147483647) (turns : Nat)
    (early : replica.engine.timers.progress.isDue replica.now = false)
    (quiet : ∀ arrival ∈ replica.machine.arrivals,
      replica.machine.now + replica.engine.timers.progressInterval +
        turns * replica.engine.timers.progressInterval < arrival.time)
    (far : replica.machine.now + replica.engine.timers.progressInterval +
      turns * replica.engine.timers.progressInterval ≤ replica.machine.conditions.horizon) :
    ∃ engine : Engine, engine.Alone ∧
      engine.timers.progressInterval = replica.engine.timers.progressInterval ∧
      (replica.moved engine
        (replica.machine.now + replica.engine.timers.progressInterval +
          turns * replica.engine.timers.progressInterval)).Counts
        (replica.machine.now + turns * replica.engine.timers.progressInterval) ∧
      replica.runFor (turns + 1) =
        (replica.moved engine
          (replica.machine.now + replica.engine.timers.progressInterval +
            turns * replica.engine.timers.progressInterval), none) := by
  have more : 0 ≤ turns * replica.engine.timers.progressInterval :=
    Int.mul_nonneg (Int.natCast_nonneg turns)
      (Int.le_of_lt replica.engine.timers.progress_positive)
  have soon : ∀ arrival ∈ replica.machine.arrivals,
      replica.machine.now + replica.engine.timers.progressInterval < arrival.time := by
    intro arrival listed
    have later := quiet arrival listed
    omega
  have waited := alone.wait counts short soon (by omega)
  have turned : replica.turn =
      (replica.moved replica.engine
        (replica.machine.now + replica.engine.timers.progressInterval), none) := by
    rw [Replica.turn, alone.fireDue_early early]
    exact waited
  have standing : (replica.moved replica.engine
      (replica.machine.now + replica.engine.timers.progressInterval)).Counts
        replica.machine.now := ⟨counts.set, counts.silent⟩
  obtain ⟨engine, still, interval, last, ran⟩ :=
    (alone.moved alone.engine _).runFor standing rfl short turns quiet far
  refine ⟨engine, still, interval, last, ?_⟩
  rw [Replica.runFor, turned]
  exact ran

def interrupted (replica : Replica) (engine : Engine) (time : Int) (rest : List Arrival) :
    Replica :=
  { replica with
    engine
    machine := { replica.machine with now := max replica.machine.now time, arrivals := rest } }

/-- A turn that begins when the progress timer is due is cut short by an arrival, though it
cannot be read. -/
theorem Alone.turn_failure {since time : Int} {rest : List Arrival} (alone : replica.Alone)
    (counts : replica.Counts since)
    (due : replica.machine.now = since + replica.engine.timers.progressInterval)
    (short : replica.engine.timers.progressInterval ≤ 2147483647)
    (first : replica.machine.arrivals = ⟨time, .readFailure⟩ :: rest)
    (soon : time ≤ replica.machine.now + replica.engine.timers.progressInterval)
    (near : time ≤ replica.machine.conditions.horizon) :
    ∃ engine : Engine,
      engine.timers = replica.engine.timers.resetProgress replica.now ∧
      replica.fireDue.2 = none ∧ replica.fireDue.1.hear.1 = .nothing ∧
      replica.turn = (replica.interrupted engine time rest, none) := by
  have positive := replica.engine.timers.progress_positive
  obtain ⟨engine, still, timers, fired⟩ := alone.fireDue (counts.isDue due)
  have interval : engine.timers.progressInterval = replica.engine.timers.progressInterval := by
    rw [timers, TimerPair.resetProgress_interval]
  have patience : (replica.moved engine replica.machine.now).patience =
      replica.engine.timers.progressInterval := by
    rw [(counts.of_timers timers replica.machine.now).patience]
    · change max (replica.machine.now + engine.timers.progressInterval - replica.machine.now) 0 = _
      omega
    · change Showable ((replica.machine.now + engine.timers.progressInterval -
        replica.machine.now) * nanosPerMilli)
      unfold Showable nanosPerMilli
      omega
  have heard : (replica.moved engine replica.machine.now).hear =
      (.nothing, replica.interrupted engine time rest) := by
    apply @hear_failure (replica.moved engine replica.machine.now) _ _ alone.empty
    · omega
    · omega
    · exact first
    · rw [patience]
      exact soon
    · exact near
  refine ⟨engine, timers, ?_, ?_, ?_⟩
  · rw [fired]
  · rw [fired, heard]
  · rw [Replica.turn, fired]
    change (replica.moved engine replica.machine.now).listen = _
    rw [listen_eq, heard]

end Replica

/-! ### The vigil over such a replica -/

namespace Vigil

variable {vigil : Vigil}

theorem next_resetAt (fires : vigil.replica.progressFires = true)
    (going : vigil.replica.fireDue.2 = none)
    (silent : vigil.replica.fireDue.1.hear.1 = .nothing) :
    vigil.next.resetAt = vigil.replica.machine.now := by
  have asked : vigil.replica.firing.progress.isSome = true := by
    rw [Replica.firing, Engine.fireDue_asked, ← Replica.progressFires_eq]
    exact fires
  have heard : vigil.fire.replica.hear.1 = .nothing := silent
  rw [next, going, Option.isSome_none, if_neg Bool.false_ne_true, listen, heard]
  change (if vigil.replica.firing.progress.isSome then vigil.replica.fireDue.1.machine.now
    else vigil.resetAt) = _
  rw [asked, if_pos rfl, Replica.fireDue_clock]

theorem next_of_failure {since time : Int} {rest : List Arrival} (alone : vigil.replica.Alone)
    (counts : vigil.replica.Counts since)
    (due : vigil.replica.machine.now =
      since + vigil.replica.engine.timers.progressInterval)
    (short : vigil.replica.engine.timers.progressInterval ≤ 2147483647)
    (first : vigil.replica.machine.arrivals = ⟨time, .readFailure⟩ :: rest)
    (soon : time ≤
      vigil.replica.machine.now + vigil.replica.engine.timers.progressInterval)
    (near : time ≤ vigil.replica.machine.conditions.horizon) :
    vigil.replica.turn.2 = none ∧ vigil.next.resetAt = vigil.replica.machine.now ∧
      vigil.next.replica.machine.now = max vigil.replica.machine.now time ∧
      vigil.next.replica.engine.timers =
        vigil.replica.engine.timers.resetProgress vigil.replica.now := by
  obtain ⟨engine, timers, fired, heard, turned⟩ :=
    alone.turn_failure counts due short first soon near
  refine ⟨congrArg Prod.snd turned, ?_, ?_, ?_⟩
  · apply next_resetAt
    · rw [Replica.progressFires_eq]
      exact counts.isDue due
    · exact fired
    · exact heard
  · rw [next_replica, turned]
    rfl
  · rw [next_replica, turned]
    exact timers

theorem after_alone {replica : Replica} (alone : replica.started.Alone)
    (short : replica.engine.timers.progressInterval ≤ 2147483647) (turns : Nat)
    (early : replica.started.engine.timers.progress.isDue replica.now = false)
    (quiet : ∀ arrival ∈ replica.machine.arrivals,
      replica.machine.now + replica.engine.timers.progressInterval +
        turns * replica.engine.timers.progressInterval < arrival.time)
    (far : replica.machine.now + replica.engine.timers.progressInterval +
      turns * replica.engine.timers.progressInterval ≤ replica.machine.conditions.horizon) :
    let before := ((opening replica).after (turns + 1)).replica
    before.Alone ∧
      before.engine.timers.progressInterval = replica.engine.timers.progressInterval ∧
      before.Counts (replica.machine.now + turns * replica.engine.timers.progressInterval) ∧
      before.machine =
        { replica.machine with
          now := replica.machine.now + replica.engine.timers.progressInterval +
            turns * replica.engine.timers.progressInterval } ∧
      replica.started.runFor (turns + 1) = (before, none) := by
  have counts : replica.started.Counts replica.machine.now := ⟨rfl, alone.engine.silent⟩
  obtain ⟨engine, still, interval, last, ran⟩ :=
    alone.runFor_from_set counts short turns early quiet far
  have going : ((opening replica).replica.runFor (turns + 1)).2 = none := congrArg Prod.snd ran
  rw [(after_replica going).trans (congrArg Prod.fst ran)]
  exact ⟨alone.moved still _, interval, last, rfl, ran⟩

end Vigil

end ViewSync
