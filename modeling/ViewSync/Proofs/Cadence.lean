import ViewSync.Proofs.Election
import ViewSync.Proofs.Rhythm

/-!
The beat at which a leader announces its view.

A replica announces a view only while it leads it and has installed it. The first announcement is
part of the installation. From then on the proof timer sets the beat: it is asked in every turn, the
replica never waits beyond it, and nothing but an installation and the announcement itself sets it.
So the announcements of a view are one proof interval apart for as long as the replica stays in it,
with the same attestations each time; and there is only the first where leaders are to fall silent.
All this is so as long as deadlines do not lie beyond the range of the clock.
-/

namespace ViewSync

/-! ### The beat of a run -/

namespace Replica

section Beat

variable {replica : Replica} {since : Int}

theorem Rested.not_due (rested : replica.Rested)
    (begun : 0 ≤ replica.machine.now)
    (range : replica.machine.conditions.Shows
      (replica.machine.now + replica.engine.timers.proofInterval)) :
    ¬ replica.engine.timers.proof.isDue replica.now = true := by
  intro due
  have positive := replica.engine.timers.proof_positive
  have present := range.earlier begun (by omega)
  rw [rested due, Replica.now, Machine.clock, Countdown.isDue_reset range present] at due
  omega

/-- A replica whose proof timer runs does not wait beyond its deadline. -/
theorem hear_le_deadline (rested : replica.Rested)
    (short : replica.engine.timers.proofInterval ≤ 2147483647) (begun : 0 ≤ since)
    (past : since ≤ replica.machine.now)
    (set : replica.engine.timers.proof =
      .reset (replica.machine.conditions.reading since)
        (nanosOfMillis replica.engine.timers.proofInterval))
    (range : replica.machine.conditions.Shows
      (replica.machine.now + replica.engine.timers.proofInterval)) :
    replica.hear.2.machine.now ≤ since + replica.engine.timers.proofInterval := by
  have positive := replica.engine.timers.proof_positive
  have present := range.earlier (begun.trans past) (by omega)
  have reached : replica.machine.conditions.Shows
      (since + replica.engine.timers.proofInterval) :=
    range.earlier (by omega) (by omega)
  have ahead : replica.machine.now < since + replica.engine.timers.proofInterval := by
    have waiting := rested.not_due (begun.trans past) range
    rw [set, Replica.now, Machine.clock, Countdown.isDue_reset reached present] at waiting
    exact Int.not_le.1 waiting
  have left : TimerPair.millisLeft replica.engine.timers.proof replica.now =
      since + replica.engine.timers.proofInterval - replica.machine.now := by
    rw [set]
    exact TimerPair.millisLeft_reset _ (reached.apart present (begun.trans past) (by omega))
  have patient : 0 ≤ replica.patience ∧ replica.patience ≤
      since + replica.engine.timers.proofInterval - replica.machine.now := by
    have running : replica.engine.timers.proof.armed = true := by
      rw [set]
      rfl
    unfold Replica.patience TimerPair.untilNextDeadline
    rw [running, left]
    cases replica.engine.timers.progress.armed with
    | true =>
        dsimp only
        omega
    | false =>
        dsimp only
        omega
  have waited := @Transport.receive_le replica.transport replica.patience
    (since + replica.engine.timers.proofInterval - replica.machine.now) replica.machine
    (by omega) (by
      intro timeout asked
      rw [Transport.request] at asked
      split at asked
      · cases asked
        rw [(Transport.pollTimeout_eq_iff patient.1).2 (by omega)]
        exact patient
      · cases asked)
  change replica.hear.2.machine.now ≤ replica.machine.now + _ at waited
  omega

end Beat

section Stages

variable {conditions : Conditions} {replica : Replica} {periodic : Bool} {past : List Stage}
  (here : replica.machine.conditions = conditions)
  (rhythm : Rhythm conditions periodic past replica.engine replica.machine.now)

include here rhythm

theorem rhythm_askProgress :
    Rhythm conditions periodic (past ++ [replica.askProgress]) replica.askProgress.after.engine
      replica.askProgress.after.machine.now := by
  have clock : replica.askProgress.time = replica.machine.now := replica.follow_clock _ _
  obtain ⟨set, change⟩ := replica.askProgress_change
  rw [now, Machine.clock, here] at change
  have next := rhythm.change clock change
  rw [← clock] at next
  exact next

theorem rhythm_askProof (often : replica.scenario.periodicProofs = periodic) :
    Rhythm conditions periodic (past ++ [replica.askProof]) replica.askProof.after.engine
      replica.askProof.after.machine.now := by
  have clock : replica.askProof.time = replica.machine.now := replica.follow_clock _ _
  have asked : replica.proofAsked =
      replica.engine.fireProof periodic (conditions.reading replica.machine.now) := by
    rw [proofAsked, often, now, Machine.clock, here]
  have engine : replica.askProof.after.engine = replica.proofAsked.engine := by
    rw [askProof, follow_engine]
  rw [asked] at engine
  have next := rhythm.asked replica.askProof clock engine (congrArg Engine.Firing.events asked)
  rw [← clock] at next
  exact next

theorem rhythm_attend (rested : replica.Rested)
    (short : replica.engine.timers.proofInterval ≤ 2147483647) :
    Rhythm conditions periodic (past ++ [replica.attend]) replica.attend.after.engine
      replica.attend.after.machine.now := by
  have clock : replica.attend.time = replica.hear.2.machine.now := replica.attend_clock
  have begun := rhythm.begun
  have forward := replica.precedes_hear.forward
  have positive := replica.engine.timers.proof_positive
  have waited := rhythm.wait forward (by
    intro since origin past set range
    rw [← here] at set range
    exact hear_le_deadline rested short origin past set (range.earlier (by omega) (by omega)))
  obtain ⟨set, change⟩ := replica.attend_change
  rw [now, Machine.clock, replica.regular_attend.later.conditions.trans here] at change
  rw [← clock] at waited
  exact waited.change rfl change

end Stages

/-- The beat that a replica keeps, whatever arrives. -/
theorem rhythm_course (start : Replica) (turns : Nat)
    (short : start.engine.timers.proofInterval ≤ 2147483647)
    (opened : Rhythm start.machine.conditions start.scenario.periodicProofs [] start.engine
      start.machine.now) :
    Rhythm start.machine.conditions start.scenario.periodicProofs (start.course turns)
      (start.runFor turns).1.engine (start.runFor turns).1.machine.now := by
  let holds (past : List Stage) (replica : Replica) : Prop :=
    start.Continues replica ∧
      Rhythm start.machine.conditions start.scenario.periodicProofs past replica.engine
        replica.machine.now
  have kept : holds (start.course turns) (start.runFor turns).1 := by
    refine @course_induction holds ?_ ?_ ?_ turns [] start ⟨.refl start, opened⟩
    · intro past replica held
      obtain ⟨same, rhythm⟩ := held
      exact ⟨replica.regular_askProgress.continues same,
        rhythm_askProgress same.conditions rhythm⟩
    · intro past replica held
      obtain ⟨same, rhythm⟩ := held
      exact ⟨replica.regular_askProof.continues same,
        rhythm_askProof same.conditions rhythm (congrArg _ same.scenario)⟩
    · intro past replica held rested
      obtain ⟨same, rhythm⟩ := held
      exact ⟨replica.regular_attend.continues same,
        rhythm_attend same.conditions rhythm rested
          ((Engine.seat_proofInterval same.seat).trans_le short)⟩
  exact kept.2

/-! ### Beyond the range of the clock -/

section Twice

variable {replica : Replica} {time : Int} {attestations : List Attestation}

theorem Called.proofs_attend {view : Int} (called : replica.Called time view attestations)
    (short : replica.patience ≤ 2147483647)
    (soon : time ≤ replica.machine.now + replica.patience) :
    replica.attend.proofs view = [(time, (Certificate.ofList view attestations).attestations)] := by
  obtain ⟨clock, events, -, -⟩ := called.attend short soon
  rw [Engine.install_eq, if_pos called.leads] at events
  rw [Stage.proofs_of_announced (by rw [events]; rfl), clock]

theorem proofsOf_at_last_view (last : replica.engine.view = maxView)
    (due : replica.engine.timers.proof.isDue replica.now = true)
    (periodic : replica.scenario.periodicProofs = true)
    (leads : leaderOf replica.engine.view replica.engine.replicas = replica.engine.self)
    (valid : replica.engine.installed.isValid replica.engine.replicas = true) :
    ∃ more, proofsOf maxView replica.stages =
      (replica.machine.now, replica.engine.installed.attestations) :: more := by
  obtain ⟨rest, stages, silent, told⟩ := stages_at_last_view last due periodic leads valid
  have clock : replica.askProgress.after.askProof.time = replica.machine.now :=
    (follow_clock _ _ _).trans (follow_clock _ _ _)
  have announced : replica.askProgress.after.askProof.proofs maxView =
      [(replica.machine.now, replica.engine.installed.attestations)] := by
    rw [Stage.proofs_of_announced (by rw [told]; rfl), clock]
  have before : replica.askProgress.proofs maxView = [] := by
    rw [Stage.proofs, silent]
    rfl
  refine ⟨proofsOf maxView rest, ?_⟩
  rw [stages, proofsOf, List.flatMap_cons, List.flatMap_cons, before, announced]
  rfl

/-- A leader of the last view announces it twice if its proof timer is due as soon as it is set. -/
theorem Called.announces_twice (called : replica.asked.Called time maxView attestations)
    (going : replica.fireDue.2 = none) (short : replica.asked.patience ≤ 2147483647)
    (soon : time ≤ replica.asked.machine.now + replica.asked.patience)
    (often : replica.asked.scenario.periodicProofs = true)
    (gone : (Countdown.reset (replica.asked.machine.conditions.reading time)
      (nanosOfMillis replica.asked.engine.timers.proofInterval)).isDue
        (replica.asked.machine.conditions.reading time) = true) :
    ∃ (stage : Stage) (proven : List Attestation) (more : List (Int × List Attestation)),
      stage ∈ replica.course 2 ∧ stage.time = time ∧
      .viewInstalled maxView replica.asked.engine.self ∈ stage.events ∧
      proofsOf maxView (replica.course 2) =
        proofsOf maxView [replica.askProgress, replica.askProgress.after.askProof] ++
          (time, proven) :: (time, proven) :: more := by
  obtain ⟨stages, turned⟩ := called.turn going short soon
  obtain ⟨clock, events, engine, -⟩ := called.attend short soon
  have announced := called.proofs_attend short soon
  have valid := Certificate.isValid_ofList called.quorum
  rw [Engine.install_eq, if_pos called.leads] at events engine
  have scenario : replica.asked.attend.after.scenario = replica.asked.scenario :=
    replica.asked.regular_attend.scenario
  change replica.asked.attend.after.machine.now = time at clock
  have now : replica.asked.attend.after.now = replica.asked.machine.conditions.reading time := by
    rw [Replica.now, Machine.clock, clock, replica.asked.regular_attend.later.conditions]
    rfl
  have ran : replica.runFor 1 = (replica.asked.attend.after, none) := by
    rw [Replica.runFor, turned]
    rfl
  have course : replica.course 2 =
      [replica.askProgress, replica.askProgress.after.askProof] ++
        replica.asked.attend :: replica.asked.attend.after.stages := by
    rw [course_add ran 1, course_one, course_one, stages]
    rfl
  obtain ⟨more, again⟩ := @proofsOf_at_last_view replica.asked.attend.after
    (by rw [engine]) (by rw [engine, now]; exact gone) (by rw [scenario]; exact often)
    (by rw [engine]; exact called.leads) (by rw [engine]; exact valid)
  rw [engine, clock] at again
  refine ⟨replica.asked.attend, (Certificate.ofList maxView attestations).attestations, more,
    ?_, clock, ?_, ?_⟩
  · rw [course]
    simp
  · rw [events, called.leads]
    simp
  · have joined : proofsOf maxView (replica.course 2) =
        proofsOf maxView [replica.askProgress, replica.askProgress.after.askProof] ++
          (replica.asked.attend.proofs maxView ++
            proofsOf maxView replica.asked.attend.after.stages) := by
      rw [course]
      exact List.flatMap_append
    rw [joined, announced, again]
    rfl

theorem Called.breaks_beat {start : Replica} {turns : Nat}
    (called : replica.asked.Called time maxView attestations)
    (ran : start.runFor turns = (replica, none))
    (rhythm : Rhythm start.machine.conditions start.scenario.periodicProofs
      (start.course turns) replica.engine replica.machine.now)
    (going : replica.fireDue.2 = none) (short : replica.asked.patience ≤ 2147483647)
    (soon : time ≤ replica.asked.machine.now + replica.asked.patience)
    (often : start.scenario.periodicProofs = true)
    (gone : (Countdown.reset (start.machine.conditions.reading time)
      (nanosOfMillis replica.asked.engine.timers.proofInterval)).isDue
        (start.machine.conditions.reading time) = true) :
    ∃ stage ∈ start.course (turns + 2),
      .viewInstalled maxView replica.asked.engine.self ∈ stage.events ∧ stage.time = time ∧
        ∀ periodic close interval, 0 < interval →
          ¬ Cadence periodic time close interval (proofsOf maxView (start.course (turns + 2))) := by
  have same : start.Continues replica := by
    have reached := start.continues_runFor turns
    rw [ran] at reached
    exact reached
  have second := replica.regular_askProgress.continues same
  have third := replica.askProgress.after.regular_askProof.continues second
  obtain ⟨stage, proven, more, present, clock, installed, announced⟩ :=
    called.announces_twice going short soon
      (by rw [show replica.asked.scenario = _ from third.scenario]; exact often)
      (by rw [show replica.asked.machine.conditions = _ from third.conditions]; exact gone)
  have unreached := (rhythm_askProof second.conditions
    (rhythm_askProgress same.conditions rhythm)
    (congrArg _ second.scenario)).proofsOf_of_unreached called.later
  have course : start.course (turns + 2) = start.course turns ++ replica.course 2 :=
    course_add ran 2
  have repeated : proofsOf maxView (start.course (turns + 2)) =
      (time, proven) :: (time, proven) :: more := by
    rw [List.append_assoc, proofsOf, List.flatMap_append] at unreached
    obtain ⟨before, waiting⟩ := List.append_eq_nil_iff.1 unreached
    rw [course, proofsOf, List.flatMap_append, before, List.nil_append]
    rw [proofsOf, proofsOf] at announced
    exact announced.trans (congrArg (· ++ _) waiting)
  refine ⟨stage, course ▸ List.mem_append_right _ present, installed, clock, ?_⟩
  intro periodic close interval positive
  rw [repeated]
  exact not_cadence_of_repeated positive

end Twice

section Plan

variable {machine after : Machine} {plan : Plan} {roster : Roster} {replica : Replica}

theorem rhythm_started (origin : 0 ≤ machine.now)
    (made : setUp machine plan roster = (.ok replica, after)) (conditions : Conditions)
    (periodic : Bool) :
    Rhythm conditions periodic [] replica.started.engine replica.started.machine.now := by
  obtain ⟨-, -, later⟩ := setUp_made made
  obtain ⟨position, timers, -, engine, -⟩ := Rehearsal.setUp_player made
  have mirrors := Engine.mirrors_start position timers replica.now
  have started : replica.started.engine =
      (Engine.ofPosition position timers).start replica.now := by
    rw [Replica.started, engine]
  rw [started]
  apply Rhythm.opening (origin.trans later.forward) rfl
  intro valid
  exact Int.lt_irrefl 0 (mirrors.certified.1 valid)

/-- A replica announces a view only while it leads it. The view that it installs as its leader is
announced then, and from then on once in every proof interval until the replica leaves it or the run
is over, always with the same attestations; or not again where leaders are to fall silent. -/
theorem proofs_are_announced_at_intervals (origin : 0 ≤ machine.now)
    (made : setUp machine plan roster = (.ok replica, after))
    (short : plan.proofInterval ≤ 2147483647) (turns : Nat) :
    let course := replica.started.course turns
    let last := (replica.started.runFor turns).1
    (∀ stage ∈ course, ∀ view attestations,
      .broadcast (.viewProof view attestations) ∈ stage.events →
        0 < view ∧ stage.after.engine.view = view ∧ stage.after.engine.isLeader = true) ∧
    ∀ stage ∈ course, ∀ view, .viewInstalled view replica.engine.self ∈ stage.events →
      let close := leftAt view course last.machine.now
      machine.conditions.Shows (close + plan.proofInterval) →
        Cadence (plan.testCase ≠ some .fullRotation) stage.time close plan.proofInterval
          (proofsOf view course) := by
  intro course last
  obtain ⟨-, interval, later⟩ := setUp_made made
  obtain ⟨position, -, -, -, scenario, -⟩ := Rehearsal.setUp_player made
  have periodic : replica.scenario.periodicProofs =
      decide (plan.testCase ≠ some .fullRotation) := by
    rw [scenario, Scenario.periodicProofs]
  have ledger : replica.started.Ledger course last :=
    ledger_course (ledger_of_plan origin made).1 turns
  have rhythm : Rhythm machine.conditions (plan.testCase ≠ some .fullRotation) course last.engine
      last.machine.now := by
    rw [← later.conditions, ← periodic]
    exact rhythm_course replica.started turns (interval.trans_le short)
      (rhythm_started origin made _ _)
  have kept : last.engine.timers.proofInterval = plan.proofInterval :=
    (Engine.seat_proofInterval ledger.seat).trans interval
  have self : last.engine.self = replica.engine.self := Engine.seat_self ledger.seat
  constructor
  · intro stage present view attestations announced
    obtain ⟨same, positive, leads⟩ :=
      rhythm.announcing stage present _ (mem_announcements.2 announced)
    exact ⟨positive, same.symm, leads⟩
  · intro stage present view installed close range
    rw [← self, ← mem_installations] at installed
    rw [← kept] at range ⊢
    have reached : view ≤ last.engine.view := by
      obtain ⟨same, -⟩ := rhythm.told stage present _ installed
      have named : view = stage.after.engine.view := congrArg Prod.fst same
      exact named ▸ rhythm.bounded stage present
    rcases Int.lt_or_eq_of_le reached with earlier | rfl
    · exact rhythm.left stage present view earlier installed range
    · have open_ended : close = last.machine.now := leftAt_of_stayed rhythm.bounded
      rw [open_ended] at range ⊢
      obtain ⟨count, beating⟩ := rhythm.current stage present installed range
      exact beating.cadence

/-- A replica that is alone announces view 1 at 30, 40 and 50 milliseconds, until it hears of view 2
at 55. -/
theorem proofs_are_announced_at_intervals_of_lone_replica :
    let machine : Machine :=
      { conditions := { localHosts := [[97]] }
        arrivals := [⟨55, .datagram [0, 0, 0, 24, 0, 0, 0, 0, 0, 0, 0, 3, 0, 0, 0, 2, 0, 0, 0, 1,
          0, 0, 0, 0, 0, 0, 0, 2]⟩] }
    let roster : Roster := ⟨[⟨[97], [97], 5000⟩], by decide, by decide⟩
    let asked := Replica.setUp machine ⟨[97], some .threeCrashes, 30, 10⟩ roster
    ∃ replica after, asked = (.ok replica, after) ∧
      let course := replica.started.course 12
      let last := (replica.started.runFor 12).1
      ∃ stage ∈ course, .viewInstalled 1 replica.engine.self ∈ stage.events ∧ stage.time = 30 ∧
        leftAt 1 course last.machine.now = 55 ∧
        proofsOf 1 course = [(30, [⟨0, 1⟩]), (40, [⟨0, 1⟩]), (50, [⟨0, 1⟩])] ∧
        Cadence true 30 55 10 (proofsOf 1 course) := by
  intro machine roster asked
  obtain ⟨replica, after, made, self, installs, left, announced⟩ :
      ∃ replica after, asked = (.ok replica, after) ∧ replica.engine.self = 0 ∧
        (∃ stage ∈ replica.started.course 12,
          Event.viewInstalled 1 0 ∈ stage.events ∧ stage.time = 30) ∧
        leftAt 1 (replica.started.course 12) (replica.started.runFor 12).1.machine.now = 55 ∧
        proofsOf 1 (replica.started.course 12) =
          [(30, [⟨0, 1⟩]), (40, [⟨0, 1⟩]), (50, [⟨0, 1⟩])] :=
    ⟨_, _, rfl, rfl, by decide +kernel, by decide +kernel, by decide +kernel⟩
  obtain ⟨stage, present, installed, time⟩ := installs
  rw [← self] at installed
  have steady := (proofs_are_announced_at_intervals (by decide) made (by decide) 12).2 stage present
    1 installed
  dsimp only at steady
  rw [left, time] at steady
  exact ⟨replica, after, made, stage, present, installed, time, left, announced,
    steady (by decide)⟩

/-- The range is needed. A replica that reaches nobody proposes every 24 days, for 292 years. Then
it hears the proof of the last view, which it leads, at an instant whose next proof interval ends
beyond the range of the clock. The deadline seems to be past as soon as it is set, and the view is
announced twice at the same instant. The interval is so long that it makes no difference
whether the clock had been running for an hour or for days. -/
theorem view_is_announced_twice_at_end_of_clock :
    let frame : Bytes := [0, 0, 0, 32, 0, 0, 0, 0, 0, 0, 0, 3, 127, 255, 255, 255, 0, 0, 0, 2,
      0, 0, 0, 0, 127, 255, 255, 255, 0, 0, 0, 1, 127, 255, 255, 255]
    let machine : Machine :=
      { conditions := { failingLookups := [([97], -1), ([98], -1)], horizon := 9223442483645 }
        arrivals := [⟨9221295000000, .datagram frame⟩, ⟨9221295000010, .readFailure⟩] }
    let roster : Roster := ⟨[⟨[97], [97], 5000⟩, ⟨[98], [98], 5000⟩], by decide, by decide⟩
    let asked := Replica.setUp machine ⟨[98], some .normal, 2147483647, 2147483640⟩ roster
    ∃ replica after, asked = (.ok replica, after) ∧
      let course := replica.started.course 4296
      let last := (replica.started.runFor 4296).1
      ∃ stage ∈ course, .viewInstalled maxView replica.engine.self ∈ stage.events ∧
        stage.time = 9221295000000 ∧
        ¬ Cadence true stage.time (leftAt maxView course last.machine.now) 2147483640
          (proofsOf maxView course) := by
  intro frame machine roster asked
  have made : ∃ replica after, asked = (.ok replica, after) ∧
      replica.engine =
        .ofPosition (1 : Fin 2) ⟨2147483647, 2147483640, by decide, by decide, {}, {}⟩ ∧
      replica.scenario = ⟨some .normal, 1, 2⟩ ∧
      replica.transport.peers = [none, none] ∧ replica.transport.stream = {} ∧
      replica.transport.received = [] ∧ replica.finished = false ∧ replica.installs = #[] ∧
      replica.machine.now = 19000 ∧ replica.machine.conditions.horizon = 9223442483645 ∧
      replica.machine.conditions.clockStart = 3600000000000 ∧
      replica.machine.arrivals =
        [⟨9221295000000, .datagram frame⟩, ⟨9221295000010, .readFailure⟩] :=
    ⟨_, _, rfl, rfl, rfl, rfl, rfl, rfl, rfl, rfl, rfl, rfl, rfl, rfl⟩
  obtain ⟨replica, after, made, engine, scenario, peers, stream, received, finished, installs,
    clock, horizon, zero, arrivals⟩ := made
  refine ⟨replica, after, made, ?_⟩
  have interval : replica.engine.timers.progressInterval = 2147483647 := by
    rw [engine]
    rfl
  have alone : replica.started.Alone := by
    apply Replica.Alone.started engine (by decide) _ _ received finished
    · intro view
      rw [scenario]
      exact Bool.and_false _
    · rw [peers]
      decide
  have early : replica.started.engine.timers.progress.isDue replica.now = false := by
    apply Replica.started_early
    · rw [clock]
      decide
    · rw [Conditions.Shows, zero, interval, clock]
      decide
  have begun : 0 ≤ machine.now := by decide
  have rhythm := rhythm_course replica.started 4294 (by
    change replica.engine.timers.proofInterval ≤ _
    rw [engine]
    decide) (rhythm_started begun made _ _)
  obtain ⟨before, proposing, ran, going, moved, patience, seat, view⟩ :=
    alone.asked_after begun made installs (Int.le_of_eq interval) early 4293
      (by
        rw [arrivals, interval, clock]
        decide)
      (by
        rw [horizon, interval, clock]
        decide)
  rw [ran] at rhythm
  rw [interval] at patience
  rw [interval, clock] at moved
  rw [engine] at seat view
  have self : proposing.self = 1 := Engine.seat_self seat
  have replicas : proposing.replicas = 2 := Engine.seat_replicas seat
  have called : before.asked.Called 9221295000000 maxView
      [⟨0, maxView⟩, ⟨1, maxView⟩] := by
    rw [moved]
    constructor
    · exact received
    · exact finished
    · refine ⟨frame, [⟨9221295000010, .readFailure⟩], 0, arrivals, ?_, ?_⟩
      · exact Transport.takeIn_datagram stream received (by decide +kernel)
      · change proposing.knows 0 = true
        unfold Engine.knows
        rw [replicas]
        decide
    · change (19000 + 2147483647 + 4293 * 2147483647 : Int) ≤ 9221295000000
      decide
    · change 9221295000000 ≤ replica.machine.conditions.horizon
      rw [horizon]
      decide
    · change Attestation.quorumFor maxView _ proposing.replicas = true
      rw [replicas]
      decide
    · change proposing.view < maxView
      rw [view]
      decide
    · change leaderOf maxView proposing.replicas = proposing.self
      rw [replicas, self]
      decide
    · change replica.scenario.isFinished maxView proposing.self = false
      rw [scenario, self]
      decide
  have gone : (Countdown.reset (replica.machine.conditions.reading 9221295000000)
      (nanosOfMillis before.asked.engine.timers.proofInterval)).isDue
        (replica.machine.conditions.reading 9221295000000) = true := by
    rw [moved, Conditions.reading, zero]
    change (Countdown.reset _ (nanosOfMillis proposing.timers.proofInterval)).isDue _ = true
    rw [Engine.seat_proofInterval seat]
    decide
  obtain ⟨stage, present, installed, time, broken⟩ := called.breaks_beat ran rhythm going
    (Int.le_of_eq patience)
    (by
      rw [patience, moved]
      change (9221295000000 : Int) ≤ 19000 + 2147483647 + 4293 * 2147483647 + 2147483647
      decide)
    (by
      change replica.scenario.periodicProofs = true
      rw [scenario]
      decide)
    gone
  refine ⟨stage, present, ?_, time, time ▸ broken _ _ 2147483640 (by decide)⟩
  rw [moved] at installed
  change Event.viewInstalled maxView proposing.self ∈ stage.events at installed
  rw [self] at installed
  rw [engine]
  exact installed

end Plan

end Replica

end ViewSync
