import ViewSync.Proofs.Course

/-!
How a run ends.

The loop of a replica is left in the turn that installs a final view, and for no other reason than
that, a crash or the end of the machine. The installation is the last thing that the replica does,
except that its proof timer is asked once more when it was the progress timer that led to the
installation. This comes to nothing, since the timer has just been set, unless the deadline has gone
around the range of the clock; then the view may be announced again after the end.
-/

namespace ViewSync

def Scenario.closedBy (scenario : Scenario) (events : List Event) : Bool :=
  (installations events).any fun installation =>
    scenario.isFinished installation.1 installation.2

theorem Engine.Quiet.not_closing {events : List Event} (quiet : Engine.Quiet events)
    (scenario : Scenario) : scenario.closedBy events = false := by
  rw [Scenario.closedBy, quiet.installations_eq_nil]
  rfl

theorem Engine.Watched.quiet_of_halted {halts : Int → Bool} {calm step : Step} {view : Int}
    (watched : Engine.Watched halts calm step) (halted : step.outcome.halt? = some view) :
    Engine.Quiet step.events := by
  cases watched with
  | passed engine events settled content =>
      rw [settled] at halted
      cases halted
  | halted outcome halting begins quiet last => exact quiet

namespace Stage

variable {stage : Stage}

theorem Regular.closes (regular : stage.Regular) :
    stage.after.finished =
      (stage.before.finished || stage.before.scenario.closedBy stage.events) :=
  regular.finished

theorem Regular.closes_of_finished (regular : stage.Regular)
    (going : stage.before.finished = false) (finished : stage.after.finished = true) :
    stage.before.scenario.closedBy stage.events = true := by
  rw [regular.closes, going, Bool.false_or] at finished
  exact finished

theorem Regular.view_of_quiet (regular : stage.Regular) (quiet : Engine.Quiet stage.events) :
    stage.after.engine.view = stage.before.engine.view := by
  have told := regular.told
  rw [quiet.installations_eq_nil] at told
  by_contra moved
  rw [if_neg moved] at told
  cases told

end Stage

namespace Replica

section Turns

variable {replica : Replica}

/-! ### A replica that is halted has done nothing final -/

theorem quiet_of_progress_halted {view : Int}
    (halted : replica.progressAsked.step.outcome.halt? = some view) :
    Engine.Quiet replica.askProgress.events :=
  (replica.engine.fireProgress_watched replica.scenario.crashesOnQuorum replica.now).quiet_of_halted
    halted

theorem quiet_of_answer_halted {envelope : Envelope} {view : Int}
    (halted : (replica.answer envelope).outcome.halt? = some view) :
    Engine.Quiet (replica.answer envelope).events :=
  (replica.engine.receive_watched replica.scenario.crashesOnQuorum replica.now
    envelope).quiet_of_halted halted

theorem listen_finished_iff (going : replica.finished = false) :
    replica.listen.2 = some .finished ↔ replica.listen.1.finished = true := by
  have unfinished : replica.hear.2.finished = false := going
  cases heard : replica.hear.1 with
  | stopped =>
      rw [listen_eq, heard]
      simp [unfinished]
  | nothing =>
      rw [listen_eq, heard]
      simp [unfinished]
  | envelope envelope =>
      rw [replica.listen_ending heard, replica.listen_envelope heard]
      cases outcome : (replica.hear.2.answer envelope).outcome.halt? with
      | none => simp [endingAfter]
      | some view =>
          have calm := (quiet_of_answer_halted outcome).not_closing replica.hear.2.scenario
          rw [follow_finished]
          change _ ↔ (replica.hear.2.finished ||
            replica.hear.2.scenario.closedBy (replica.hear.2.answer envelope).events) = true
          rw [unfinished, calm]
          simp [endingAfter]

theorem turn_finished_iff (going : replica.finished = false) :
    replica.turn.2 = some .finished ↔ replica.turn.1.finished = true := by
  have turned := replica.turned
  generalize replica.stages = stages at turned
  generalize replica.turn = ended at turned ⊢
  cases turned with
  | halted halted =>
      have calm := (quiet_of_progress_halted halted).not_closing replica.scenario
      have unfinished : replica.askProgress.after.finished = false := by
        rw [replica.regular_askProgress.closes]
        exact Bool.or_eq_false_iff.2 ⟨going, calm⟩
      simp [unfinished]
  | finished settled finished => simp [finished]
  | attended settled unfinished listened =>
      rw [← listened]
      exact listen_finished_iff unfinished

/-- A run is over when a final view has been installed, and as soon as it has been. -/
theorem runFor_finished_iff (turns : Nat) (going : replica.finished = false) :
    (replica.runFor turns).2 = some .finished ↔ (replica.runFor turns).1.finished = true := by
  induction turns generalizing replica with
  | zero => simp [runFor, going]
  | succ turns ih =>
      have turned := turn_finished_iff going
      rw [runFor]
      cases taken : replica.turn with
      | mk next ending =>
          rw [taken] at turned
          cases ending with
          | some ending => exact turned
          | none =>
              apply ih
              apply Bool.eq_false_of_not_eq_true
              intro finished
              cases turned.2 finished

end Turns

/-! ### What is written down -/

structure Ledger (start : Replica) (past : List Stage) (replica : Replica) : Prop extends
    start.Continues replica where
  begun : 0 ≤ replica.machine.now
  started : 0 ≤ replica.engine.view
  written : replica.installs.toList = past.flatMap fun stage => installations stage.events
  finished : replica.finished = past.any fun stage => start.scenario.closedBy stage.events
  increasing : (replica.installs.toList.map Prod.fst).Pairwise (· < ·)
  passed : ∀ installation ∈ replica.installs.toList,
    0 < installation.1 ∧ installation.1 ≤ replica.engine.view ∧
      installation.2 = installation.1 % start.engine.replicas
  told : ∀ stage ∈ past, installations stage.events =
    if stage.after.engine.view = stage.before.engine.view then []
    else [(stage.after.engine.view, stage.after.engine.view % start.engine.replicas)]
  /-- The view is the one that was installed last. -/
  latest : replica.engine.view =
    (replica.installs.toList.getLast?.map Prod.fst).getD start.engine.view

section Ledger

variable {start replica : Replica} {past : List Stage}

theorem Ledger.step (stage : Stage) (ledger : start.Ledger past stage.before)
    (regular : stage.Regular) :
    start.Ledger (past ++ [stage]) stage.after := by
  have roster : stage.before.engine.replicas = start.engine.replicas :=
    Engine.seat_replicas ledger.seat
  have begun := ledger.started
  have onward := regular.onward
  have told := regular.told
  rw [roster, leaderOf_eq_emod (begun.trans onward)] at told
  have written := regular.written
  constructor
  · exact regular.continues ledger.toContinues
  · exact ledger.begun.trans regular.later.forward
  · exact begun.trans onward
  · rw [written, ledger.written]
    simp
  · rw [regular.closes, ledger.finished, ledger.scenario]
    simp
  · rw [written, List.map_append, List.pairwise_append]
    refine ⟨ledger.increasing, ?_, ?_⟩
    · rw [told]
      split <;> simp
    · intro earlier before later last
      obtain ⟨installation, present, rfl⟩ := List.mem_map.1 before
      obtain ⟨-, passed, -⟩ := ledger.passed installation present
      rw [told] at last
      split at last
      · cases last
      · next moved =>
          rw [List.mem_singleton.1 last]
          change installation.1 < stage.after.engine.view
          omega
  · intro installation present
    rw [written] at present
    rcases List.mem_append.1 present with earlier | last
    · obtain ⟨positive, passed, leads⟩ := ledger.passed installation earlier
      exact ⟨positive, passed.trans onward, leads⟩
    · rw [told] at last
      split at last
      · cases last
      · next moved =>
          rw [List.mem_singleton.1 last]
          refine ⟨?_, Int.le_refl _, rfl⟩
          change 0 < stage.after.engine.view
          omega
  · intro other present
    rcases List.mem_append.1 present with earlier | last
    · exact ledger.told other earlier
    · rw [List.mem_singleton.1 last]
      exact told
  · rw [written, told]
    by_cases same : stage.after.engine.view = stage.before.engine.view
    · rw [if_pos same, List.append_nil, same]
      exact ledger.latest
    · rw [if_neg same, List.getLast?_concat]
      rfl

theorem Ledger.askProof (ledger : start.Ledger past replica) :
    start.Ledger (past ++ [replica.askProof]) replica.askProof.after :=
  ledger.step replica.askProof replica.regular_askProof

theorem Ledger.askProgress (ledger : start.Ledger past replica) :
    start.Ledger (past ++ [replica.askProgress]) replica.askProgress.after :=
  ledger.step replica.askProgress replica.regular_askProgress

theorem Ledger.not_closed (ledger : start.Ledger past replica) (going : replica.finished = false) :
    ∀ stage ∈ past, start.scenario.closedBy stage.events = false := by
  have finished := ledger.finished
  rw [going] at finished
  intro stage present
  exact Bool.eq_false_of_not_eq_true (List.any_eq_false.1 finished.symm stage present)

theorem ledger_started {replica : Replica} (begun : 0 ≤ replica.machine.now)
    (fresh : replica.engine.view = 0) (unfinished : replica.finished = false)
    (blank : replica.installs = #[]) : replica.started.Ledger [] replica.started where
  scenario := rfl
  seat := rfl
  conditions := rfl
  begun := begun
  started := Int.le_of_eq fresh.symm
  written := congrArg Array.toList blank
  finished := unfinished
  increasing := by
    change (replica.installs.toList.map Prod.fst).Pairwise (· < ·)
    rw [blank]
    exact List.Pairwise.nil
  passed := by
    change ∀ installation ∈ replica.installs.toList, _
    rw [blank]
    exact fun _ listed => absurd listed List.not_mem_nil
  told _ listed := absurd listed List.not_mem_nil
  latest := by
    change replica.engine.view = (replica.installs.toList.getLast?.map Prod.fst).getD _
    rw [blank]
    rfl

theorem ledger_course (opened : start.Ledger [] start) (turns : Nat) :
    start.Ledger (start.course turns) (start.runFor turns).1 :=
  regular_induction (fun _ stage ledger regular => ledger.step stage regular) turns opened

end Ledger

/-! ### The end of a run -/

/-- A run ends with a final view: it is the last thing that is told in its stage, no stage before
was final, and what comes after it is a question to the proof timer at most, to which nothing comes
unless that timer is due. -/
structure Concludes (start : Replica) (earlier : List Stage) (stage : Stage) (rest : List Stage)
    (last : Replica) : Prop where
  final : ∃ view, start.scenario.isFinished view (view % start.engine.replicas) = true ∧
    stage.events.getLast? = some (.viewInstalled view (view % start.engine.replicas))
  first : ∀ other ∈ earlier, start.scenario.closedBy other.events = false
  left : (rest = [] ∧ last = stage.after) ∨
    (rest = [stage.after.askProof] ∧ last = stage.after.askProof.after)
  idle_iff : ∀ later ∈ rest,
    later.Idle ↔ stage.after.engine.timers.proof.isDue stage.after.now = false
  idle : start.machine.conditions.Shows (stage.time + start.engine.timers.proofInterval) →
    ∀ later ∈ rest, later.Idle

section Conclusion

variable {start replica last : Replica} {past : List Stage}

theorem advances_of_closing {before after : Engine} {now : Int} {set : Bool} {events : List Event}
    {scenario : Scenario} (change : before.Change now set after events)
    (closing : scenario.closedBy events = true) : before.Advances after now events := by
  rcases change.stays_or_advances with stays | advances
  · rw [stays.quiet.not_closing] at closing
    cases closing
  · exact advances

theorem Ledger.final (stage : Stage) {now : Int} (ledger : start.Ledger past stage.before)
    (advances : stage.before.engine.Advances stage.after.engine now stage.events)
    (closing : start.scenario.closedBy stage.events = true) :
    ∃ view, start.scenario.isFinished view (view % start.engine.replicas) = true ∧
      stage.events.getLast? = some (.viewInstalled view (view % start.engine.replicas)) := by
  have started := ledger.started.trans (Int.le_of_lt advances.later)
  have leader : leaderOf stage.after.engine.view stage.before.engine.replicas =
      stage.after.engine.view % start.engine.replicas := by
    rw [Engine.seat_replicas ledger.seat, leaderOf_eq_emod started]
  have told := advances.installations_eq
  have lastTold := advances.getLast?
  rw [leader] at told lastTold
  refine ⟨stage.after.engine.view, ?_, lastTold⟩
  rw [Scenario.closedBy, told] at closing
  simpa using closing

theorem idle_askProof_iff (replica : Replica) :
    replica.askProof.Idle ↔ replica.engine.timers.proof.isDue replica.now = false := by
  have asked : replica.askProof.after.engine = replica.proofAsked.engine := by
    rw [Replica.askProof, follow_engine]
  rcases replica.engine.fireProof_cases replica.scenario.periodicProofs replica.now with
    ⟨early, unchanged⟩ | ⟨due, engine, -, -⟩ | ⟨due, -, events, -⟩
  · refine iff_of_true ?_ early
    rw [Stage.Idle, Replica.askProof, proofAsked, unchanged]
    exact ⟨rfl, rfl⟩
  · refine iff_of_false ?_ (by simp [due])
    rintro ⟨-, same⟩
    have armed := (Bool.and_eq_true_iff.1 due).1
    have disarmed : replica.askProof.after.engine.timers.proof.armed = false := by
      rw [asked, proofAsked, engine]
      rfl
    rw [same] at disarmed
    exact Bool.false_ne_true (disarmed.symm.trans armed)
  · refine iff_of_false ?_ (by simp [due])
    rintro ⟨silent, -⟩
    have told : replica.askProof.events = _ := events
    rw [silent] at told
    cases told

/-- Just after an installation the proof timer is not due, unless its deadline has gone around. -/
theorem not_due_of_advances {before after : Engine} {events : List Event} {machine : Machine}
    (advances : before.Advances after machine.clock events) (begun : 0 ≤ machine.now)
    (range : machine.conditions.Shows (machine.now + before.timers.proofInterval)) :
    after.timers.proof.isDue machine.clock = false := by
  have positive := before.timers.proof_positive
  rw [advances.proof]
  split
  · apply Bool.eq_false_of_not_eq_true
    have present := range.earlier begun (by omega)
    rw [Machine.clock, Countdown.isDue_reset range present]
    omega
  · rfl

theorem Ledger.concludes (ledger : start.Ledger past replica) (going : replica.finished = false)
    (ended : replica.turn = (last, some .finished)) :
    ∃ earlier stage rest, past ++ replica.stages = earlier ++ stage :: rest ∧
      start.Concludes earlier stage rest last := by
  have turned := replica.turned
  rw [ended] at turned
  generalize replica.stages = stages at turned ⊢
  cases turned with
  | finished settled finished =>
      have stays := replica.askProgress.after.regular_askProof
      have silent := replica.askProgress.after.askProof_keeps.2.2.2
      have done : replica.askProgress.after.finished = true := by
        change replica.askProgress.after.askProof.after.finished = true at finished
        rw [stays.closes, Scenario.closedBy, silent, List.any_nil, Bool.or_false] at finished
        exact finished
      have closing := replica.regular_askProgress.closes_of_finished going done
      obtain ⟨set, change⟩ := replica.askProgress_change
      have advances := advances_of_closing change closing
      have closed : start.scenario.closedBy replica.askProgress.events = true := by
        rw [← ledger.scenario]
        exact closing
      refine ⟨past, replica.askProgress, [replica.askProgress.after.askProof], rfl, ?_⟩
      constructor
      · exact ledger.final replica.askProgress advances closed
      · exact ledger.not_closed going
      · exact .inr ⟨rfl, rfl⟩
      · intro later listed
        rw [List.mem_singleton.1 listed]
        exact idle_askProof_iff _
      · intro range later listed
        rw [List.mem_singleton.1 listed, idle_askProof_iff, askProgress_now]
        rw [Stage.time, show replica.askProgress.after.machine.now = replica.machine.now from
          replica.follow_clock _ _, ← Engine.seat_proofInterval ledger.seat,
          ← ledger.conditions] at range
        exact not_due_of_advances advances ledger.begun range
  | attended settled unfinished listened =>
      have before := ledger.askProgress.askProof
      change start.Ledger _ replica.asked at before
      generalize replica.asked = asked at *
      have finished : asked.attend.after.finished = true :=
        (listen_finished_iff unfinished).1 (congrArg Prod.snd listened)
      have closing := asked.regular_attend.closes_of_finished unfinished finished
      obtain ⟨set, change⟩ := asked.attend_change
      have advances := advances_of_closing change closing
      have closed : start.scenario.closedBy asked.attend.events = true := by
        rw [← before.scenario]
        exact closing
      refine ⟨past ++ [replica.askProgress] ++ [replica.askProgress.after.askProof], asked.attend,
        [], ?_, ?_⟩
      · simp
      · constructor
        · exact before.final asked.attend advances closed
        · exact before.not_closed unfinished
        · exact .inl ⟨rfl, (congrArg Prod.fst listened).symm⟩
        · exact fun _ listed => absurd listed List.not_mem_nil
        · exact fun _ _ listed => absurd listed List.not_mem_nil

/-- A replica that is halted has a quorum for a view beyond all that it has installed. -/
theorem Ledger.halted_beyond {view : Int} (ledger : start.Ledger past replica)
    (ended : replica.turn = (last, some (.crashed view))) :
    ∀ installation ∈ last.installs.toList, installation.1 < view := by
  have turned := replica.turned
  rw [ended] at turned
  generalize replica.stages = stages at turned
  cases turned with
  | halted halted =>
      have beyond := Engine.fireProgress_halted (replica.progressAsked_halted halted)
      have same := replica.regular_askProgress.view_of_quiet (quiet_of_progress_halted halted)
      intro installation listed
      obtain ⟨-, passed, -⟩ := ledger.askProgress.passed installation listed
      exact (passed.trans_eq same).trans_lt beyond
  | attended settled unfinished listened =>
      have before := ledger.askProgress.askProof
      change start.Ledger _ replica.asked at before
      generalize replica.asked = asked at *
      have later := before.step asked.attend asked.regular_attend
      have crashed : asked.listen.2 = some (.crashed view) := congrArg Prod.snd listened
      cases heard : asked.hear.1 with
      | stopped =>
          rw [listen_eq, heard] at crashed
          cases crashed
      | nothing =>
          rw [listen_eq, heard] at crashed
          cases crashed
      | envelope envelope =>
          rw [asked.listen_ending heard] at crashed
          cases outcome : (asked.hear.2.answer envelope).outcome.halt? with
          | none =>
              rw [outcome, endingAfter] at crashed
              split at crashed <;> cases crashed
          | some halt =>
              rw [outcome, endingAfter] at crashed
              cases crashed
              have beyond := Engine.receive_halted (Engine.halted_of_halt? outcome)
              have quiet : Engine.Quiet asked.attend.events := by
                rw [attend, replies, heard]
                exact quiet_of_answer_halted outcome
              have same := asked.regular_attend.view_of_quiet quiet
              intro installation listed
              rw [show last = asked.attend.after from (congrArg Prod.fst listened).symm] at listed
              obtain ⟨-, passed, -⟩ := later.passed installation listed
              exact (passed.trans_eq same).trans_lt beyond

end Conclusion

section Plan

variable {machine after : Machine} {plan : Plan} {roster : Roster} {replica : Replica}

theorem ledger_of_plan (origin : 0 ≤ machine.now)
    (made : setUp machine plan roster = (.ok replica, after)) :
    replica.started.Ledger [] replica.started ∧ replica.started.finished = false ∧
      replica.started.engine.replicas = roster.size := by
  obtain ⟨-, -, later⟩ := setUp_made made
  obtain ⟨position, timers, -, engine, -, -, -, unfinished, -, blank⟩ :=
    Rehearsal.setUp_player made
  have fresh : replica.engine.view = 0 := by
    rw [engine]
    rfl
  refine ⟨ledger_started (origin.trans later.forward) fresh unfinished blank, unfinished, ?_⟩
  change replica.engine.replicas = roster.size
  rw [engine]
  rfl

/-- A run of a replica, whatever arrives at its machine. Every installed view is printed on a line
of its own, with its leader; a stage installs the view that it moves to, if it moves; and views go
up. The loop is left with success if and only if a final view is installed, and then this is the
last that is done in its stage, no stage before was final, and after it the proof timer is asked at
most, which comes to nothing unless its deadline has gone around. A replica that is halted was
halted for a view beyond all that it has installed. -/
theorem run_ends_with_first_final_view (origin : 0 ≤ machine.now)
    (made : setUp machine plan roster = (.ok replica, after)) (turns : Nat) :
    let course := replica.started.course turns
    let last := (replica.started.runFor turns).1
    let ending := (replica.started.runFor turns).2
    let installed := course.flatMap fun stage => installations stage.events
    (last.installs.toList = installed ∧ last.printed = installed.flatMap fun installation =>
        installLine replica.engine.self installation.1 installation.2) ∧
    (∀ stage ∈ course, installations stage.events =
      if stage.after.engine.view = stage.before.engine.view then []
      else [(stage.after.engine.view, stage.after.engine.view % roster.size)]) ∧
    ((installed.map Prod.fst).Pairwise (· < ·) ∧ ∀ installation ∈ installed,
      0 < installation.1 ∧ installation.2 = installation.1 % roster.size) ∧
    (ending = some .finished ↔ ∃ installation ∈ installed,
      replica.scenario.isFinished installation.1 installation.2 = true) ∧
    (ending = some .finished → ∃ earlier stage rest, course = earlier ++ stage :: rest ∧
      replica.started.Concludes earlier stage rest last) ∧
    ∀ view, ending = some (.crashed view) → ∀ installation ∈ installed, installation.1 < view := by
  intro course last ending installed
  obtain ⟨opened, unfinished, roster_size⟩ := ledger_of_plan origin made
  have ledger : replica.started.Ledger course last := ledger_course opened turns
  have written : last.installs.toList = installed := ledger.written
  have self : last.engine.self = replica.engine.self := Engine.seat_self ledger.seat
  have told := ledger.told
  have passed := ledger.passed
  rw [roster_size] at told passed
  refine ⟨⟨written, ?_⟩, told, ⟨written ▸ ledger.increasing, ?_⟩, ?_, ?_, ?_⟩
  · rw [printed, written, self]
  · intro installation listed
    obtain ⟨positive, -, leads⟩ := passed installation (written ▸ listed)
    exact ⟨positive, leads⟩
  · have final := ledger.finished
    rw [runFor_finished_iff turns unfinished, final]
    simp only [List.any_eq_true, Scenario.closedBy, installed, List.mem_flatMap]
    constructor
    · rintro ⟨stage, present, installation, listed, finished⟩
      exact ⟨installation, ⟨stage, present, listed⟩, finished⟩
    · rintro ⟨installation, ⟨stage, present, listed⟩, finished⟩
      exact ⟨stage, present, installation, listed, finished⟩
  · intro ended
    obtain ⟨before, replicaBefore, ran, turned, joined⟩ :=
      last_turn (show replica.started.runFor turns = (last, some .finished) from
        Prod.ext rfl ended)
    have earlier := ledger_course opened before
    rw [ran] at earlier
    have going : replicaBefore.finished = false := by
      apply Bool.eq_false_of_not_eq_true
      intro finished
      have stopped := (runFor_finished_iff before unfinished).2 (by rw [ran]; exact finished)
      rw [ran] at stopped
      cases stopped
    obtain ⟨past, stage, rest, parts, concludes⟩ := earlier.concludes going turned
    exact ⟨past, stage, rest, joined.trans parts, concludes⟩
  · intro view ended
    obtain ⟨before, replicaBefore, ran, turned, -⟩ :=
      last_turn (show replica.started.runFor turns = (last, some (.crashed view)) from
        Prod.ext rfl ended)
    have earlier := ledger_course opened before
    rw [ran] at earlier
    rw [← written]
    exact earlier.halted_beyond turned

/-- A replica that is alone is done when its progress timer fires: it installs view 1, and asks its
proof timer in vain. -/
theorem run_ends_with_first_final_view_of_lone_replica :
    let machine : Machine := { conditions := { localHosts := [[97]] } }
    let roster : Roster := ⟨[⟨[97], [97], 5000⟩], by decide, by decide⟩
    let asked := Replica.setUp machine ⟨[97], some .normal, 30, 10⟩ roster
    ∃ replica after, asked = (.ok replica, after) ∧
      (replica.started.course 2).length = 5 ∧
      (replica.started.runFor 2).2 = some .finished ∧
      (replica.started.runFor 2).1.printed =
        Bytes.ofString "0: Server 0 is the new leader of view 1\n" ∧
      ∃ earlier stage rest, replica.started.course 2 = earlier ++ stage :: rest ∧
        replica.started.Concludes earlier stage rest (replica.started.runFor 2).1 := by
  intro machine roster asked
  have made : asked = (.ok _, _) := rfl
  have ended := run_ends_with_first_final_view (by decide) made 2
  exact ⟨_, _, made, by decide +kernel, by decide +kernel, by decide +kernel,
    ended.2.2.2.2.1 (by decide +kernel)⟩

/-- The timer's range is needed. Both intervals here are accepted, and in nanoseconds they go around
the clock: to ten milliseconds and to nothing. The proof timer is then due as soon as it is set, and
the final view is announced a second time after it was installed. -/
theorem final_view_can_be_announced_again :
    let machine : Machine := { conditions := { localHosts := [[97]] } }
    let roster : Roster := ⟨[⟨[97], [97], 5000⟩], by decide, by decide⟩
    let plan : Plan := ⟨[97], some .normal, 288230376151711754, 288230376151711744⟩
    let asked := Replica.setUp machine plan roster
    ∃ replica after, asked = (.ok replica, after) ∧
      (replica.started.runFor 2).2 = some .finished ∧
      replica.scenario.isFinished 1 0 = true ∧
      (replica.started.course 2).map (fun stage => (stage.time, stage.events)) =
        [(0, []), (0, []), (10, []),
          (10, [.broadcast (.viewChange 1), .quorumCollected 1,
            .broadcast (.viewProof 1 [⟨0, 1⟩]), .viewInstalled 1 0]),
          (10, [.broadcast (.viewProof 1 [⟨0, 1⟩])])] := by
  intro machine roster plan asked
  have made : asked = (.ok _, _) := rfl
  exact ⟨_, _, made, by decide +kernel, by decide +kernel, by decide +kernel⟩

end Plan

end Replica

end ViewSync
