import ViewSync.Proofs.Advance
import ViewSync.Proofs.Rehearsal

/-!
The course of a replica's work.

Every turn of the loop is made of stages: the progress timer is asked, then the proof timer unless
the replica has been halted, and then, if the loop goes on, the replica waits and hears a message.
The course lists the stages of a run in order, with what the replica was before each of them, what
it did, and what it was after. What every stage keeps, every run keeps.
-/

namespace ViewSync

structure Stage where
  before : Replica
  events : List Event
  after : Replica

namespace Stage

def time (stage : Stage) : Int :=
  stage.after.machine.now

def Idle (stage : Stage) : Prop :=
  stage.events = [] ∧ stage.after = stage.before

end Stage

namespace Replica

section Stages

variable (replica : Replica)

def progressAsked : Engine.Firing :=
  replica.engine.fireProgress replica.scenario.crashesOnQuorum replica.now

def askProgress : Stage :=
  ⟨replica, replica.progressAsked.events,
    replica.follow replica.progressAsked.engine replica.progressAsked.events⟩

def proofAsked : Engine.Firing :=
  replica.engine.fireProof replica.scenario.periodicProofs replica.now

def askProof : Stage :=
  ⟨replica, replica.proofAsked.events,
    replica.follow replica.proofAsked.engine replica.proofAsked.events⟩

def asked : Replica :=
  replica.askProgress.after.askProof.after

def attend : Stage :=
  ⟨replica, replica.replies, replica.listen.1⟩

def stages : List Stage :=
  let first := replica.askProgress
  let second := first.after.askProof
  if replica.progressAsked.step.outcome.halt?.isSome then [first]
  else if replica.fireDue.2.isSome then [first, second]
  else [first, second, replica.asked.attend]

/-- The stages of at most `limit` turns. -/
def course : Nat → Replica → List Stage
  | 0, _ => []
  | limit + 1, replica =>
      replica.stages ++
        match replica.turn with
        | (_, some _) => []
        | (next, none) => course limit next

/-! ### Stages make up the run -/

theorem foldl_perform_engine (engine : Engine) (events : List Event) :
    events.foldl perform { replica with engine } =
      { events.foldl perform replica with engine } := by
  induction events generalizing replica with
  | nil => rfl
  | cons event rest ih =>
      have first : ({ replica with engine } : Replica).perform event =
          { replica.perform event with engine } := by
        cases event <;> rfl
      rw [List.foldl_cons, List.foldl_cons, first]
      exact ih _

theorem follow_follow (first second : Engine) (earlier later : List Event) :
    (replica.follow first earlier).follow second later =
      replica.follow second (earlier ++ later) := by
  simp only [follow, foldl_perform_engine, List.foldl_append]

theorem askProgress_now : replica.askProgress.after.now = replica.now :=
  replica.follow_now _ _

theorem askProof_now : replica.askProof.after.now = replica.now :=
  replica.follow_now _ _

theorem progressAsked_halted {view : Int}
    (halted : replica.progressAsked.step.outcome.halt? = some view) :
    replica.progressAsked.progress = some (.halted view) := by
  have outcome := Engine.halted_of_halt? halted
  unfold Engine.Firing.step at outcome
  cases asked : replica.progressAsked.progress with
  | none =>
      rw [asked] at outcome
      cases outcome
  | some found =>
      rw [asked] at outcome
      exact congrArg some outcome

theorem progressAsked_settled (settled : replica.progressAsked.step.outcome.halt? = none)
    (view : Int) : replica.progressAsked.progress ≠ some (.halted view) := by
  intro halted
  rw [Engine.Firing.step, halted] at settled
  cases settled

theorem fireDue_of_progress_halted {view : Int}
    (halted : replica.progressAsked.step.outcome.halt? = some view) :
    replica.fireDue = (replica.askProgress.after, some (.crashed view)) := by
  have asked := replica.progressAsked_halted halted
  have firing : replica.firing = replica.progressAsked :=
    Engine.fireDue_of_halted replica.scenario.periodicProofs asked
  refine Prod.ext ?_ (replica.fireDue_halted (firing ▸ asked))
  rw [fireDue_eq, firing]
  rfl

theorem fireDue_of_progress_settled
    (settled : replica.progressAsked.step.outcome.halt? = none) :
    replica.fireDue =
      (replica.asked, if replica.asked.finished then some .finished else none) := by
  obtain ⟨engine, events, progress⟩ :=
    Engine.fireDue_of_not_halted replica.scenario.periodicProofs
      (replica.progressAsked_settled settled)
  change replica.firing.engine = _ at engine
  change replica.firing.events = _ at events
  have place := (replica.follow_place replica.progressAsked.engine
    replica.progressAsked.events).2
  have second : replica.askProgress.after.proofAsked =
      replica.progressAsked.engine.fireProof replica.scenario.periodicProofs replica.now := by
    rw [proofAsked, askProgress_now, askProgress, follow_engine, place]
  have joined : replica.follow replica.firing.engine replica.firing.events = replica.asked := by
    rw [engine, events, asked, askProof, second, askProgress, follow_follow]
    rfl
  have going : ∀ view, replica.firing.progress ≠ some (.halted view) := by
    intro view halted
    exact replica.progressAsked_settled settled view (progress.symm.trans halted)
  rw [fireDue_settled _ going, joined]

/-- A replica that is about to wait has just asked its proof timer: the timer is not due, unless it
was set at this very instant. -/
def Rested : Prop :=
  replica.engine.timers.proof.isDue replica.now = true →
    replica.engine.timers.proof =
      .reset replica.now (nanosOfMillis replica.engine.timers.proofInterval)

theorem proofAsked_asks :
    replica.engine.ProofAsked replica.now replica.askProof.after.engine
      replica.askProof.events := by
  have asked := replica.engine.proofAsked_fireProof replica.scenario.periodicProofs replica.now
  rw [askProof, follow_engine]
  exact asked

theorem rested_askProof : replica.askProof.after.Rested := by
  intro due
  rw [askProof_now] at due ⊢
  have asked := replica.proofAsked_asks
  generalize replica.askProof.after.engine = engine at asked due ⊢
  generalize replica.askProof.events = events at asked
  cases asked with
  | waiting early => exact absurd (early.symm.trans due) Bool.false_ne_true
  | silent _ disarmed =>
      rw [disarmed] at due
      cases due
  | announced _ reset _ =>
      rw [reset]
      rfl

end Stages

inductive Turned (replica : Replica) : List Stage → Replica × Option Ending → Prop
  | halted {view : Int} (halted : replica.progressAsked.step.outcome.halt? = some view) :
      Turned replica [replica.askProgress] (replica.askProgress.after, some (.crashed view))
  | finished (settled : replica.progressAsked.step.outcome.halt? = none)
      (finished : replica.asked.finished = true) :
      Turned replica [replica.askProgress, replica.askProgress.after.askProof]
        (replica.asked, some .finished)
  | attended {last : Replica} {ending : Option Ending}
      (settled : replica.progressAsked.step.outcome.halt? = none)
      (going : replica.asked.finished = false) (listened : replica.asked.listen = (last, ending)) :
      Turned replica
        [replica.askProgress, replica.askProgress.after.askProof, replica.asked.attend]
        (last, ending)

theorem turned (replica : Replica) : replica.Turned replica.stages replica.turn := by
  unfold stages turn
  cases outcome : replica.progressAsked.step.outcome.halt? with
  | some view =>
      rw [replica.fireDue_of_progress_halted outcome]
      exact .halted outcome
  | none =>
      rw [replica.fireDue_of_progress_settled outcome]
      cases finished : replica.asked.finished with
      | true => exact .finished outcome finished
      | false => exact .attended outcome finished rfl

theorem stages_of_settled (replica : Replica)
    (settled : replica.progressAsked.step.outcome.halt? = none) :
    ∃ rest, replica.stages =
      replica.askProgress :: replica.askProgress.after.askProof :: rest := by
  unfold stages
  rw [settled, Option.isSome_none, if_neg Bool.false_ne_true]
  split
  · exact ⟨[], rfl⟩
  · exact ⟨[replica.asked.attend], rfl⟩

theorem stages_of_going {replica : Replica} (going : replica.fireDue.2 = none) :
    replica.fireDue.1 = replica.asked ∧
      replica.stages =
        [replica.askProgress, replica.askProgress.after.askProof, replica.asked.attend] := by
  cases outcome : replica.progressAsked.step.outcome.halt? with
  | some view =>
      rw [replica.fireDue_of_progress_halted outcome] at going
      cases going
  | none =>
      refine ⟨congrArg Prod.fst (replica.fireDue_of_progress_settled outcome), ?_⟩
      unfold stages
      rw [outcome, going]
      rfl

theorem course_one (replica : Replica) : replica.course 1 = replica.stages := by
  rw [course]
  cases replica.turn with
  | mk next ending =>
      cases ending with
      | some ending => exact List.append_nil _
      | none => exact List.append_nil _

theorem course_add {turns : Nat} {replica next : Replica}
    (ran : replica.runFor turns = (next, none)) (more : Nat) :
    replica.course (turns + more) = replica.course turns ++ next.course more := by
  induction turns generalizing replica with
  | zero =>
      cases ran
      rw [Nat.zero_add]
      rfl
  | succ turns ih =>
      rw [Nat.succ_add, course, course]
      cases first : replica.turn with
      | mk second ending =>
          rw [runFor, first] at ran
          cases ending with
          | some ending => cases ran
          | none =>
              rw [List.append_assoc]
              exact congrArg (_ ++ ·) (ih ran)

section Induction

variable {holds : List Stage → Replica → Prop}

/-- What every stage keeps is kept by the course of a run. -/
theorem course_induction
    (progress : ∀ past replica, holds past replica →
      holds (past ++ [replica.askProgress]) replica.askProgress.after)
    (proof : ∀ past replica, holds past replica →
      holds (past ++ [replica.askProof]) replica.askProof.after)
    (attend : ∀ past replica, holds past replica → replica.Rested →
      holds (past ++ [replica.attend]) replica.attend.after)
    (turns : Nat) {past : List Stage} {replica : Replica} (start : holds past replica) :
    holds (past ++ replica.course turns) (replica.runFor turns).1 := by
  have turn : ∀ past replica, holds past replica →
      holds (past ++ replica.stages) replica.turn.1 := by
    intro past replica before
    have first := progress past replica before
    have turned := replica.turned
    generalize replica.stages = stages at turned ⊢
    generalize replica.turn = ended at turned ⊢
    cases turned with
    | halted halted => exact first
    | finished settled finished =>
        have second := proof _ _ first
        rw [List.append_assoc] at second
        exact second
    | attended settled going listened =>
        have third := attend _ _ (proof _ _ first) (rested_askProof _)
        rw [List.append_assoc, List.append_assoc] at third
        rw [← congrArg Prod.fst listened]
        exact third
  induction turns generalizing past replica with
  | zero =>
      rw [course, List.append_nil]
      exact start
  | succ turns ih =>
      have next := turn past replica start
      rw [course, runFor, ← List.append_assoc]
      cases taken : replica.turn with
      | mk last ending =>
          rw [taken] at next
          cases ending with
          | some ending =>
              rw [List.append_nil]
              exact next
          | none => exact ih next

theorem last_turn {turns : Nat} {replica last : Replica} {ending : Ending}
    (ended : replica.runFor turns = (last, some ending)) :
    ∃ earlier before, replica.runFor earlier = (before, none) ∧
      before.turn = (last, some ending) ∧
      replica.course turns = replica.course earlier ++ before.stages := by
  induction turns generalizing replica with
  | zero => cases ended
  | succ turns ih =>
      cases taken : replica.turn with
      | mk next outcome =>
          rw [runFor, taken] at ended
          cases outcome with
          | some reached =>
              refine ⟨0, replica, rfl, taken.trans ended, ?_⟩
              simp only [course, taken, List.append_nil, List.nil_append]
          | none =>
              obtain ⟨earlier, before, ran, turned, joined⟩ := ih ended
              refine ⟨earlier + 1, before, ?_, turned, ?_⟩
              · rw [runFor, taken]
                exact ran
              · rw [course, course, taken, List.append_assoc]
                exact congrArg (_ ++ ·) joined

end Induction

end Replica

structure Replica.Continues (start replica : Replica) : Prop where
  scenario : replica.scenario = start.scenario
  seat : replica.engine.seat = start.engine.seat
  conditions : replica.machine.conditions = start.machine.conditions

theorem Replica.Continues.refl (replica : Replica) : replica.Continues replica :=
  ⟨rfl, rfl, rfl⟩

namespace Stage

structure Regular (stage : Stage) : Prop where
  scenario : stage.after.scenario = stage.before.scenario
  seat : stage.after.engine.seat = stage.before.engine.seat
  later : stage.before.machine.Precedes stage.after.machine
  onward : stage.before.engine.view ≤ stage.after.engine.view
  told : installations stage.events =
    if stage.after.engine.view = stage.before.engine.view then []
    else [(stage.after.engine.view,
      leaderOf stage.after.engine.view stage.before.engine.replicas)]
  written : stage.after.installs.toList =
    stage.before.installs.toList ++ installations stage.events
  finished : stage.after.finished =
    (stage.before.finished || (installations stage.events).any fun installation =>
      stage.before.scenario.isFinished installation.1 installation.2)

theorem Regular.continues {start : Replica} {stage : Stage} (regular : stage.Regular)
    (same : start.Continues stage.before) : start.Continues stage.after where
  scenario := regular.scenario.trans same.scenario
  seat := regular.seat.trans same.seat
  conditions := regular.later.conditions.trans same.conditions

theorem onward_of_change {before after : Engine} {now : Int} {set : Bool} {events : List Event}
    (change : before.Change now set after events) :
    before.view ≤ after.view ∧ installations events =
      if after.view = before.view then []
      else [(after.view, leaderOf after.view before.replicas)] := by
  rcases change.stays_or_advances with stays | advances
  · rw [if_pos stays.view, stays.view]
    exact ⟨Int.le_refl _, stays.quiet.installations_eq_nil⟩
  · rw [if_neg (Int.ne_of_gt advances.later)]
    exact ⟨Int.le_of_lt advances.later, advances.installations_eq⟩

end Stage

namespace Replica

section Regular

variable (replica : Replica)

theorem askProgress_change :
    ∃ set, replica.engine.Change replica.now set replica.askProgress.after.engine
      replica.askProgress.events := by
  have change := replica.engine.fireProgress_change replica.scenario.crashesOnQuorum replica.now
  rw [askProgress, follow_engine]
  exact ⟨_, change⟩

theorem regular_askProgress : replica.askProgress.Regular := by
  obtain ⟨set, change⟩ := replica.askProgress_change
  obtain ⟨onward, told⟩ := Stage.onward_of_change change
  exact
    { scenario := (replica.follow_place _ _).2
      seat := change.seat
      later := (replica.atOnce_follow _ _).precedes
      onward
      told
      written := replica.follow_installs _ _
      finished := replica.follow_finished _ _ }

/-- Asking the proof timer leaves the view and its certificate alone. -/
theorem askProof_keeps :
    replica.askProof.after.engine.view = replica.engine.view ∧
      replica.askProof.after.engine.installed = replica.engine.installed ∧
      replica.askProof.after.engine.seat = replica.engine.seat ∧
      installations replica.askProof.events = [] := by
  rw [askProof, follow_engine]
  change replica.proofAsked.engine.view = _ ∧ replica.proofAsked.engine.installed = _ ∧
    replica.proofAsked.engine.seat = _ ∧ installations replica.proofAsked.events = []
  unfold proofAsked
  rcases replica.engine.fireProof_cases replica.scenario.periodicProofs replica.now with
    ⟨-, asked⟩ | ⟨-, engine, events, -⟩ | ⟨-, engine, events, -⟩
  · rw [asked]
    exact ⟨rfl, rfl, rfl, rfl⟩
  · rw [engine, events]
    exact ⟨rfl, rfl, rfl, rfl⟩
  · rw [engine, events]
    exact ⟨rfl, rfl, rfl, rfl⟩

theorem regular_askProof : replica.askProof.Regular := by
  obtain ⟨view, -, seat, silent⟩ := replica.askProof_keeps
  exact
    { scenario := (replica.follow_place _ _).2
      seat
      later := (replica.atOnce_follow _ _).precedes
      onward := Int.le_of_eq view.symm
      told := by
        change _ = if replica.askProof.after.engine.view = replica.engine.view then _ else _
        rw [if_pos view, silent]
      written := replica.follow_installs _ _
      finished := replica.follow_finished _ _ }

/-- What a replica does while it attends is the answer to an envelope, or nothing. -/
theorem attend_cases :
    (replica.attend.events = [] ∧ replica.attend.after = replica.hear.2) ∨
      ∃ envelope, replica.hear.1 = .envelope envelope ∧
        replica.attend.events = (replica.hear.2.answer envelope).events ∧
        replica.attend.after = replica.hear.2.follow (replica.hear.2.answer envelope).engine
          (replica.hear.2.answer envelope).events := by
  cases heard : replica.hear.1 with
  | envelope envelope =>
      refine .inr ⟨envelope, rfl, ?_, replica.listen_envelope heard⟩
      rw [attend, replies, heard]
  | nothing =>
      refine .inl ⟨?_, replica.listen_silent (by simp [heard])⟩
      rw [attend, replies, heard]
  | stopped =>
      refine .inl ⟨?_, replica.listen_silent (by simp [heard])⟩
      rw [attend, replies, heard]

theorem attend_change :
    ∃ set, replica.engine.Change replica.attend.after.now set replica.attend.after.engine
      replica.attend.events := by
  rcases replica.attend_cases with ⟨events, after⟩ | ⟨envelope, -, events, after⟩
  · rw [events, after]
    exact ⟨false, .gather _ _ Engine.quiet_nil⟩
  · have clock : replica.attend.after.now = replica.hear.2.now := by
      rw [after]
      exact follow_now _ _ _
    rw [clock, events, after, follow_engine]
    exact ⟨_, Engine.receive_change _ _ _ envelope⟩

theorem attend_clock : replica.attend.after.machine.now = replica.hear.2.machine.now := by
  rcases replica.attend_cases with ⟨-, after⟩ | ⟨envelope, -, -, after⟩
  · rw [after]
  · rw [after, follow_clock]

theorem regular_attend : replica.attend.Regular := by
  obtain ⟨set, change⟩ := replica.attend_change
  obtain ⟨onward, told⟩ := Stage.onward_of_change change
  have books : replica.attend.after.scenario = replica.scenario ∧
      replica.attend.after.installs.toList =
        replica.installs.toList ++ installations replica.attend.events ∧
      replica.attend.after.finished =
        (replica.finished || (installations replica.attend.events).any fun installation =>
          replica.scenario.isFinished installation.1 installation.2) := by
    rcases replica.attend_cases with ⟨events, after⟩ | ⟨envelope, -, events, after⟩
    · rw [events, after]
      exact ⟨rfl, (List.append_nil _).symm, (Bool.or_false _).symm⟩
    · rw [events, after]
      exact ⟨(follow_place _ _ _).2, follow_installs _ _ _, follow_finished _ _ _⟩
  exact
    { scenario := books.1
      seat := change.seat
      later := replica.precedes_listen
      onward
      told
      written := books.2.1
      finished := books.2.2 }

end Regular

theorem regular_induction {holds : List Stage → Replica → Prop}
    (step : ∀ past (stage : Stage), holds past stage.before → stage.Regular →
      holds (past ++ [stage]) stage.after)
    (turns : Nat) {replica : Replica} (start : holds [] replica) :
    holds (replica.course turns) (replica.runFor turns).1 :=
  course_induction (fun past before held => step past _ held before.regular_askProgress)
    (fun past before held => step past _ held before.regular_askProof)
    (fun past before held _ => step past _ held before.regular_attend) turns start

theorem continues_runFor (start : Replica) (turns : Nat) : start.Continues (start.runFor turns).1 :=
  @regular_induction (fun _ replica => start.Continues replica)
    (fun _ _ same regular => regular.continues same) turns start (.refl start)

end Replica

end ViewSync
