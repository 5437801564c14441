import ViewSync.Proofs.Durations

/-!
What a timer answers, told from what was done before.

A pair of timers is used at instants in any order, since a clock may go back: a timer is set, the
proof timer is disarmed, and each of the two is asked whether it fires. A timer pends from an
instant if it was set then and nothing has settled it since: it was not set again, it was not
disarmed, and it did not fire when it was asked. An answer depends on nothing else. So a timer
fires at most once each time it is set, and what is done with the other timer does not matter.
-/

namespace ViewSync

open CommandLine (Timer)

def CommandLine.Timer.ask (timers : TimerPair) (now : Int) : Timer → Bool × TimerPair
  | .progress => timers.consumeProgress now
  | .proof => timers.consumeProof now

theorem Countdown.consume_fst (timer : Countdown) (now : Int) :
    (timer.consume now).1 = timer.isDue now := by
  unfold consume
  split
  · next due => exact due.symm
  · next waiting => exact (Bool.eq_false_iff.2 waiting).symm

namespace TimerPair

theorem ask_fst (timers : TimerPair) (timer : Timer) (now : Int) :
    (timer.ask timers now).1 = (timer.countdown timers).isDue now := by
  cases timer with
  | progress => exact Countdown.consume_fst timers.progress now
  | proof => exact Countdown.consume_fst timers.proof now

/-! ### Uses -/

inductive Operation
  | set (timer : Timer)
  | disableProof
  | ask (timer : Timer)
deriving DecidableEq, Repr

def Operation.timer : Operation → Timer
  | .set timer => timer
  | .disableProof => .proof
  | .ask timer => timer

theorem Operation.cases_of_timer {operation : Operation} {timer : Timer}
    (own : operation.timer = timer) :
    operation = .set timer ∨ (timer = .proof ∧ operation = .disableProof) ∨
      operation = .ask timer := by
  cases own
  cases operation with
  | set timer => exact .inl rfl
  | disableProof => exact .inr (.inl ⟨rfl, rfl⟩)
  | ask timer => exact .inr (.inr rfl)

structure Use where
  instant : Int
  operation : Operation
deriving DecidableEq, Repr

def perform (timers : TimerPair) (use : Use) : TimerPair :=
  match use.operation with
  | .set timer => timer.set timers use.instant
  | .disableProof => timers.disableProof
  | .ask timer => (timer.ask timers use.instant).2

def after (timers : TimerPair) (uses : List Use) : TimerPair :=
  uses.foldl perform timers

def answers (timer : Timer) : TimerPair → List Use → List Bool
  | _, [] => []
  | timers, use :: rest =>
      if use.operation = .ask timer then
        (timer.ask timers use.instant).1 :: answers timer (timers.perform use) rest
      else
        answers timer (timers.perform use) rest

/-- A use after which a timer does not fire any more for having been set before. -/
def Settles (timers : TimerPair) (timer : Timer) (use : Use) : Prop :=
  use.operation = .set timer ∨
    (timer = .proof ∧ use.operation = .disableProof) ∨
      (use.operation = .ask timer ∧ (timer.ask timers use.instant).1 = true)

/-- The timer was set at the instant, and none of the uses after that settles it. -/
def Pends (timers : TimerPair) (uses : List Use) (timer : Timer) (instant : Int) : Prop :=
  ∃ earlier later, uses = earlier ++ ⟨instant, .set timer⟩ :: later ∧
    ∀ before use rest, later = before ++ use :: rest →
      ¬ (timers.after (earlier ++ ⟨instant, .set timer⟩ :: before)).Settles timer use

/-! ### One use -/

section Perform

variable {timers : TimerPair} {timer : Timer} {use : Use}

theorem after_append_singleton (timers : TimerPair) (uses : List Use) (use : Use) :
    timers.after (uses ++ [use]) = (timers.after uses).perform use := by
  rw [after, List.foldl_append]
  rfl

theorem length_perform (timers : TimerPair) (timer : Timer) (use : Use) :
    timer.length (timers.perform use) = timer.length timers := by
  obtain ⟨instant, operation⟩ := use
  cases operation with
  | set set => cases set <;> cases timer <;> rfl
  | disableProof => cases timer <;> rfl
  | ask asked => cases asked <;> cases timer <;> rfl

theorem length_after (timers : TimerPair) (timer : Timer) (uses : List Use) :
    timer.length (timers.after uses) = timer.length timers := by
  induction uses generalizing timers with
  | nil => rfl
  | cons use rest ih => exact (ih (timers.perform use)).trans (length_perform timers timer use)

theorem countdown_set (timers : TimerPair) (timer : Timer) (instant : Int) :
    timer.countdown (timers.perform ⟨instant, .set timer⟩) =
      .reset instant (nanosOfMillis (timer.length timers)) := by
  cases timer <;> rfl

theorem countdown_perform_of_ne (other : use.operation.timer ≠ timer) :
    timer.countdown (timers.perform use) = timer.countdown timers := by
  obtain ⟨instant, operation⟩ := use
  cases timer with
  | progress =>
      match operation with
      | .set .proof | .disableProof | .ask .proof => rfl
      | .set .progress | .ask .progress => exact absurd rfl other
  | proof =>
      match operation with
      | .set .progress | .ask .progress => rfl
      | .set .proof | .disableProof | .ask .proof => exact absurd rfl other

theorem countdown_ask (timers : TimerPair) (timer : Timer) (instant : Int) :
    timer.countdown (timers.perform ⟨instant, .ask timer⟩) =
      ((timer.countdown timers).consume instant).2 := by
  cases timer <;> rfl

theorem countdown_perform_congr {others : TimerPair}
    (same : timer.countdown timers = timer.countdown others)
    (sameLength : timer.length timers = timer.length others) :
    timer.countdown (timers.perform use) = timer.countdown (others.perform use) := by
  by_cases own : use.operation.timer = timer
  · obtain ⟨instant, operation⟩ := use
    rcases Operation.cases_of_timer own with set | ⟨proof, disarms⟩ | asked
    · cases set
      rw [countdown_set, countdown_set, sameLength]
    · cases proof
      cases disarms
      exact congrArg Countdown.disable same
    · cases asked
      rw [countdown_ask, countdown_ask, same]
  · rw [countdown_perform_of_ne own, countdown_perform_of_ne own, same]

theorem Settles.cases (settles : timers.Settles timer use) :
    use = ⟨use.instant, .set timer⟩ ∨ (timer.countdown (timers.perform use)).armed = false := by
  obtain ⟨instant, operation⟩ := use
  rcases settles with set | ⟨proof, disarms⟩ | ⟨asked, fires⟩
  · exact .inl (congrArg (Use.mk instant) set)
  · cases proof
    cases disarms
    exact .inr rfl
  · cases asked
    rw [ask_fst] at fires
    rw [countdown_ask, Countdown.consume, if_pos fires]
    exact .inr rfl

theorem countdown_of_not_settles (settled : ¬ timers.Settles timer use) :
    timer.countdown (timers.perform use) = timer.countdown timers := by
  by_cases own : use.operation.timer = timer
  · obtain ⟨instant, operation⟩ := use
    rcases Operation.cases_of_timer own with set | disarms | asked
    · exact absurd (.inl set) settled
    · exact absurd (.inr (.inl disarms)) settled
    · cases asked
      have waiting : ¬ (timer.countdown timers).isDue instant = true := by
        rw [← ask_fst]
        exact fun fires => settled (.inr (.inr ⟨rfl, fires⟩))
      rw [countdown_ask, Countdown.consume, if_neg waiting]
  · exact countdown_perform_of_ne own

end Perform

/-! ### Any number of uses -/

section Uses

variable {timers : TimerPair} {uses : List Use} {timer : Timer} {instant : Int}

theorem append_singleton_eq_iff {last next : Use} {before rest : List Use} :
    uses ++ [last] = before ++ next :: rest ↔
      (rest = [] ∧ before = uses ∧ next = last) ∨
        ∃ between, rest = between ++ [last] ∧ uses = before ++ next :: between := by
  constructor
  · intro whole
    rcases List.eq_nil_or_concat rest with rfl | ⟨between, final, rfl⟩
    · obtain ⟨same, equal⟩ := List.append_inj' whole rfl
      exact .inl ⟨rfl, same.symm, (List.singleton_inj.1 equal).symm⟩
    · have parted : uses ++ [last] = (before ++ next :: between) ++ [final] := by
        simpa using whole
      obtain ⟨same, equal⟩ := List.append_inj' parted rfl
      cases List.singleton_inj.1 equal
      exact .inr ⟨between, List.concat_eq_append .., same⟩
  · rintro (⟨rfl, rfl, rfl⟩ | ⟨between, rfl, rfl⟩)
    · rfl
    · rw [List.append_assoc, List.cons_append]

/-- A timer pends after a use if that sets it, or if it did before and the use does not settle it. -/
theorem pends_append_singleton {use : Use} :
    timers.Pends (uses ++ [use]) timer instant ↔
      use = ⟨instant, .set timer⟩ ∨
        (timers.Pends uses timer instant ∧ ¬ (timers.after uses).Settles timer use) := by
  constructor
  · rintro ⟨earlier, later, whole, still⟩
    rcases append_singleton_eq_iff.1 whole with ⟨-, -, last⟩ | ⟨between, rfl, rfl⟩
    · exact .inl last.symm
    · refine .inr ⟨⟨earlier, between, rfl, ?_⟩, still between use [] rfl⟩
      rintro before next rest rfl
      exact still before next (rest ++ [use]) (by rw [List.append_assoc, List.cons_append])
  · rintro (rfl | ⟨⟨earlier, later, rfl, still⟩, settled⟩)
    · refine ⟨uses, [], rfl, ?_⟩
      intro before next rest split
      cases List.append_ne_nil_of_right_ne_nil before (List.cons_ne_nil next rest) split.symm
    · refine ⟨earlier, later ++ [use], by rw [List.append_assoc, List.cons_append], ?_⟩
      intro before next rest split
      rcases append_singleton_eq_iff.1 split with ⟨-, rfl, rfl⟩ | ⟨between, -, rfl⟩
      · exact settled
      · exact still before next between rfl

theorem not_pends_nil : ¬ timers.Pends [] timer instant := by
  rintro ⟨earlier, later, whole, -⟩
  exact List.append_ne_nil_of_right_ne_nil earlier (List.cons_ne_nil _ later) whole.symm

theorem Pends.countdown (pends : timers.Pends uses timer instant) :
    timer.countdown (timers.after uses) =
      .reset instant (nanosOfMillis (timer.length timers)) := by
  -- from the last use backwards, because it is the last one that settles
  induction uses using List.reverseRecOn with
  | nil => exact absurd pends not_pends_nil
  | append_singleton earlier use ih =>
      rw [after_append_singleton]
      rcases pends_append_singleton.1 pends with rfl | ⟨before, settled⟩
      · rw [countdown_set, length_after]
      · rw [countdown_of_not_settles settled]
        exact ih before

/-- An armed timer pends from the instant when it was set last. -/
theorem exists_pends_of_armed
    (armed : (timer.countdown (timers.fresh.after uses)).armed = true) :
    ∃ instant, timers.fresh.Pends uses timer instant := by
  induction uses using List.reverseRecOn with
  | nil => cases timer <;> cases armed
  | append_singleton earlier use ih =>
      rw [after_append_singleton] at armed
      by_cases settles : (timers.fresh.after earlier).Settles timer use
      · rcases settles.cases with set | disarmed
        · exact ⟨use.instant, pends_append_singleton.2 (.inl set)⟩
        · rw [disarmed] at armed
          cases armed
      · rw [countdown_of_not_settles settles] at armed
        obtain ⟨instant, before⟩ := ih armed
        exact ⟨instant, pends_append_singleton.2 (.inr ⟨before, settles⟩)⟩

/-- A timer fires if it pends from an instant and the deadline set then is reached. -/
theorem ask_iff {now : Int} :
    (timer.ask (timers.fresh.after uses) now).1 = true ↔
      ∃ instant, timers.fresh.Pends uses timer instant ∧
        wrap64 (instant + nanosOfMillis (timer.length timers)) ≤ now := by
  rw [ask_fst, Countdown.isDue, Bool.and_eq_true, decide_eq_true_eq]
  constructor
  · rintro ⟨armed, reached⟩
    obtain ⟨instant, pends⟩ := exists_pends_of_armed armed
    rw [pends.countdown] at reached
    exact ⟨instant, pends, reached⟩
  · rintro ⟨instant, pends, reached⟩
    rw [pends.countdown]
    exact ⟨rfl, reached⟩

theorem Pends.mem (pends : timers.Pends uses timer instant) : ⟨instant, .set timer⟩ ∈ uses := by
  obtain ⟨earlier, later, rfl, -⟩ := pends
  exact List.mem_append_right earlier List.mem_cons_self

/-- The answers of a timer depend on what is done with that timer. -/
theorem answers_congr {others : TimerPair}
    (same : timer.countdown timers = timer.countdown others)
    (sameLength : timer.length timers = timer.length others) :
    timers.answers timer (uses.filter (·.operation.timer = timer)) =
      others.answers timer uses := by
  induction uses generalizing timers others with
  | nil => rfl
  | cons use rest ih =>
      by_cases own : use.operation.timer = timer
      · have still : timer.countdown (timers.perform use) = timer.countdown (others.perform use) :=
          countdown_perform_congr same sameLength
        have later := ih still (by rw [length_perform, length_perform, sameLength])
        rw [List.filter_cons_of_pos (by simpa using own), answers, answers, later, ask_fst,
          ask_fst, same]
      · have notAsked : ¬ use.operation = .ask timer := by
          intro asked
          exact own (congrArg Operation.timer asked)
        rw [List.filter_cons_of_neg (by simpa using own), answers, if_neg notAsked]
        exact ih (same.trans (countdown_perform_of_ne own).symm)
          (sameLength.trans (length_perform others timer use).symm)

end Uses

/-- A new pair of timers, used in whatever way and at whatever instants. As long as the deadlines of
a timer are instants that the clock shows, the timer fires if and only if it was set an interval
ago or longer, and has not been set again, disarmed or found to fire since. To strike out what was
done with the other timer changes none of its answers. -/
theorem fires_once_each_time_set (timers : TimerPair) (timer : Timer) (uses : List Use)
    (shown : ∀ instant, ⟨instant, .set timer⟩ ∈ uses →
      Showable (instant + timer.length timers * nanosPerMilli)) :
    (∀ now, (timer.ask (timers.fresh.after uses) now).1 = true ↔
      ∃ instant, timers.fresh.Pends uses timer instant ∧
        instant + timer.length timers * nanosPerMilli ≤ now) ∧
    timers.fresh.answers timer (uses.filter (·.operation.timer = timer)) =
      timers.fresh.answers timer uses := by
  refine ⟨fun now => ?_, answers_congr rfl rfl⟩
  rw [ask_iff]
  apply exists_congr
  intro instant
  apply and_congr_right
  intro pends
  rw [wrap64_add_nanos (shown instant pends.mem)]

/-- The clock goes back twice. The proof timer fires when it is asked, is set again and disarmed;
the progress timer is asked a nanosecond too early and fires when its time has come. -/
theorem fires_once_each_time_set_of_clock_set_back :
    let timers : TimerPair := ⟨100, 30, by decide, by decide, {}, {}⟩
    let uses : List Use :=
      [⟨50000000, .set .progress⟩, ⟨20000000, .set .proof⟩, ⟨50000000, .ask .proof⟩,
        ⟨149999999, .ask .progress⟩, ⟨10000000, .set .proof⟩, ⟨12000000, .disableProof⟩]
    (∀ timer instant, ⟨instant, .set timer⟩ ∈ uses →
      Showable (instant + timer.length timers * nanosPerMilli)) ∧
    (∃ instant, timers.fresh.Pends uses .progress instant ∧
      instant + 100 * nanosPerMilli ≤ 150000000) ∧
    (¬ ∃ instant, timers.fresh.Pends uses .proof instant ∧
      instant + 30 * nanosPerMilli ≤ 150000000) ∧
    timers.fresh.answers .progress (uses.filter (·.operation.timer = .progress)) = [false] := by
  intro timers uses
  have shown : ∀ timer instant, ⟨instant, .set timer⟩ ∈ uses →
      Showable (instant + timer.length timers * nanosPerMilli) := by
    intro timer instant listed
    simp only [uses, List.mem_cons, Use.mk.injEq, Operation.set.injEq, reduceCtorEq, and_false,
      List.not_mem_nil, or_false, false_or] at listed
    rcases listed with ⟨rfl, rfl⟩ | ⟨rfl, rfl⟩ | ⟨rfl, rfl⟩ <;> decide
  obtain ⟨progress, answers⟩ := fires_once_each_time_set timers .progress uses (shown .progress)
  obtain ⟨proof, -⟩ := fires_once_each_time_set timers .proof uses (shown .proof)
  refine ⟨shown, (progress 150000000).1 (by decide +kernel), ?_, ?_⟩
  · intro fires
    have silent : ¬ (Timer.proof.ask (timers.fresh.after uses) 150000000).1 = true := by
      decide +kernel
    exact silent ((proof 150000000).2 fires)
  · rw [answers]
    decide +kernel

end TimerPair

end ViewSync
