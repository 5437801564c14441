import ViewSync.Proofs.Firing
import ViewSync.Proofs.Postponement

/-!
When to wake up for the next deadline.

A replica that waits asks its timers how many milliseconds it may sleep. The answer is the least
number of whole milliseconds after which some timer fires: what is left of a deadline is rounded up,
the first of the deadlines counts, and a deadline that is past does not make the number negative.
So the replica neither wakes up in vain nor oversleeps by a millisecond. What is left is the
difference of two instants, and it has to be one that 64 bits can hold; otherwise it wraps around.
-/

namespace ViewSync

open CommandLine (Timer)

theorem millisCovering_le_iff {nanos millis : Int} :
    millisCovering nanos ≤ millis ↔ nanos ≤ millis * nanosPerMilli := by
  unfold millisCovering nanosPerMilli
  omega

theorem wrap64_le {value : Int} (above : -9223372036854775808 ≤ value) : wrap64 value ≤ value := by
  rw [wrap64, Int.bmod_def]
  split <;> omega

theorem CommandLine.Timer.exists_iff {holds : Timer → Prop} :
    (∃ timer, holds timer) ↔ holds .progress ∨ holds .proof := by
  constructor
  · rintro ⟨timer, held⟩
    cases timer with
    | progress => exact .inl held
    | proof => exact .inr held
  · rintro (held | held)
    · exact ⟨.progress, held⟩
    · exact ⟨.proof, held⟩

namespace TimerPair

variable {timers : TimerPair} {now millis : Int}

theorem untilNextDeadline_nonneg (timers : TimerPair) (now : Int) :
    0 ≤ timers.untilNextDeadline now :=
  Int.le_max_right _ _

theorem untilNextDeadline_of_idle
    (idle : ∀ timer : Timer, (timer.countdown timers).armed = false) :
    timers.untilNextDeadline now = timers.progressInterval := by
  have progress : timers.progress.armed = false := idle .progress
  have proof : timers.proof.armed = false := idle .proof
  rw [untilNextDeadline, progress, proof]
  exact Int.max_eq_left (Int.le_of_lt timers.progress_positive)

/-- The first of the armed timers decides. -/
theorem untilNextDeadline_le_iff (natural : 0 ≤ millis)
    (armed : ∃ timer : Timer, (timer.countdown timers).armed = true) :
    timers.untilNextDeadline now ≤ millis ↔
      ∃ timer : Timer, (timer.countdown timers).armed = true ∧
        millisLeft (timer.countdown timers) now ≤ millis := by
  rw [Timer.exists_iff] at armed ⊢
  simp only [Timer.countdown] at armed ⊢
  rw [untilNextDeadline]
  cases progress : timers.progress.armed <;> cases proof : timers.proof.armed
  · simp [progress, proof] at armed
  · simp [natural]
  · simp [natural]
  · simp [natural]

/-! ### What is left of a timer -/

/-- The time that is left of a timer, or that it is overdue, is one that 64 bits can hold. -/
def Measurable (timers : TimerPair) (timer : Timer) (now : Int) : Prop :=
  Showable ((timer.countdown timers).deadline - now)

instance (timers : TimerPair) (timer : Timer) (now : Int) :
    Decidable (timers.Measurable timer now) :=
  inferInstanceAs (Decidable (Showable _))

theorem millisLeft_le_iff {timer : Timer} (measurable : timers.Measurable timer now) :
    millisLeft (timer.countdown timers) now ≤ millis ↔
      (timer.countdown timers).deadline ≤ now + millis * nanosPerMilli := by
  rw [millisLeft, wrap64_of_showable measurable, millisCovering_le_iff]
  omega

/-- A timer that fires after some milliseconds bounds the time to sleep, whatever the other does. -/
theorem untilNextDeadline_le_of_ask {timer : Timer} (natural : 0 ≤ millis)
    (measurable : timers.Measurable timer now)
    (fires : (timer.ask timers (now + millis * nanosPerMilli)).1 = true) :
    timers.untilNextDeadline now ≤ millis := by
  rw [ask_fst, Countdown.isDue, Bool.and_eq_true, decide_eq_true_eq] at fires
  obtain ⟨armed, reached⟩ := fires
  exact (untilNextDeadline_le_iff natural ⟨timer, armed⟩).2
    ⟨timer, armed, (millisLeft_le_iff measurable).2 reached⟩

theorem exists_ask_of_untilNextDeadline_le (natural : 0 ≤ millis)
    (armed : ∃ timer : Timer, (timer.countdown timers).armed = true)
    (measurable : ∀ timer : Timer, (timer.countdown timers).armed = true →
      timers.Measurable timer now)
    (enough : timers.untilNextDeadline now ≤ millis) :
    ∃ timer : Timer, (timer.ask timers (now + millis * nanosPerMilli)).1 = true := by
  obtain ⟨timer, runs, left⟩ := (untilNextDeadline_le_iff natural armed).1 enough
  refine ⟨timer, ?_⟩
  rw [ask_fst, Countdown.isDue, runs, Bool.true_and, decide_eq_true_eq]
  exact (millisLeft_le_iff (measurable timer runs)).1 left

theorem length_positive (timers : TimerPair) (timer : Timer) : 0 < timer.length timers := by
  cases timer with
  | progress => exact timers.progress_positive
  | proof => exact timers.proof_positive

theorem Pends.deadline_le {uses : List Use} {timer : Timer} {instant : Int}
    (pends : timers.Pends uses timer instant) (shown : Showable instant) :
    (timer.countdown (timers.after uses)).deadline ≤
      instant + timer.length timers * nanosPerMilli := by
  rw [pends.countdown]
  change wrap64 (instant + nanosOfMillis (timer.length timers)) ≤ _
  rw [wrap64_add_nanosOfMillis]
  apply wrap64_le
  have later := Engine.nanos_positive (timers.length_positive timer)
  have first := shown.1
  omega

/-- A new pair of timers, used in whatever way and at whatever instants. When what is left of the
armed timers is measurable, the time to sleep is zero only if some timer fires now, and
otherwise some timer fires after it and none a millisecond earlier. A timer that fires now lets
nobody sleep, if what it is overdue is measurable. With no timer armed the time to sleep is the
progress interval, and it is no longer than the interval of an armed and measurable timer, unless
the clock has gone back since that was set. -/
theorem wakes_for_first_deadline (timers : TimerPair) (uses : List Use) (now : Int) :
    let used := timers.fresh.after uses
    let sleep := used.untilNextDeadline now
    0 ≤ sleep ∧
    ((∃ timer : Timer, (timer.countdown used).armed = true) →
      (∀ timer : Timer, (timer.countdown used).armed = true → used.Measurable timer now) →
        (sleep = 0 → ∃ timer : Timer, (timer.ask used now).1 = true) ∧
        (0 < sleep →
          (∀ timer : Timer, (timer.ask used (now + (sleep - 1) * nanosPerMilli)).1 = false) ∧
            ∃ timer : Timer, (timer.ask used (now + sleep * nanosPerMilli)).1 = true)) ∧
    (∀ timer : Timer, (timer.ask used now).1 = true → used.Measurable timer now → sleep = 0) ∧
    ((∀ timer : Timer, (timer.countdown used).armed = false) →
      sleep = timers.progressInterval) ∧
    ∀ timer : Timer, (timer.countdown used).armed = true →
      ∃ instant, timers.fresh.Pends uses timer instant ∧
        (Showable instant → used.Measurable timer now → instant ≤ now →
          sleep ≤ timer.length timers) := by
  intro used sleep
  have natural : 0 ≤ sleep := untilNextDeadline_nonneg used now
  have atOnce : now + 0 * nanosPerMilli = now := by rw [Int.zero_mul, Int.add_zero]
  refine ⟨natural, fun armed measurable => ⟨fun zero => ?_, fun positive => ⟨fun timer => ?_, ?_⟩⟩,
    ?_, ?_, ?_⟩
  · have due := exists_ask_of_untilNextDeadline_le Int.le_rfl armed measurable (Int.le_of_eq zero)
    rwa [atOnce] at due
  · rw [Bool.eq_false_iff]
    intro fires
    have runs : (timer.countdown used).armed = true := by
      rw [ask_fst, Countdown.isDue, Bool.and_eq_true] at fires
      exact fires.1
    have early : sleep ≤ sleep - 1 :=
      untilNextDeadline_le_of_ask (by omega) (measurable timer runs) fires
    omega
  · exact exists_ask_of_untilNextDeadline_le natural armed measurable Int.le_rfl
  · intro timer fires measurable
    rw [← atOnce] at fires
    exact Int.le_antisymm (untilNextDeadline_le_of_ask Int.le_rfl measurable fires) natural
  · intro idle
    exact (untilNextDeadline_of_idle idle).trans (length_after timers.fresh .progress uses)
  · intro timer armed
    obtain ⟨instant, pends⟩ := exists_pends_of_armed armed
    refine ⟨instant, pends, fun shown measurable forward => ?_⟩
    have deadline : (timer.countdown used).deadline ≤
        instant + timer.length timers * nanosPerMilli := pends.deadline_le shown
    have fires : (timer.ask used (now + timer.length timers * nanosPerMilli)).1 = true := by
      rw [ask_fst, Countdown.isDue, armed, Bool.true_and, decide_eq_true_eq]
      omega
    exact untilNextDeadline_le_of_ask (Int.le_of_lt (timers.length_positive timer)) measurable fires

/-- The proof timer was set at 40.3 milliseconds, and the clock has gone back to 30. The proof timer
is due in 40.3 milliseconds, before the progress timer, which was set at 5. -/
theorem wakes_for_first_deadline_of_clock_set_back :
    let timers : TimerPair := ⟨100, 30, by decide, by decide, {}, {}⟩
    let uses : List Use := [⟨5000000, .set .progress⟩, ⟨40300000, .set .proof⟩]
    let used := timers.fresh.after uses
    let now : Int := 30000000
    (∀ timer : Timer, (timer.countdown used).armed = true ∧ used.Measurable timer now) ∧
    used.untilNextDeadline now = 41 ∧
    (∀ timer : Timer, (timer.ask used (now + 40 * nanosPerMilli)).1 = false) ∧
    (∃ timer : Timer, (timer.ask used (now + 41 * nanosPerMilli)).1 = true) ∧
    used.untilNextDeadline now ≤ 100 := by
  intro timers uses used now
  have armed : ∀ timer : Timer, (timer.countdown used).armed = true ∧
      used.Measurable timer now := by
    intro timer
    cases timer <;> decide +kernel
  have sleep : used.untilNextDeadline now = 41 := by decide +kernel
  obtain ⟨-, tight, -, -, bounded⟩ := wakes_for_first_deadline timers uses now
  have wakes := (tight ⟨.proof, rfl⟩ fun timer _ => (armed timer).2).2 (by rw [sleep]; decide)
  rw [sleep] at wakes
  obtain ⟨instant, pends, enough⟩ := bounded .progress rfl
  have set : instant = 5000000 := by simpa [uses] using pends.mem
  refine ⟨armed, sleep, wakes.1, wakes.2, enough ?_ (armed .progress).2 ?_⟩
  · rw [set]
    decide
  · rw [set]
    decide

/-- The clock has gone back by so much that what is left of the deadline does not fit into 64 bits.
It wraps around, and the time to sleep is zero although no timer fires. -/
theorem wakes_in_vain_when_clock_goes_far_back :
    let timers : TimerPair := ⟨4611686018428, 30, by decide, by decide, {}, {}⟩
    let used := timers.fresh.after [⟨0, .set .progress⟩]
    let now : Int := -4611686018427387904
    (∃ timer : Timer, (timer.countdown used).armed = true) ∧
      ¬ (used.untilNextDeadline now = 0 → ∃ timer : Timer, (timer.ask used now).1 = true) := by
  intro timers used now
  refine ⟨⟨.progress, rfl⟩, fun claimed => ?_⟩
  obtain ⟨timer, fires⟩ := claimed (by decide +kernel)
  cases timer <;> cases fires

end TimerPair

end ViewSync
