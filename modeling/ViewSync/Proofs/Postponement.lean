import ViewSync.Proofs.Clock
import ViewSync.Proofs.Redelivery

/-!
What puts off a timeout.

The progress timer is set when a replica starts, when its timeout is reported, when the proof of a
view is accepted, and when a view is installed. These are the signs that a leader is alive or soon
will be. Nothing else touches the timer, and votes do not unless they complete a quorum. So nobody
can keep a replica from giving up its leader by calling for view changes, however often.
-/

namespace ViewSync

open Cluster (neverHalts)

/-- The conversion to nanoseconds and the sum wrap around together. -/
theorem wrap64_add_nanosOfMillis (now millis : Int) :
    wrap64 (now + nanosOfMillis millis) = wrap64 (now + millis * nanosPerMilli) := by
  rw [nanosOfMillis, wrap64, wrap64, wrap64, Int.add_bmod_bmod]

namespace Engine

theorem Change.installs_iff {before after : Engine} {now : Int} {set : Bool} {events : List Event}
    (change : before.Change now set after events) :
    installs events = true ↔ before.view < after.view := by
  cases change with
  | gather pending attempted quiet =>
      rw [quiet.1]
      exact iff_of_false Bool.false_ne_true (Int.lt_irrefl _)
  | rearm pending attempted quiet =>
      rw [quiet.1]
      exact iff_of_false Bool.false_ne_true (Int.lt_irrefl _)
  | install pending attempted quiet view certificate later valid =>
      rw [installs_append, installs_install, Bool.or_true, install_view]
      exact iff_of_true rfl later

/-- A call that sets the progress timer: the start, a timeout, the proof of a view when it is
accepted, and whatever leads to a later view. -/
def Renews (engine : Engine) (visit : Visit) : Prop :=
  visit.call = .start ∨ visit.call = .progressTimeout ∨
    (∃ sender view attestations,
      visit.call = .receive ⟨sender, .viewProof view attestations⟩ ∧
        (engine.respond visit).outcome = .settled .accepted) ∨
    engine.view < (engine.respond visit).engine.view

section Calls

variable {engine : Engine} {visit : Visit}

theorem renews_receive (engine : Engine) (now : Int) (halts : Int → Bool) (envelope : Envelope) :
    engine.Renews ⟨now, halts, .receive envelope⟩ ↔
      renews envelope.message (engine.receive halts now envelope) = true := by
  have moves := (engine.receive_change halts now envelope).installs_iff
  obtain ⟨sender, message⟩ := envelope
  cases message with
  | viewChange view =>
      simp only [renews, Bool.or_eq_true, moves]
      refine ⟨?_, fun moved => .inr (.inr (.inr (moved.resolve_right Bool.false_ne_true)))⟩
      rintro (start | timeout | ⟨_, _, _, proof, _⟩ | moved)
      · cases start
      · cases timeout
      · cases proof
      · exact .inl moved
  | viewProof view attestations =>
      simp only [renews, Bool.or_eq_true, moves, decide_eq_true_eq]
      refine ⟨?_, ?_⟩
      · rintro (start | timeout | ⟨_, _, _, _, accepted⟩ | moved)
        · cases start
        · cases timeout
        · exact .inr accepted
        · exact .inl moved
      · rintro (moved | accepted)
        · exact .inr (.inr (.inr moved))
        · exact .inr (.inr (.inl ⟨sender, view, attestations, rfl, accepted⟩))

theorem not_renews_proofTimeout (engine : Engine) (now : Int) (halts : Int → Bool) :
    ¬ engine.Renews ⟨now, halts, .proofTimeout⟩ := by
  rintro (start | timeout | ⟨_, _, _, proof, _⟩ | moved)
  · cases start
  · cases timeout
  · cases proof
  · obtain ⟨timers, retimed⟩ := engine.proofTimeout_retimes now
    change engine.view < (engine.proofTimeout now).engine.view at moved
    rw [retimed] at moved
    exact Int.lt_irrefl _ moved

theorem progress_proofTimeout (engine : Engine) (now : Int) :
    (engine.proofTimeout now).engine.timers.progress = engine.timers.progress := by
  unfold proofTimeout
  split
  · rfl
  · rfl

theorem progress_respond (called : ∀ timers, visit.call ≠ .adjust timers) :
    (engine.Renews visit → (engine.respond visit).engine.timers.progress =
        .reset visit.now (nanosOfMillis engine.timers.progressInterval)) ∧
      (¬ engine.Renews visit →
        (engine.respond visit).engine.timers.progress = engine.timers.progress) := by
  obtain ⟨now, halts, call⟩ := visit
  cases call with
  | start => exact ⟨fun _ => rfl, fun still => absurd (.inl rfl) still⟩
  | adjust timers => exact absurd rfl (called timers)
  | progressTimeout =>
      have change := engine.progressTimeout_change halts now
      exact ⟨fun _ => change.progress, fun still => absurd (.inr (.inl rfl)) still⟩
  | proofTimeout =>
      refine ⟨fun renews => absurd renews (engine.not_renews_proofTimeout now halts), fun _ => ?_⟩
      exact engine.progress_proofTimeout now
  | receive envelope =>
      have set := (engine.receive_change halts now envelope).progress
      rw [renews_receive]
      refine ⟨fun renewed => ?_, fun still => ?_⟩
      · rw [if_pos renewed] at set
        exact set
      · rw [if_neg still] at set
        exact set

end Calls

/-! ### Runs -/

/-- A run in which no call sets the progress timer leaves it as it was. -/
theorem progress_visited {engine : Engine} (visits : List Visit)
    (still : ∀ earlier visit later, visits = earlier ++ visit :: later →
      (∀ timers, visit.call ≠ .adjust timers) ∧ ¬ (engine.visited earlier).Renews visit) :
    (engine.visited visits).timers.progress = engine.timers.progress := by
  induction visits generalizing engine with
  | nil => rfl
  | cons visit rest ih =>
      obtain ⟨called, idle⟩ := still [] visit rest rfl
      have first : (engine.respond visit).engine.timers.progress = engine.timers.progress :=
        (progress_respond called).2 idle
      refine Eq.trans (ih ?_) first
      intro earlier next later split
      exact still (visit :: earlier) next later (congrArg (visit :: ·) split)

/-- No vote sets the timer in a run that ends in the view in which it began. -/
theorem progress_of_votes {engine : Engine} (votes : List Visit)
    (voting : ∀ vote ∈ votes, ∃ sender view, vote.call = .receive ⟨sender, .viewChange view⟩)
    (stays : (engine.visited votes).view = engine.view) :
    (engine.visited votes).timers.progress = engine.timers.progress := by
  apply progress_visited
  rintro earlier vote later rfl
  obtain ⟨sender, view, call⟩ := voting vote (List.mem_append_right _ List.mem_cons_self)
  refine ⟨fun timers adjusts => ?_, ?_⟩
  · rw [call] at adjusts
    cases adjusts
  · rintro (start | timeout | ⟨_, _, _, proof, _⟩ | moved)
    · cases call.symm.trans start
    · cases call.symm.trans timeout
    · cases call.symm.trans proof
    · -- the view never goes back, so it would still be later at the end
      have before := (engine.retains_visited earlier).onward
      have after :=
        (((engine.visited earlier).respond vote).engine.retains_visited later).onward
      have whole : engine.visited (earlier ++ vote :: later) =
          ((engine.visited earlier).respond vote).engine.visited later :=
        engine.visited_append earlier (vote :: later)
      rw [whole] at stays
      omega

/-- Whatever a replica has gone through, halted calls included. A call sets the progress timer if
it is the start, a timeout, an accepted proof or leads to a later view, and then the deadline is
one interval away as the clock counts: the sum itself if the clock shows it, and otherwise the
instant that the clock shows for it. No other call touches the timer. So votes, however many and
from whomever and for whatever views, do not put the timeout off as long as none of them makes the
replica install a view. -/
theorem only_signs_of_leader_postpone_timeout {replicas : Nat} (position : Fin replicas)
    (timers : TimerPair) (visits : List Visit) :
    let engine := (ofPosition position timers).visited visits
    (∀ visit : Visit, (∀ timers, visit.call ≠ .adjust timers) →
      let timer := (engine.respond visit).engine.timers.progress
      let due := visit.now + engine.timers.progressInterval * nanosPerMilli
      (engine.Renews visit →
        timer.armed = true ∧ timer.deadline = wrap64 due ∧
          (Showable due → timer.deadline = due)) ∧
      (¬ engine.Renews visit → timer = engine.timers.progress)) ∧
    ∀ votes : List Visit,
      (∀ vote ∈ votes, ∃ sender view, vote.call = .receive ⟨sender, .viewChange view⟩) →
      (engine.visited votes).view = engine.view →
        (engine.visited votes).timers.progress = engine.timers.progress := by
  intro engine
  refine ⟨?_, fun votes => progress_of_votes votes⟩
  intro visit called timer due
  obtain ⟨sets, leaves⟩ := @progress_respond engine visit called
  refine ⟨fun renews => ?_, leaves⟩
  have set : timer = .reset visit.now (nanosOfMillis engine.timers.progressInterval) :=
    sets renews
  have deadline : timer.deadline = wrap64 due := by
    rw [set]
    exact wrap64_add_nanosOfMillis visit.now engine.timers.progressInterval
  refine ⟨by rw [set]; rfl, deadline, fun showable => ?_⟩
  rw [deadline]
  exact wrap64_of_showable showable

/-- Replica 0 of 5 joins view 1, is halted with a quorum for it in hand, joins view 7 and hears a
stranger: its timer stays as the start has set it. The proof of view 3 sets it anew. -/
theorem only_signs_of_leader_postpone_timeout_of_calls_for_change :
    let visits : List Visit := [⟨0, neverHalts, .start⟩]
    let timers : TimerPair := ⟨100, 30, by decide, by decide, {}, {}⟩
    let engine := (ofPosition (0 : Fin 5) timers).visited visits
    let votes : List Visit :=
      [⟨40000000, neverHalts, .receive ⟨1, .viewChange 1⟩⟩,
        ⟨50000000, (· = 1), .receive ⟨2, .viewChange 1⟩⟩,
        ⟨60000000, neverHalts, .receive ⟨3, .viewChange 7⟩⟩,
        ⟨70000000, neverHalts, .receive ⟨-4, .viewChange 1⟩⟩]
    let proof : Visit :=
      ⟨80000000, neverHalts, .receive ⟨3, .viewProof 3 [⟨1, 3⟩, ⟨2, 3⟩, ⟨3, 4⟩]⟩⟩
    let due := proof.now + engine.timers.progressInterval * nanosPerMilli
    ((∀ vote ∈ votes, ∃ sender view, vote.call = .receive ⟨sender, .viewChange view⟩) ∧
      (engine.visited votes).view = engine.view ∧
      (∀ timers, proof.call ≠ .adjust timers) ∧ engine.Renews proof ∧ Showable due) ∧
    ((engine.visited votes).attempted = 7 ∧
      ((engine.visited votes).candidacy 1).isValid 5 = true) ∧
    (engine.visited votes).timers.progress = engine.timers.progress ∧
      (engine.respond proof).engine.timers.progress.deadline = due := by
  intro visits timers engine votes proof due
  have start : engine = (ofPosition (0 : Fin 5) timers).visited visits := rfl
  have voting : ∀ vote ∈ votes, ∃ sender view,
      vote.call = .receive ⟨sender, .viewChange view⟩ := by
    simp [votes]
  have stays : (engine.visited votes).view = engine.view := by decide +kernel
  have called : ∀ timers, proof.call ≠ .adjust timers := fun _ => Call.noConfusion
  have renews : engine.Renews proof :=
    .inr (.inr (.inl ⟨3, 3, _, rfl, by decide +kernel⟩))
  have showable : Showable due := by decide +kernel
  have whole := only_signs_of_leader_postpone_timeout (0 : Fin 5) timers visits
  -- keeps the run folded, so that nothing below evaluates it
  simp only [← start] at whole
  obtain ⟨calls, floods⟩ := whole
  exact ⟨⟨voting, stays, called, renews, showable⟩, by decide +kernel, floods votes voting stays,
    ((calls proof called).1 renews).2.2 showable⟩

/-- An interval of more milliseconds than the clock has nanoseconds is accepted. The sum wraps
around, and the timer that the start has set is due after ten milliseconds. -/
theorem deadline_is_not_one_interval_away_beyond_clock :
    let engine :=
      ofPosition (0 : Fin 1) ⟨288230376151711754, 30, by decide, by decide, {}, {}⟩
    let start : Visit := ⟨0, neverHalts, .start⟩
    let timers := (engine.respond start).engine.timers
    engine.Renews start ∧
      ¬ timers.progress.deadline = 0 + timers.progressInterval * nanosPerMilli ∧
        timers.untilNextDeadline 0 = 10 := by
  intro engine start timers
  exact ⟨.inl rfl, by decide +kernel, by decide +kernel⟩

end Engine

end ViewSync
