import ViewSync.Proofs.Majorities
import ViewSync.Proofs.Redelivery

/-!
Messages that are refused.

A message is refused when it comes from outside the roster, when it is a proof that no majority is
behind, or when its view is over. A message that is wrong in more than one way is refused for the
first of these reasons. A refusal leaves the replica exactly as it was, and nothing is seen of it,
so that a run comes to the same if the messages that are refused in it never arrive.
-/

namespace ViewSync

open Cluster (neverHalts)

namespace Outcome

def code? : Outcome → Option Int
  | .settled verdict => some verdict.code
  | .halted _ => none

def isNegative (outcome : Outcome) : Bool :=
  outcome.code?.any (· < 0)

theorem isNegative_of_code? {outcome : Outcome} {code : Int} (returned : outcome.code? = some code)
    (negative : code < 0) : outcome.isNegative = true := by
  rw [isNegative, returned, Option.any_some]
  exact decide_eq_true negative

/-- What a call returns that is acted on, unless the watcher halts it with a quorum for `view`. -/
def ActsOn (halts : Int → Bool) (view : Int) (outcome : Outcome) : Prop :=
  outcome = .settled .accepted ∨ (outcome = .halted view ∧ halts view = true)

theorem ActsOn.not_negative {halts : Int → Bool} {view : Int} {outcome : Outcome}
    (acts : ActsOn halts view outcome) : ¬ outcome.isNegative = true := by
  rcases acts with rfl | ⟨rfl, -⟩
  · decide
  · exact Bool.false_ne_true

theorem ActsOn.code? {halts : Int → Bool} {view : Int} {outcome : Outcome}
    (acts : ActsOn halts view outcome) :
    outcome.code? = some 0 ∨ (outcome = .halted view ∧ halts view = true) :=
  acts.imp (fun accepted => congrArg Outcome.code? accepted) id

theorem ActsOn.code?_ne {halts : Int → Bool} {view code : Int} {outcome : Outcome}
    (acts : ActsOn halts view outcome) (negative : code < 0) : outcome.code? ≠ some code :=
  fun returned => acts.not_negative (isNegative_of_code? returned negative)

end Outcome

def Call.isMessage : Call → Bool
  | .receive _ => true
  | _ => false

namespace Engine

/-! ### Verdicts on messages -/

section Verdicts

variable (engine : Engine) (halts : Int → Bool) (now : Int)

theorem settle_acts (view : Int) :
    Outcome.ActsOn halts view (engine.settle halts now view).outcome := by
  unfold settle
  split
  · exact .inl rfl
  · split
    · split
      · next halted => exact .inr ⟨rfl, halted⟩
      · exact .inl rfl
    · exact .inl rfl

theorem receiveViewChange_verdict (sender view : Int) :
    (¬ engine.knows sender = true ∧
      (engine.receiveViewChange halts now sender view).outcome = .settled .unknownSender) ∨
    (engine.knows sender = true ∧ view ≤ engine.view ∧
      (engine.receiveViewChange halts now sender view).outcome = .settled .staleView) ∨
    (engine.knows sender = true ∧ engine.view < view ∧
      Outcome.ActsOn halts view (engine.receiveViewChange halts now sender view).outcome) := by
  unfold receiveViewChange
  split
  · next unknown => exact .inl ⟨by simpa using unknown, rfl⟩
  · next known =>
      simp only [Bool.not_eq_true', Bool.not_eq_false] at known
      split
      · next stale => exact .inr (.inl ⟨known, stale, rfl⟩)
      · next newer =>
          refine .inr (.inr ⟨known, Int.not_le.1 newer, ?_⟩)
          split
          · exact .inl rfl
          · split
            · exact settle_acts _ halts now view
            · exact settle_acts _ halts now view

theorem receiveViewProof_verdict (sender view : Int) (attestations : List Attestation) :
    (¬ engine.knows sender = true ∧
      (engine.receiveViewProof now sender view attestations).outcome =
        .settled .unknownSender) ∨
    (engine.knows sender = true ∧
      ¬ Attestation.quorumFor view attestations engine.replicas = true ∧
      (engine.receiveViewProof now sender view attestations).outcome =
        .settled .invalidCertificate) ∨
    (engine.knows sender = true ∧
      Attestation.quorumFor view attestations engine.replicas = true ∧ view < engine.view ∧
      (engine.receiveViewProof now sender view attestations).outcome = .settled .staleView) ∨
    (engine.knows sender = true ∧
      Attestation.quorumFor view attestations engine.replicas = true ∧ engine.view ≤ view ∧
      (engine.receiveViewProof now sender view attestations).outcome = .settled .accepted) := by
  unfold receiveViewProof
  split
  · next unknown => exact .inl ⟨by simpa using unknown, rfl⟩
  · next known =>
      simp only [Bool.not_eq_true', Bool.not_eq_false] at known
      split
      · next invalid => exact .inr (.inl ⟨known, by simpa using invalid, rfl⟩)
      · next quorum =>
          simp only [Bool.not_eq_true', Bool.not_eq_false] at quorum
          split
          · next stale => exact .inr (.inr (.inl ⟨known, quorum, stale, rfl⟩))
          · next current =>
              exact .inr (.inr (.inr ⟨known, quorum, Int.not_lt.1 current, rfl⟩))

theorem code_receiveViewChange (sender view : Int) :
    let outcome := (engine.receiveViewChange halts now sender view).outcome
    (outcome.code? = some (-3) ↔ ¬ engine.knows sender = true) ∧
      (engine.knows sender = true →
        (outcome.code? = some (-1) ↔ view ≤ engine.view) ∧
          (engine.view < view →
            outcome.code? = some 0 ∨ (outcome = .halted view ∧ halts view = true))) := by
  intro outcome
  rcases engine.receiveViewChange_verdict halts now sender view with
    ⟨unknown, answer⟩ | ⟨known, stale, answer⟩ | ⟨known, newer, acts⟩
  · have code : outcome.code? = some (-3) := congrArg Outcome.code? answer
    exact ⟨iff_of_true code unknown, fun known => absurd known unknown⟩
  · have code : outcome.code? = some (-1) := congrArg Outcome.code? answer
    refine ⟨iff_of_false (by rw [code]; decide) (not_not_intro known), fun _ => ?_⟩
    exact ⟨iff_of_true code stale, fun newer => absurd newer (Int.not_lt.2 stale)⟩
  · refine ⟨iff_of_false (acts.code?_ne (by decide)) (not_not_intro known), fun _ => ?_⟩
    exact ⟨iff_of_false (acts.code?_ne (by decide)) (Int.not_le.2 newer), fun _ => acts.code?⟩

theorem code_receiveViewProof (sender view : Int) (attestations : List Attestation) :
    let code := (engine.receiveViewProof now sender view attestations).outcome.code?
    let valid := Attestation.quorumFor view attestations engine.replicas
    (code = some (-3) ↔ ¬ engine.knows sender = true) ∧
      (engine.knows sender = true →
        (code = some (-2) ↔ ¬ valid = true) ∧
          (valid = true → (code = some (-1) ↔ view < engine.view) ∧
            (engine.view ≤ view → code = some 0))) := by
  intro code valid
  rcases engine.receiveViewProof_verdict now sender view attestations with
    ⟨unknown, answer⟩ | ⟨known, invalid, answer⟩ | ⟨known, quorum, stale, answer⟩ |
      ⟨known, quorum, current, answer⟩
  · have returned : code = some (-3) := congrArg Outcome.code? answer
    exact ⟨iff_of_true returned unknown, fun known => absurd known unknown⟩
  · have returned : code = some (-2) := congrArg Outcome.code? answer
    refine ⟨iff_of_false (by rw [returned]; decide) (not_not_intro known), fun _ => ?_⟩
    exact ⟨iff_of_true returned invalid, fun quorum => absurd quorum invalid⟩
  · have returned : code = some (-1) := congrArg Outcome.code? answer
    refine ⟨iff_of_false (by rw [returned]; decide) (not_not_intro known), fun _ => ?_⟩
    refine ⟨iff_of_false (by rw [returned]; decide) (not_not_intro quorum), fun _ => ?_⟩
    exact ⟨iff_of_true returned stale, fun current => absurd stale (Int.not_lt.2 current)⟩
  · have returned : code = some 0 := congrArg Outcome.code? answer
    refine ⟨iff_of_false (by rw [returned]; decide) (not_not_intro known), fun _ => ?_⟩
    refine ⟨iff_of_false (by rw [returned]; decide) (not_not_intro quorum), fun _ => ?_⟩
    exact ⟨iff_of_false (by rw [returned]; decide) (Int.not_lt.2 current), fun _ => returned⟩

/-- A message that is answered with a negative number leaves no trace. -/
theorem receive_of_negative {envelope : Envelope}
    (negative : (engine.receive halts now envelope).outcome.isNegative = true) :
    (engine.receive halts now envelope).engine = engine ∧
      (engine.receive halts now envelope).events = [] := by
  obtain ⟨sender, message⟩ := envelope
  cases message with
  | viewChange view =>
      change (engine.receiveViewChange halts now sender view).outcome.isNegative = true at negative
      rcases engine.receiveViewChange_verdict halts now sender view with
        ⟨unknown, -⟩ | ⟨-, stale, -⟩ | ⟨-, -, acts⟩
      · exact receiveViewChange_of_ignored (.inl unknown)
      · exact receiveViewChange_of_ignored (.inr (.inl stale))
      · exact absurd negative acts.not_negative
  | viewProof view attestations =>
      change (engine.receiveViewProof now sender view attestations).outcome.isNegative = true
        at negative
      rcases engine.receiveViewProof_verdict now sender view attestations with
        ⟨unknown, -⟩ | ⟨-, invalid, -⟩ | ⟨-, -, stale, -⟩ | ⟨-, -, -, accepted⟩
      · exact receiveViewProof_of_ignored (.inl unknown)
      · exact receiveViewProof_of_ignored (.inr (.inl invalid))
      · exact receiveViewProof_of_ignored (.inr (.inr stale))
      · rw [accepted] at negative
        cases negative

end Verdicts

/-! ### Runs without what is refused -/

def refuses (engine : Engine) (visit : Visit) : Bool :=
  visit.call.isMessage && (engine.respond visit).outcome.isNegative

def heeded (engine : Engine) : List Visit → List Visit
  | [] => []
  | visit :: rest =>
      let spared := heeded (engine.respond visit).engine rest
      if engine.refuses visit then spared else visit :: spared

theorem respond_of_refuses {engine : Engine} {visit : Visit}
    (refused : engine.refuses visit = true) :
    (engine.respond visit).engine = engine ∧ (engine.respond visit).events = [] := by
  obtain ⟨now, halts, call⟩ := visit
  obtain ⟨message, negative⟩ := Bool.and_eq_true_iff.1 refused
  cases call with
  | receive envelope => exact engine.receive_of_negative halts now negative
  | start => cases message
  | adjust timers => cases message
  | progressTimeout => cases message
  | proofTimeout => cases message

end Engine

namespace Diary

/-- What is refused can be struck out: the same is done, and the replica comes to the same state. -/
theorem throughout_heeded (visits : List Visit) (diary other : Diary)
    (engine : other.engine = diary.engine) (done : other.history.done = diary.history.done) :
    (other.throughout (diary.engine.heeded visits)).engine = (diary.throughout visits).engine ∧
      (other.throughout (diary.engine.heeded visits)).history.done =
        (diary.throughout visits).history.done := by
  induction visits generalizing diary other with
  | nil => exact ⟨engine, done⟩
  | cons visit rest ih =>
      rw [Engine.heeded]
      by_cases refused : diary.engine.refuses visit = true
      · obtain ⟨unchanged, silent⟩ := Engine.respond_of_refuses refused
        rw [if_pos refused]
        apply ih (diary.visit visit) other
        · exact engine.trans unchanged.symm
        · change _ = diary.history.done ++ (diary.engine.respond visit).events
          rw [silent, List.append_nil]
          exact done
      · rw [if_neg refused]
        apply ih (diary.visit visit) (other.visit visit)
        · exact congrArg (fun before => (before.respond visit).engine) engine
        · change other.history.done ++ (other.engine.respond visit).events =
            diary.history.done ++ (diary.engine.respond visit).events
          rw [engine, done]

end Diary

namespace Engine

/-- Whatever a replica has gone through, halted calls included: the number that it returns for a
message says whether the sender is on the roster, then whether a proof has a majority behind it,
and then whether the view is over, and it is 0 only if there is nothing to find fault with. A
message that is answered with a negative number changes nothing and nothing is seen of it. So a run
in which the refused messages are left out leads to the same state, and the same is seen of it. -/
theorem refused_messages_leave_no_trace {replicas : Nat} (position : Fin replicas)
    (timers : TimerPair) :
    (∀ (visits : List Visit) (now : Int) (halts : Int → Bool) (sender : Int) (message : Message),
      let engine := (ofPosition position timers).visited visits
      let step := engine.receive halts now ⟨sender, message⟩
      let code := step.outcome.code?
      (code = some (-3) ↔ ¬ (0 ≤ sender ∧ sender < replicas)) ∧
      (0 ≤ sender ∧ sender < replicas →
        (∀ view attestations, message = .viewProof view attestations →
          let valid := 0 ≤ view ∧
            (replicas : Int) / 2 + 1 ≤ (Attestation.backers view replicas attestations).card
          (code = some (-2) ↔ ¬ valid) ∧
            (valid → (code = some (-1) ↔ view < engine.view) ∧
              (engine.view ≤ view → code = some 0))) ∧
        ∀ view, message = .viewChange view →
          (code = some (-1) ↔ view ≤ engine.view) ∧
            (engine.view < view →
              code = some 0 ∨ (step.outcome = .halted view ∧ halts view = true))) ∧
      ∀ number, code = some number → number < 0 → step.engine = engine ∧ step.events = []) ∧
    ∀ visits : List Visit,
      let opening := Diary.opening position timers
      let spared := opening.throughout (opening.engine.heeded visits)
      spared.engine = opening.engine.visited visits ∧
        spared.history.done = (opening.throughout visits).history.done := by
  constructor
  · intro visits now halts sender message engine step code
    have roster : engine.replicas = replicas := (retains_visited _ visits).roster
    have seated : engine.knows sender = true ↔ 0 ≤ sender ∧ sender < replicas := by
      rw [engine.knows_iff, roster]
    refine ⟨?_, ?_, ?_⟩
    · rw [← seated]
      cases message with
      | viewChange view => exact (engine.code_receiveViewChange halts now sender view).1
      | viewProof view attestations =>
          exact (engine.code_receiveViewProof now sender view attestations).1
    · rw [← seated]
      intro known
      refine ⟨?_, ?_⟩
      · rintro view attestations rfl valid
        have quorum : Attestation.quorumFor view attestations engine.replicas = true ↔ valid := by
          rw [roster, Attestation.quorumFor_iff_majority]
          exact and_congr_right fun _ => and_iff_right (roster ▸ engine.roster_positive)
        have answers := (engine.code_receiveViewProof now sender view attestations).2 known
        rw [quorum] at answers
        exact answers
      · rintro view rfl
        exact (engine.code_receiveViewChange halts now sender view).2 known
    · intro number returned negative
      exact engine.receive_of_negative halts now (Outcome.isNegative_of_code? returned negative)
  · intro visits opening spared
    rw [← opening.engine_throughout visits]
    exact Diary.throughout_heeded visits opening opening rfl rfl

/-- Replica 0 of 3 hears a stranger, installs view 1, and is then shown a proof with one backer and
a vote that comes too late. -/
example :
    let engine := ofPosition (0 : Fin 3) ⟨100, 30, by decide, by decide, {}, {}⟩
    let visits : List Visit :=
      [⟨0, neverHalts, .start⟩, ⟨1, neverHalts, .receive ⟨3, .viewChange 1⟩⟩,
        ⟨2, neverHalts, .receive ⟨2, .viewChange 1⟩⟩,
        ⟨3, neverHalts, .receive ⟨1, .viewProof 2 [⟨1, 2⟩, ⟨1, 3⟩]⟩⟩,
        ⟨4, neverHalts, .receive ⟨1, .viewChange 1⟩⟩]
    (engine.heeded visits).map (·.now) = [0, 2] ∧
      (engine.visited visits).view = 1 ∧
        engine.visited (engine.heeded visits) = engine.visited visits := by
  decide +kernel

end Engine

end ViewSync
