import ViewSync.Proofs.Diary
import ViewSync.Proofs.Timekeeping

/-!
A message that comes again.

Networks deliver messages twice, and the second time may be much later: after the view that the
message is about has been installed or passed, or while an installation that the watcher halted is
still to be completed. Nothing comes of it at any time. A vote is counted when it is first heard,
and after that no call takes it back before its view is passed; the view of a proof is installed or
passed when it is first heard. What is not taken back is said once, of the few changes that calls
are made of.
-/

namespace ViewSync

open Cluster (neverHalts)

/-- A call at an instant, and the views whose quorums make the watcher halt the replica. -/
structure Visit where
  now : Int
  halts : Int → Bool
  call : Call

namespace Engine

def respond (engine : Engine) (visit : Visit) : Step :=
  match visit.call with
  | .start => { engine := engine.start visit.now }
  | .adjust timers => { engine := { engine with timers } }
  | .progressTimeout => engine.progressTimeout visit.halts visit.now
  | .proofTimeout => engine.proofTimeout visit.now
  | .receive envelope => engine.receive visit.halts visit.now envelope

def visited (engine : Engine) (visits : List Visit) : Engine :=
  visits.foldl (fun before visit => (before.respond visit).engine) engine

theorem knows_iff (engine : Engine) (sender : Int) :
    engine.knows sender = true ↔ 0 ≤ sender ∧ sender < engine.replicas := by
  rw [knows, Bool.and_eq_true, decide_eq_true_eq, decide_eq_true_eq]

theorem visited_append (engine : Engine) (first second : List Visit) :
    engine.visited (first ++ second) = (engine.visited first).visited second :=
  List.foldl_append

end Engine

namespace Diary

def visit (diary : Diary) (visit : Visit) : Diary :=
  diary.enter (diary.engine.respond visit).engine visit.call.heard
    (diary.engine.respond visit).events

def throughout (diary : Diary) (visits : List Visit) : Diary :=
  visits.foldl Diary.visit diary

theorem engine_throughout (diary : Diary) (visits : List Visit) :
    (diary.throughout visits).engine = diary.engine.visited visits := by
  induction visits generalizing diary with
  | nil => rfl
  | cons visit rest ih => exact ih (diary.visit visit)

end Diary

namespace Engine

/-! ### What is kept -/

def Balloted (engine : Engine) : Prop :=
  ∀ (view : Int) (certificate : Certificate), engine.pending[view]? = some certificate →
    certificate.IsBallot view fun _ => True

theorem Balloted.candidacy {engine : Engine} (balloted : engine.Balloted) (view : Int) :
    (engine.candidacy view).IsBallot view fun _ => True := by
  unfold Engine.candidacy
  cases stored : engine.pending[view]? with
  | none => exact Certificate.isBallot_blank view _
  | some certificate => exact balloted view certificate stored

structure Retains (before after : Engine) : Prop where
  roster : after.replicas = before.replicas
  onward : before.view ≤ after.view
  balloted : before.Balloted → after.Balloted
  counted : ∀ sender view : Int, before.Counts sender view → after.Counts sender view

namespace Retains

theorem refl (engine : Engine) : engine.Retains engine :=
  ⟨rfl, Int.le_refl _, fun balloted => balloted, fun _ _ counted => counted⟩

theorem trans {first second third : Engine} (earlier : first.Retains second)
    (later : second.Retains third) : first.Retains third where
  roster := later.roster.trans earlier.roster
  onward := Int.le_trans earlier.onward later.onward
  balloted := fun balloted => later.balloted (earlier.balloted balloted)
  counted := fun sender view counted =>
    later.counted sender view (earlier.counted sender view counted)

/-- Timers, and what was attempted, play no part in what is kept. -/
theorem of_agree {before after : Engine} (roster : after.replicas = before.replicas)
    (view : after.view = before.view) (pending : after.pending = before.pending) :
    before.Retains after where
  roster := roster
  onward := Int.le_of_eq view.symm
  balloted := by
    intro balloted
    rw [Balloted, pending]
    exact balloted
  counted := by
    intro sender key counted
    rw [Counts, Engine.candidacy, pending, view]
    exact counted

end Retains

section Changes

variable (engine : Engine)

theorem candidacy_gather (sender view key : Int) :
    (engine.gather view ⟨sender, view⟩).candidacy key =
      if key = view then (engine.candidacy view).add ⟨sender, view⟩
      else engine.candidacy key := by
  rw [candidacy, gather, Table.getElem?_insert]
  split <;> rfl

theorem counts_gather (sender view : Int) :
    (engine.gather view ⟨sender, view⟩).Counts sender view := by
  right
  rw [candidacy_gather, if_pos rfl, Certificate.voters_add_vote]
  exact Finset.mem_insert_self _ _

theorem retains_gather (sender view : Int) :
    engine.Retains (engine.gather view ⟨sender, view⟩) where
  roster := rfl
  onward := Int.le_refl _
  balloted := by
    intro balloted key certificate stored
    rw [gather, Table.getElem?_insert] at stored
    split at stored
    · next same =>
        rw [same, ← Option.some.inj stored]
        exact (balloted.candidacy view).add trivial
    · exact balloted key certificate stored
  counted := by
    rintro voter key (passed | voted)
    · exact .inl passed
    · right
      rw [candidacy_gather]
      split
      · next same =>
          rw [Certificate.voters_add_vote]
          exact Finset.mem_insert_of_mem (same ▸ voted)
      · exact voted

theorem retains_propose (view : Int) : engine.Retains (engine.propose view) :=
  (engine.retains_gather engine.self view).trans (.of_agree rfl rfl rfl)

theorem retains_install (now view : Int) (certificate : Certificate)
    (later : engine.view < view) : engine.Retains (engine.install now view certificate).1 where
  roster := seat_replicas (engine.install_seat now view certificate)
  onward := by
    rw [install_view]
    exact Int.le_of_lt later
  balloted := by
    intro balloted key pending stored
    rw [install_pending, Table.getElem?_dropThrough] at stored
    split at stored
    · exact balloted key pending stored
    · cases stored
  counted := by
    intro sender key counted
    by_cases passed : key ≤ view
    · left
      rw [install_view]
      exact passed
    · rcases counted with earlier | voted
      · exact absurd (Int.le_trans earlier (Int.le_of_lt later)) passed
      · right
        rw [candidacy, install_pending, Table.getElem?_dropThrough, if_pos (Int.not_le.1 passed)]
        exact voted

theorem retains_settle (halts : Int → Bool) (now view : Int) (later : engine.view < view) :
    engine.Retains (engine.settle halts now view).engine := by
  rcases settle_cases engine halts now view with
    ⟨same, -⟩ | ⟨certificate, -, installed, -⟩
  · rw [same]
    exact .refl engine
  · rw [installed]
    exact engine.retains_install now view certificate later

end Changes

/-! ### Calls -/

section Calls

variable (engine : Engine) (halts : Int → Bool) (now : Int)

theorem retains_progressTimeout : engine.Retains (engine.progressTimeout halts now).engine := by
  unfold progressTimeout
  split
  · exact .of_agree rfl rfl rfl
  · have proposed := engine.retains_propose (engine.view + 1)
    have rearmed : (engine.propose (engine.view + 1)).Retains
        ((engine.propose (engine.view + 1)).rearm now) := .of_agree rfl rfl rfl
    have settled := retains_settle ((engine.propose (engine.view + 1)).rearm now) halts now
      (engine.view + 1) (Int.lt_succ engine.view)
    exact (proposed.trans rearmed).trans settled

theorem receiveViewChange_gathers (sender view : Int) :
    (engine.receiveViewChange halts now sender view).engine = engine ∧
        (¬ engine.knows sender = true ∨ view ≤ engine.view ∨
          ¬ (engine.candidacy view).learnsFrom ⟨sender, view⟩ = true) ∨
      (engine.gather view ⟨sender, view⟩).Retains
        (engine.receiveViewChange halts now sender view).engine := by
  by_cases ignored : ¬ engine.knows sender = true ∨ view ≤ engine.view ∨
      ¬ (engine.candidacy view).learnsFrom ⟨sender, view⟩ = true
  · exact .inl ⟨(receiveViewChange_of_ignored ignored).1, ignored⟩
  · right
    simp only [not_or, not_not] at ignored
    obtain ⟨known, newer, learns⟩ := ignored
    unfold receiveViewChange
    rw [if_neg (by simp [known]), if_neg newer, if_neg (by simp [learns])]
    have later : engine.view < view := Int.not_le.1 newer
    split
    · exact (retains_propose _ view).trans (retains_settle _ halts now view later)
    · exact retains_settle _ halts now view later

theorem retains_receive (envelope : Envelope) :
    engine.Retains (engine.receive halts now envelope).engine := by
  obtain ⟨sender, message⟩ := envelope
  cases message with
  | viewChange view =>
      change engine.Retains (engine.receiveViewChange halts now sender view).engine
      rcases engine.receiveViewChange_gathers halts now sender view with ⟨same, -⟩ | gathers
      · rw [same]
        exact .refl engine
      · exact (engine.retains_gather sender view).trans gathers
  | viewProof view attestations =>
      change engine.Retains (engine.receiveViewProof now sender view attestations).engine
      rcases @receiveViewProof_cases engine now sender view attestations with
        ⟨⟨after, -⟩, -⟩ | ⟨⟨after, -⟩, -⟩ | ⟨⟨after, -⟩, -, -, later⟩
      · rw [after]
        exact .refl engine
      · rw [after]
        exact .of_agree rfl rfl rfl
      · rw [after]
        exact engine.retains_install now view _ later

theorem retains_respond (visit : Visit) : engine.Retains (engine.respond visit).engine := by
  obtain ⟨now, halts, call⟩ := visit
  cases call with
  | start => exact .of_agree rfl rfl rfl
  | adjust timers => exact .of_agree rfl rfl rfl
  | progressTimeout => exact engine.retains_progressTimeout halts now
  | proofTimeout =>
      obtain ⟨timers, retimed⟩ := engine.proofTimeout_retimes now
      change engine.Retains (engine.proofTimeout now).engine
      rw [retimed]
      exact .of_agree rfl rfl rfl
  | receive envelope => exact engine.retains_receive halts now envelope

theorem retains_visited (visits : List Visit) : engine.Retains (engine.visited visits) := by
  induction visits generalizing engine with
  | nil => exact .refl engine
  | cons visit rest ih => exact (engine.retains_respond visit).trans (ih _)

end Calls

theorem balloted_visited {replicas : Nat} (position : Fin replicas) (timers : TimerPair)
    (visits : List Visit) : ((ofPosition position timers).visited visits).Balloted := by
  apply (retains_visited _ visits).balloted
  intro view certificate stored
  simp [ofPosition] at stored

/-! ### Spent messages -/

/-- Nothing can come of a message any more, except that a proof may show its leader alive. -/
def Spent (engine : Engine) (envelope : Envelope) : Prop :=
  ¬ engine.knows envelope.sender = true ∨
    match envelope.message with
    | .viewChange view => engine.Counts envelope.sender view
    | .viewProof view attestations =>
        ¬ Attestation.quorumFor view attestations engine.replicas = true ∨ view ≤ engine.view

/-- A message is spent once it is heard, even if the watcher halts the replica on account of it. -/
theorem spent_receive {engine : Engine} (balloted : engine.Balloted) (halts : Int → Bool)
    (now : Int) (envelope : Envelope) :
    (engine.receive halts now envelope).engine.Spent envelope := by
  obtain ⟨sender, message⟩ := envelope
  have roster := (engine.retains_receive halts now ⟨sender, message⟩).roster
  by_cases known : engine.knows sender = true
  · right
    cases message with
    | viewChange view =>
        change (engine.receiveViewChange halts now sender view).engine.Counts sender view
        rcases engine.receiveViewChange_gathers halts now sender view with
          ⟨same, unknown | stale | nothingNew⟩ | gathers
        · exact absurd known unknown
        · rw [same]
          exact .inl stale
        · rw [same]
          rw [(balloted.candidacy view).learnsFrom_iff, not_not] at nothingNew
          exact .inr nothingNew
        · exact gathers.counted sender view (engine.counts_gather sender view)
    | viewProof view attestations =>
        by_cases quorum : Attestation.quorumFor view attestations engine.replicas = true
        · exact .inr (view_receive_proof known quorum)
        · left
          rw [roster]
          exact quorum
  · left
    rw [knows, roster]
    exact known

theorem Spent.retained {before after : Engine} {envelope : Envelope}
    (spent : before.Spent envelope) (retains : before.Retains after) : after.Spent envelope := by
  obtain ⟨sender, message⟩ := envelope
  rcases spent with unknown | rest
  · left
    rw [knows, retains.roster]
    exact unknown
  · right
    cases message with
    | viewChange view => exact retains.counted sender view rest
    | viewProof view attestations =>
        rcases rest with invalid | passed
        · left
          rw [retains.roster]
          exact invalid
        · exact .inr (Int.le_trans passed retains.onward)

theorem Spent.receive {engine : Engine} {envelope : Envelope} (spent : engine.Spent envelope)
    (balloted : engine.Balloted) (halts : Int → Bool) (now : Int) :
    (engine.receive halts now envelope).events = [] ∧
      match envelope.message with
      | .viewChange _ => (engine.receive halts now envelope).engine = engine
      | .viewProof _ _ =>
          (engine.receive halts now envelope).engine = engine ∨
            (engine.receive halts now envelope).engine = engine.rearm now := by
  obtain ⟨sender, message⟩ := envelope
  cases message with
  | viewChange view =>
      have ignored : ¬ engine.knows sender = true ∨ view ≤ engine.view ∨
          ¬ (engine.candidacy view).learnsFrom ⟨sender, view⟩ = true := by
        rcases spent with unknown | passed | voted
        · exact .inl unknown
        · exact .inr (.inl passed)
        · refine .inr (.inr ?_)
          rw [(balloted.candidacy view).learnsFrom_iff, not_not]
          exact voted
      exact (receiveViewChange_of_ignored ignored).symm
  | viewProof view attestations =>
      change (engine.receiveViewProof now sender view attestations).events = [] ∧
        ((engine.receiveViewProof now sender view attestations).engine = engine ∨
          (engine.receiveViewProof now sender view attestations).engine = engine.rearm now)
      rcases @receiveViewProof_cases engine now sender view attestations with
        ⟨⟨after, events⟩, -⟩ | ⟨⟨after, events⟩, -⟩ | ⟨-, known, quorum, later⟩
      · exact ⟨events, .inl after⟩
      · exact ⟨events, .inr after⟩
      · rcases spent with unknown | invalid | passed
        · exact absurd known unknown
        · exact absurd quorum invalid
        · exact absurd later (Int.not_lt.2 passed)

/-- Whatever a replica has gone through before it heard a message and since then, halted calls
included: when the message comes again the replica does nothing in view of others. A view change
leaves it as it is, and a proof may set its progress timer anew and does nothing else. -/
theorem nothing_comes_of_redelivery {replicas : Nat} (position : Fin replicas)
    (timers : TimerPair) (before after : List Visit) (now again : Int)
    (halts haltsAgain : Int → Bool) (envelope : Envelope) :
    let engine := (ofPosition position timers).visited
      (before ++ ⟨now, halts, .receive envelope⟩ :: after)
    let step := engine.receive haltsAgain again envelope
    step.events = [] ∧
      match envelope.message with
      | .viewChange _ => step.engine = engine
      | .viewProof _ _ =>
          step.engine = engine ∨
            step.engine = { engine with timers := engine.timers.resetProgress again } := by
  intro engine step
  have balloted : engine.Balloted := balloted_visited position timers _
  have spent : engine.Spent envelope := by
    have heard := spent_receive (balloted_visited position timers before) halts now envelope
    have since := heard.retained (retains_visited _ after)
    change ((ofPosition position timers).visited
      (before ++ ⟨now, halts, .receive envelope⟩ :: after)).Spent envelope
    rw [visited_append]
    exact since
  exact spent.receive balloted haltsAgain again

/-- Replica 0 of 3 is halted with a quorum for view 1 in hand, and the vote that made the quorum
comes again: the installation is not taken up. -/
example :
    let engine := (ofPosition (0 : Fin 3) ⟨100, 30, by decide, by decide, {}, {}⟩).visited
      [⟨0, (· = 1), .start⟩, ⟨5, (· = 1), .receive ⟨2, .viewChange 1⟩⟩]
    engine.view = 0 ∧ (engine.candidacy 1).isValid 3 = true ∧
      engine.receive neverHalts 6 ⟨2, .viewChange 1⟩ = { engine } := by
  decide +kernel

end Engine

end ViewSync
