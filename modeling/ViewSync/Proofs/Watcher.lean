import ViewSync.Proofs.EventLog
import ViewSync.Proofs.Timekeeping

/-!
What the watcher changes.

A replica that is watched does, event for event, what it would do if it were not, until it is
halted. The watcher sees every quorum before anything else of the installation that follows it. So
if a step is not halted he has been content with all of its quorums, and if it is halted the quorum
is the last that has happened, nothing has been announced or installed, and whatever has happened
would have happened anyway.
-/

namespace ViewSync

open Cluster (neverHalts)

def Outcome.halt? : Outcome → Option Int
  | .settled _ => none
  | .halted view => some view

namespace Engine

/-- What becomes of a step under a watcher, given what would become of it without him. -/
inductive Watched (halts : Int → Bool) (calm step : Step) : Prop
  | passed (engine : step.engine = calm.engine) (events : step.events = calm.events)
      (settled : step.outcome.halt? = none)
      (content : ∀ view, .quorumCollected view ∈ step.events → halts view = false)
  | halted {view : Int} (outcome : step.outcome.halt? = some view) (halting : halts view = true)
      (begins : step.events <+: calm.events) (quiet : Quiet step.events)
      (last : ∃ first, step.events = first ++ [.quorumCollected view] ∧
        ∀ other, .quorumCollected other ∉ first)

theorem Quiet.not_installed {events : List Event} (quiet : Quiet events) (view leader : Int) :
    .viewInstalled view leader ∉ events := by
  intro installed
  have seen : installs events = true := List.any_eq_true.2 ⟨_, installed, rfl⟩
  rw [quiet.1] at seen
  cases seen

theorem Quiet.not_announced {events : List Event} (quiet : Quiet events) (view : Int)
    (attestations : List Attestation) : .broadcast (.viewProof view attestations) ∉ events := by
  intro announced
  have seen : announces events = true := List.any_eq_true.2 ⟨_, announced, rfl⟩
  rw [quiet.2] at seen
  cases seen

theorem Quiet.installations_eq_nil {events : List Event} (quiet : Quiet events) :
    installations events = [] := by
  apply List.eq_nil_iff_forall_not_mem.2
  rintro ⟨view, leader⟩ listed
  exact quiet.not_installed view leader (mem_installations.1 listed)

section Steps

variable {engine : Engine} {halts : Int → Bool} {now view : Int}

theorem quorum_notMem_install (engine : Engine) (now view : Int) (certificate : Certificate)
    (other : Int) : .quorumCollected other ∉ (engine.install now view certificate).2 := by
  rw [install_eq]
  split <;> simp

theorem settle_watched (engine : Engine) (halts : Int → Bool) (now view : Int) :
    Watched halts (engine.settle neverHalts now view) (engine.settle halts now view) := by
  unfold settle
  cases stored : engine.pending[view]? with
  | none => exact .passed rfl rfl rfl fun _ seen => absurd seen List.not_mem_nil
  | some certificate =>
      by_cases valid : certificate.isValid engine.replicas = true
      · by_cases halting : halts view = true
        · simp only [valid, halting, neverHalts, if_true, Bool.false_eq_true, if_false]
          exact .halted rfl halting ⟨_, rfl⟩ ⟨rfl, rfl⟩ ⟨[], rfl, fun _ => List.not_mem_nil⟩
        · simp only [valid, halting, neverHalts, if_true, Bool.false_eq_true, if_false]
          refine .passed rfl rfl rfl ?_
          intro other seen
          rcases List.mem_cons.1 seen with same | later
          · cases same
            exact Bool.not_eq_true _ ▸ halting
          · exact absurd later (quorum_notMem_install _ _ _ _ _)
      · simp only [valid, Bool.false_eq_true, if_false]
        exact .passed rfl rfl rfl fun _ seen => absurd seen List.not_mem_nil

theorem Watched.vote_first {calm step : Step} (watched : Watched halts calm step) (view : Int) :
    Watched halts { calm with events := .broadcast (.viewChange view) :: calm.events }
      { step with events := .broadcast (.viewChange view) :: step.events } := by
  cases watched with
  | passed engine events settled content =>
      refine .passed engine (congrArg (_ :: ·) events) settled ?_
      intro other seen
      rcases List.mem_cons.1 seen with vote | later
      · cases vote
      · exact content other later
  | halted outcome halting begins quiet last =>
      obtain ⟨first, same, before⟩ := last
      refine .halted outcome halting (List.cons_prefix_cons.2 ⟨rfl, begins⟩) quiet
        ⟨.broadcast (.viewChange view) :: first, congrArg (_ :: ·) same, ?_⟩
      intro other seen
      rcases List.mem_cons.1 seen with vote | earlier
      · cases vote
      · exact before other earlier

theorem receiveViewChange_watched (engine : Engine) (halts : Int → Bool) (now sender view : Int) :
    Watched halts (engine.receiveViewChange neverHalts now sender view)
      (engine.receiveViewChange halts now sender view) := by
  unfold receiveViewChange
  split
  · exact .passed rfl rfl rfl fun _ seen => absurd seen List.not_mem_nil
  · split
    · exact .passed rfl rfl rfl fun _ seen => absurd seen List.not_mem_nil
    · split
      · exact .passed rfl rfl rfl fun _ seen => absurd seen List.not_mem_nil
      · dsimp only
        split
        · exact (settle_watched _ halts now view).vote_first view
        · exact settle_watched _ halts now view

theorem receiveViewProof_watched (engine : Engine) (halts : Int → Bool) (now sender view : Int)
    (attestations : List Attestation) :
    Watched halts (engine.receiveViewProof now sender view attestations)
      (engine.receiveViewProof now sender view attestations) := by
  refine .passed rfl rfl ?_ ?_
  · unfold receiveViewProof
    split
    · rfl
    · split
      · rfl
      · split <;> rfl
  · intro other seen
    rcases @receiveViewProof_cases engine now sender view attestations with
      ⟨⟨-, events⟩, -⟩ | ⟨⟨-, events⟩, -⟩ | ⟨⟨-, events⟩, -⟩
    · rw [events] at seen
      exact absurd seen List.not_mem_nil
    · rw [events] at seen
      exact absurd seen List.not_mem_nil
    · rw [events] at seen
      exact absurd seen (quorum_notMem_install _ _ _ _ _)

theorem receive_watched (engine : Engine) (halts : Int → Bool) (now : Int) (envelope : Envelope) :
    Watched halts (engine.receive neverHalts now envelope) (engine.receive halts now envelope) := by
  obtain ⟨sender, message⟩ := envelope
  cases message with
  | viewChange view => exact engine.receiveViewChange_watched halts now sender view
  | viewProof view attestations =>
      exact engine.receiveViewProof_watched halts now sender view attestations

theorem progressTimeout_watched (engine : Engine) (halts : Int → Bool) (now : Int) :
    Watched halts (engine.progressTimeout neverHalts now) (engine.progressTimeout halts now) := by
  unfold progressTimeout
  split
  · exact .passed rfl rfl rfl fun _ seen => absurd seen List.not_mem_nil
  · exact (settle_watched _ halts now _).vote_first _

end Steps

/-! ### Firing timers and hearing messages -/

def Firing.step (firing : Firing) : Step where
  engine := firing.engine
  events := firing.events
  outcome := firing.progress.getD (.settled .accepted)

inductive Act
  | fire (now : Int)
  | hear (now : Int) (envelope : Envelope)
deriving DecidableEq, Repr

def enact (engine : Engine) (halts : Int → Bool) : Act → Step
  | .fire now => (engine.fireDue halts true now).step
  | .hear now envelope => engine.receive halts now envelope

section Acts

variable {engine : Engine} {halts : Int → Bool} {now : Int} {act : Act}

theorem halt?_of_not_halted {progress : Option Outcome}
    (settled : ∀ view, progress ≠ some (.halted view)) :
    (progress.getD (.settled .accepted)).halt? = none := by
  cases progress with
  | none => rfl
  | some outcome =>
      cases outcome with
      | settled verdict => rfl
      | halted view => exact absurd rfl (settled view)

theorem halted_of_halt? {outcome : Outcome} {view : Int} (halted : outcome.halt? = some view) :
    outcome = .halted view := by
  cases outcome with
  | settled verdict => cases halted
  | halted other => exact congrArg Outcome.halted (Option.some.inj halted)

theorem fireProgress_watched (engine : Engine) (halts : Int → Bool) (now : Int) :
    Watched halts (engine.fireProgress neverHalts now).step
      (engine.fireProgress halts now).step := by
  unfold fireProgress
  dsimp only
  split
  · exact progressTimeout_watched _ halts now
  · exact .passed rfl rfl rfl fun _ seen => absurd seen List.not_mem_nil

theorem fireDue_watched (engine : Engine) (halts : Int → Bool) (now : Int) :
    Watched halts (engine.fireDue neverHalts true now).step
      (engine.fireDue halts true now).step := by
  obtain ⟨calmEngine, calmEvents⟩ := @fireDue_eq engine neverHalts now Cluster.neverHalts_calm true
  cases engine.fireProgress_watched halts now with
  | passed sameEngine sameEvents settled content =>
      have notHalted : ∀ view, (engine.fireProgress halts now).progress ≠ some (.halted view) := by
        intro view halted
        have outcome : (engine.fireProgress halts now).step.outcome = .halted view := by
          rw [Firing.step, halted]
          rfl
        rw [outcome] at settled
        cases settled
      obtain ⟨after, events, progress⟩ := fireDue_of_not_halted true notHalted
      change (engine.fireProgress halts now).engine =
        (engine.fireProgress neverHalts now).engine at sameEngine
      change (engine.fireProgress halts now).events =
        (engine.fireProgress neverHalts now).events at sameEvents
      refine .passed ?_ ?_ ?_ ?_
      · exact (after.trans (by rw [sameEngine])).trans calmEngine.symm
      · exact (events.trans (by rw [sameEngine, sameEvents])).trans calmEvents.symm
      · exact (congrArg (fun asked => (asked.getD (.settled .accepted)).halt?) progress).trans
          (halt?_of_not_halted notHalted)
      · intro view seen
        rw [Firing.step, events] at seen
        rcases List.mem_append.1 seen with early | late
        · exact content view early
        · cases eq_of_mem_fireProof late
  | @halted view outcome halting begins quiet last =>
      have fired : (engine.fireProgress halts now).progress = some (.halted view) := by
        have halted := halted_of_halt? outcome
        change (engine.fireProgress halts now).progress.getD _ = _ at halted
        cases asked : (engine.fireProgress halts now).progress with
        | none =>
            rw [asked] at halted
            cases halted
        | some found =>
            rw [asked] at halted
            exact congrArg some halted
      rw [fireDue_of_halted true fired]
      refine .halted outcome halting ?_ quiet last
      change _ <+: (engine.fireDue neverHalts true now).events
      rw [calmEvents]
      exact begins.trans (List.prefix_append _ _)

theorem enact_watched (engine : Engine) (halts : Int → Bool) (act : Act) :
    Watched halts (engine.enact neverHalts act) (engine.enact halts act) := by
  cases act with
  | fire now => exact engine.fireDue_watched halts now
  | hear now envelope => exact engine.receive_watched halts now envelope

/-! ### What an act leads to -/

theorem enact_seat (engine : Engine) (act : Act) :
    (engine.enact neverHalts act).engine.seat = engine.seat := by
  cases act with
  | fire now => exact fireDue_seat Cluster.neverHalts_calm
  | hear now envelope => exact receive_seat Cluster.neverHalts_calm envelope

theorem WellKept.enact {evidence : Evidence} (electoral : evidence.Electoral engine.replicas)
    (kept : engine.WellKept evidence)
    (admitted : ∀ now envelope, act = .hear now envelope →
      evidence.Admits engine.replicas envelope)
    (own : ∀ view, .broadcast (.viewChange view) ∈ (engine.enact neverHalts act).events →
      evidence.vote engine.self view) :
    (engine.enact neverHalts act).engine.WellKept evidence ∧
      ∀ message, .broadcast message ∈ (engine.enact neverHalts act).events →
        evidence.Sanctions engine.self message := by
  cases act with
  | fire now => exact kept.fireDue electoral Cluster.neverHalts_calm own
  | hear now envelope =>
      exact kept.receive electoral Cluster.neverHalts_calm (admitted now envelope rfl) own

def Act.target (act : Act) (engine : Engine) : Int :=
  match act with
  | .fire _ => engine.view + 1
  | .hear _ envelope => envelope.message.view

theorem towards_enact (engine : Engine) (act : Act) :
    engine.Towards (engine.enact neverHalts act).engine (engine.enact neverHalts act).events
      (act.target engine) := by
  cases act with
  | fire now => exact towards_fireDue Cluster.neverHalts_calm
  | hear now envelope => exact towards_receive Cluster.neverHalts_calm envelope

theorem view_ne_last_of_proposal {view : Int}
    (proposed : .broadcast (.viewChange view) ∈
      (engine.enact neverHalts (.fire now)).events) : engine.view ≠ maxView := by
  intro last
  change _ ∈ (engine.fireDue neverHalts true now).events at proposed
  rw [(fireDue_eq Cluster.neverHalts_calm true).2, List.mem_append] at proposed
  rcases proposed with early | late
  · by_cases due : engine.timers.progress.isDue now = true
    · rw [(fireProgress_of_due due).2.1, (progressTimeout_of_last last).2] at early
      exact absurd early List.not_mem_nil
    · rw [(fireProgress_of_not_due due).2.1] at early
      exact absurd early List.not_mem_nil
  · cases eq_of_mem_fireProof late

theorem leads_of_mem_fireProof {event : Event}
    (happened : event ∈ (engine.fireProof true now).events) :
    leaderOf engine.view engine.replicas = engine.self := by
  by_contra follows
  by_cases due : engine.timers.proof.isDue now = true
  · rw [(fireProof_of_due due).2, (proofTimeout_of_silent (.inl follows)).2] at happened
    exact absurd happened List.not_mem_nil
  · rw [(fireProof_of_not_due due).2] at happened
    exact absurd happened List.not_mem_nil

/-- An act gives its account of one view, and a leader that asks its timers may announce its view
after that. Without votes a view is installed only on a proof that is heard. -/
theorem enact_accounts (started : 0 ≤ engine.view) (act : Act) :
    ∃ view votes collects first later,
      (engine.enact neverHalts act).events = first ++ later ∧
      engine.Accounts (engine.enact neverHalts act).engine first view votes collects ∧
      (∀ event ∈ later, ∃ attestations,
        event = .broadcast
          (.viewProof (engine.enact neverHalts act).engine.view attestations) ∧
        leaderOf (engine.enact neverHalts act).engine.view engine.replicas = engine.self) ∧
      (collects = true ∨
        ∃ now sender attestations, act = .hear now ⟨sender, .viewProof view attestations⟩) := by
  have calm := Cluster.neverHalts_calm
  cases act with
  | fire now =>
      obtain ⟨after, events⟩ := @fireDue_eq engine neverHalts now calm true
      obtain ⟨votes, accounts⟩ : ∃ votes,
          engine.Accounts (engine.fireProgress neverHalts now).engine
            (engine.fireProgress neverHalts now).events (engine.view + 1) votes true := by
        by_cases due : engine.timers.progress.isDue now = true
        · rw [(fireProgress_of_due due).1, (fireProgress_of_due due).2.1]
          exact accounts_progressTimeout started calm
        · rw [(fireProgress_of_not_due due).1, (fireProgress_of_not_due due).2.1]
          exact ⟨false, accounts_stay engine engine rfl (Int.le_refl _) _ true⟩
      have sameSeat := @fireProgress_seat engine neverHalts now calm
      obtain ⟨timers, retimed⟩ := (engine.fireProgress neverHalts now).engine.fireProof_retimes now
      have same : (engine.enact neverHalts (.fire now)).engine =
          { (engine.fireProgress neverHalts now).engine with timers } := after.trans retimed
      refine ⟨engine.view + 1, votes, true, _, _, events, ?_, ?_, .inl rfl⟩
      · rw [same]
        exact ⟨accounts.told, accounts.ahead, accounts.grows, accounts.tried⟩
      · intro event happened
        have announced := eq_of_mem_fireProof happened
        have leads := leads_of_mem_fireProof happened
        rw [seat_replicas sameSeat, seat_self sameSeat] at leads
        rw [same]
        exact ⟨_, announced, leads⟩
  | hear now envelope =>
      obtain ⟨sender, message⟩ := envelope
      cases message with
      | viewChange view =>
          obtain ⟨votes, accounts, -⟩ :=
            @accounts_receiveViewChange engine neverHalts now started calm sender view
          exact ⟨view, votes, true, _, [], (List.append_nil _).symm, accounts,
            fun _ impossible => absurd impossible List.not_mem_nil, .inl rfl⟩
      | viewProof view attestations =>
          refine ⟨view, false, false, _, [], (List.append_nil _).symm,
            accounts_receiveViewProof started sender view attestations,
            fun _ impossible => absurd impossible List.not_mem_nil, .inr ?_⟩
          exact ⟨now, sender, attestations, rfl⟩

/-- A view that is installed is later and is the new view, and its quorum has been seen unless its
proof was heard. -/
theorem enact_installs (started : 0 ≤ engine.view) {view leader : Int}
    (installed : .viewInstalled view leader ∈ (engine.enact neverHalts act).events) :
    engine.view < view ∧ (engine.enact neverHalts act).engine.view = view ∧
      (.quorumCollected view ∈ (engine.enact neverHalts act).events ∨
        ∃ now sender attestations,
          act = .hear now ⟨sender, .viewProof view attestations⟩) := by
  obtain ⟨about, votes, collects, first, later, events, accounts, reminders, grounds⟩ :=
    enact_accounts started act
  rw [events] at installed ⊢
  rcases List.mem_append.1 installed with early | late
  · rw [accounts.told, installed_mem_account] at early
    obtain ⟨moved, rfl, -⟩ := early
    obtain ⟨reached, ahead⟩ := accounts.ahead (of_decide_eq_true moved)
    refine ⟨ahead, reached, grounds.imp ?_ id⟩
    intro collected
    apply List.mem_append_left
    rw [accounts.told, quorum_mem_account]
    exact ⟨moved, collected, rfl⟩
  · obtain ⟨attestations, same, -⟩ := reminders _ late
    cases same

theorem enact_moves (started : 0 ≤ engine.view)
    (moved : (engine.enact neverHalts act).engine.view ≠ engine.view) :
    ∃ leader, .viewInstalled (engine.enact neverHalts act).engine.view leader ∈
      (engine.enact neverHalts act).events := by
  obtain ⟨about, votes, collects, first, later, events, accounts, -⟩ :=
    enact_accounts started act
  obtain ⟨reached, -⟩ := accounts.ahead moved
  refine ⟨about % engine.replicas, ?_⟩
  rw [events, accounts.told, reached]
  apply List.mem_append_left
  exact installed_mem_account.2 ⟨decide_eq_true (reached ▸ moved), rfl, rfl⟩

theorem enact_announces (started : 0 ≤ engine.view) {view : Int}
    {attestations : List Attestation}
    (announced : .broadcast (.viewProof view attestations) ∈
      (engine.enact neverHalts act).events) :
    leaderOf view engine.replicas = engine.self ∧
      (engine.enact neverHalts act).engine.view = view := by
  obtain ⟨about, votes, collects, first, later, events, accounts, reminders, -⟩ :=
    enact_accounts started act
  rw [events] at announced
  rcases List.mem_append.1 announced with early | late
  · rw [accounts.told, proof_mem_account] at early
    obtain ⟨moved, leads, rfl, -⟩ := early
    obtain ⟨reached, ahead⟩ := accounts.ahead (of_decide_eq_true moved)
    rw [leaderOf_eq_emod (Int.le_of_lt (Int.lt_of_le_of_lt started ahead))]
    exact ⟨leads, reached⟩
  · obtain ⟨others, same, leads⟩ := reminders _ late
    cases same
    exact ⟨leads, rfl⟩

end Acts

end Engine

end ViewSync
