import ViewSync.Proofs.Justification
import ViewSync.Proofs.Succession

/-!
What a replica tells, and in which order.

A call tells of one view at most. If it votes for the view, it says so first. If it installs the
view, then the quorum comes before anything else of the installation, unless the installation rests
on a proof that was received, the leader's announcement comes next, and the installed view last.
So the log of a replica can be read off its two counters, the view and the last view attempted:
installed views go up as the view does, and a view that is joined is beyond all that were attempted.
-/

namespace ViewSync

theorem leaderOf_eq_emod {view : Int} (nonneg : 0 ≤ view) (replicas : Int) :
    leaderOf view replicas = view % replicas :=
  Int.tmod_eq_emod_of_nonneg nonneg

def Event.installation? : Event → Option (Int × Int)
  | .viewInstalled view leader => some (view, leader)
  | _ => none

def installations (events : List Event) : List (Int × Int) :=
  events.filterMap Event.installation?

theorem mem_installations {events : List Event} {view leader : Int} :
    (view, leader) ∈ installations events ↔ .viewInstalled view leader ∈ events := by
  rw [installations, List.mem_filterMap]
  constructor
  · rintro ⟨event, happened, reported⟩
    cases event with
    | broadcast message => cases reported
    | quorumCollected view => cases reported
    | viewInstalled view leader =>
        cases reported
        exact happened
  · intro happened
    exact ⟨_, happened, rfl⟩

/-- What a call tells of `view`: that the replica votes for it, if it does, and that it installs it,
if it does. The attestations are those of the certificate on which the view is installed. -/
def account (replicas self view : Int) (attestations : List Attestation)
    (votes collects installs : Bool) : List Event :=
  (if votes then [.broadcast (.viewChange view)] else []) ++
    if installs then
      (if collects then [.quorumCollected view] else []) ++
        ((if view % replicas = self then [.broadcast (.viewProof view attestations)] else []) ++
          [.viewInstalled view (view % replicas)])
    else []

def Call.countsVotes : Call → Bool
  | .receive ⟨_, .viewProof _ _⟩ => false
  | _ => true

section Account

variable {replicas self view : Int} {attestations : List Attestation}
  {votes collects installs : Bool}

theorem installations_account :
    installations (account replicas self view attestations votes collects installs) =
      if installs then [(view, view % replicas)] else [] := by
  unfold account
  by_cases leads : view % replicas = self
  · cases votes <;> cases collects <;> cases installs <;> simp [leads] <;> rfl
  · cases votes <;> cases collects <;> cases installs <;> simp [leads] <;> rfl

theorem vote_mem_account {other : Int} :
    .broadcast (.viewChange other) ∈
        account replicas self view attestations votes collects installs ↔
      votes = true ∧ other = view := by
  simp [account]

theorem quorum_mem_account {other : Int} :
    .quorumCollected other ∈ account replicas self view attestations votes collects installs ↔
      installs = true ∧ collects = true ∧ other = view := by
  simp [account]

theorem installed_mem_account {other leader : Int} :
    .viewInstalled other leader ∈
        account replicas self view attestations votes collects installs ↔
      installs = true ∧ other = view ∧ leader = view % replicas := by
  simp [account]

theorem proof_mem_account {other : Int} {listed : List Attestation} :
    .broadcast (.viewProof other listed) ∈
        account replicas self view attestations votes collects installs ↔
      installs = true ∧ view % replicas = self ∧ other = view ∧ listed = attestations := by
  simp [account]

theorem reaches_account {event : Event} {reached : Int}
    (told : event ∈ account replicas self view attestations votes collects installs)
    (reaches : event.Reaches reached) :
    reached = view ∧ (votes = true ∨ installs = true) := by
  cases reaches with
  | voted => exact (vote_mem_account.1 told).symm.imp id .inl
  | installed =>
      obtain ⟨installed, same, -⟩ := installed_mem_account.1 told
      exact ⟨same, .inr installed⟩

end Account

namespace Engine

structure Accounts (before after : Engine) (events : List Event) (view : Int)
    (votes collects : Bool) : Prop where
  told : events = account before.replicas before.self view after.installed.attestations votes
    collects (after.view ≠ before.view)
  ahead : after.view ≠ before.view → after.view = view ∧ before.view < view
  grows : before.attempted ≤ after.attempted
  tried : votes = true ∨ after.view ≠ before.view → view ≤ after.attempted

section Accounts

variable {engine after : Engine} {halts : Int → Bool} {now view : Int} {events : List Event}
  {votes collects : Bool} {certificate : Certificate}

theorem accounts_stay (engine after : Engine) (same : after.view = engine.view)
    (grows : engine.attempted ≤ after.attempted) (view : Int) (collects : Bool) :
    engine.Accounts after [] view false collects where
  told := by simp [account, same]
  ahead moved := absurd same moved
  grows := grows
  tried := by simp [same]

theorem accounts_install (started : 0 ≤ engine.view) (later : engine.view < view) :
    engine.Accounts (engine.install now view certificate).1
      (engine.install now view certificate).2 view false false where
  told := by
    have leader : leaderOf view engine.replicas = view % engine.replicas :=
      leaderOf_eq_emod (Int.le_of_lt (Int.lt_of_le_of_lt started later)) _
    rw [install_installed, install_view, install_eq, leader]
    split
    · next leads => simp [account, leads, Int.ne_of_gt later]
    · next follows => simp [account, follows, Int.ne_of_gt later]
  ahead _ := ⟨install_view _ _ _ _, later⟩
  grows := by
    rw [install_attempted]
    exact le_max_left _ _
  tried _ := by
    rw [install_attempted]
    exact le_max_right _ _

/-- Counting votes tells of an installation, beginning with the quorum, or nothing. -/
theorem accounts_tally (started : 0 ≤ engine.view) (later : engine.view < view) :
    engine.Accounts (engine.tally now view certificate (max engine.attempted view)).1
      (engine.tally now view certificate (max engine.attempted view)).2 view false true := by
  have reached : view ≤ max engine.attempted view := le_max_right _ _
  have raised := @tally_attempted engine now view certificate _ reached
  by_cases valid : certificate.isValid engine.replicas = true
  · have installs := @accounts_install (engine.hold view certificate (max engine.attempted view))
      now view certificate started later
    rw [tally_of_valid valid] at raised ⊢
    refine ⟨?_, installs.ahead, ?_, ?_⟩
    · simp only [installs.told]
      simp only [account, install_view, hold, Int.ne_of_gt later, ne_eq, not_false_eq_true,
        decide_true, if_true, Bool.false_eq_true, if_false, List.nil_append, List.cons_append]
      rfl
    · rw [raised]
      exact le_max_left _ _
    · intro _
      rw [raised]
      exact reached
  · rw [tally_of_not_valid valid]
    exact accounts_stay engine (engine.hold view certificate (max engine.attempted view)) rfl
      (le_max_left _ _) view true

theorem Accounts.vote_first (accounts : engine.Accounts after events view false collects)
    (reached : view ≤ after.attempted) :
    engine.Accounts after (.broadcast (.viewChange view) :: events) view true collects where
  told := by
    rw [accounts.told]
    rfl
  ahead := accounts.ahead
  grows := accounts.grows
  tried _ := reached

/-- A vote that is received may be joined in, which takes the replica beyond what it has
attempted. -/
theorem accounts_receiveViewChange (started : 0 ≤ engine.view)
    (calm : ∀ view, halts view = false) (sender view : Int) :
    ∃ votes, engine.Accounts (engine.receiveViewChange halts now sender view).engine
        (engine.receiveViewChange halts now sender view).events view votes true ∧
      (votes = true → engine.attempted < view) := by
  rcases @receiveViewChange_cases engine halts now sender view calm with
    ⟨⟨after, events⟩, -⟩ | ⟨⟨after, events⟩, -, newer, -⟩
  · rw [after, events]
    exact ⟨false, accounts_stay engine engine rfl (Int.le_refl _) view true, Bool.noConfusion⟩
  · rw [after, events]
    have counts := @accounts_tally engine now view (engine.pool sender view) started newer
    by_cases joins : engine.attempted < view
    · refine ⟨true, ?_, fun _ => joins⟩
      rw [joining, if_pos joins]
      apply counts.vote_first
      rw [tally_attempted (le_max_right _ _)]
      exact le_max_right _ _
    · refine ⟨false, ?_, Bool.noConfusion⟩
      rw [joining, if_neg joins]
      exact counts

theorem accounts_receiveViewProof (started : 0 ≤ engine.view) (sender view : Int)
    (attestations : List Attestation) :
    engine.Accounts (engine.receiveViewProof now sender view attestations).engine
      (engine.receiveViewProof now sender view attestations).events view false false := by
  rcases @receiveViewProof_cases engine now sender view attestations with
    ⟨⟨after, events⟩, -⟩ | ⟨⟨after, events⟩, -⟩ | ⟨⟨after, events⟩, -, -, later⟩
  · rw [after, events]
    exact accounts_stay engine engine rfl (Int.le_refl _) view false
  · rw [after, events]
    exact accounts_stay engine (engine.rearm now) rfl (Int.le_refl _) view false
  · rw [after, events]
    exact accounts_install started later

theorem accounts_progressTimeout (started : 0 ≤ engine.view)
    (calm : ∀ view, halts view = false) :
    ∃ votes, engine.Accounts (engine.progressTimeout halts now).engine
      (engine.progressTimeout halts now).events (engine.view + 1) votes true := by
  by_cases last : engine.view = maxView
  · obtain ⟨after, events⟩ := @progressTimeout_of_last engine halts now last
    rw [after, events]
    exact ⟨false, accounts_stay engine (engine.rearm now) rfl (Int.le_refl _) _ true⟩
  · obtain ⟨after, events⟩ := @progressTimeout_of_next engine halts now (calm _) last
    rw [after, events]
    have counts := @accounts_tally (engine.rearm now) now (engine.view + 1)
      ((engine.candidacy (engine.view + 1)).add ⟨engine.self, engine.view + 1⟩) started
      (Int.lt_succ engine.view)
    refine ⟨true, ?_⟩
    apply Accounts.vote_first
    · exact ⟨counts.told, counts.ahead, counts.grows, counts.tried⟩
    · rw [tally_attempted (le_max_right _ _)]
      exact le_max_right _ _

theorem accounts_answer (started : 0 ≤ engine.view) {call : Call} (other : call ≠ .proofTimeout) :
    ∃ view votes, engine.Accounts (engine.answer now call).engine
        (engine.answer now call).events view votes call.countsVotes ∧
      (call.countsVotes = false → votes = false) ∧
      ∀ envelope, call = .receive envelope → votes = true → engine.attempted < view := by
  have calm := Cluster.neverHalts_calm
  cases call with
  | start =>
      have stays := accounts_stay engine (engine.start now) rfl (Int.le_refl _) 0 true
      refine ⟨0, false, stays, fun _ => rfl, ?_⟩
      exact fun _ _ => Bool.noConfusion
  | adjust timers =>
      have stays := accounts_stay engine { engine with timers } rfl (Int.le_refl _) 0 true
      refine ⟨0, false, stays, fun _ => rfl, ?_⟩
      exact fun _ _ => Bool.noConfusion
  | progressTimeout =>
      obtain ⟨votes, accounts⟩ := @accounts_progressTimeout engine _ now started calm
      exact ⟨engine.view + 1, votes, accounts, Bool.noConfusion, fun _ => Call.noConfusion⟩
  | proofTimeout => exact absurd rfl other
  | receive envelope =>
      obtain ⟨sender, message⟩ := envelope
      cases message with
      | viewChange view =>
          obtain ⟨votes, accounts, joins⟩ :=
            @accounts_receiveViewChange engine _ now started calm sender view
          exact ⟨view, votes, accounts, Bool.noConfusion, fun _ _ => joins⟩
      | viewProof view attestations =>
          refine ⟨view, false, ?_, fun _ => rfl, fun _ _ => Bool.noConfusion⟩
          exact accounts_receiveViewProof started sender view attestations

/-- A proof timeout changes no counter and announces the installed view at most. -/
theorem proofTimeout_tells (engine : Engine) (now : Int) :
    ((engine.proofTimeout now).engine.view = engine.view ∧
        (engine.proofTimeout now).engine.attempted = engine.attempted) ∧
      ((engine.proofTimeout now).events = [] ∨ (engine.proofTimeout now).events =
        [.broadcast (.viewProof engine.view engine.installed.attestations)]) := by
  unfold proofTimeout
  split
  · exact ⟨⟨rfl, rfl⟩, .inr rfl⟩
  · exact ⟨⟨rfl, rfl⟩, .inl rfl⟩

end Accounts

end Engine

namespace Diary

/-- The log agrees with the counters: installed views go up to the view, and nothing beyond the
last attempt has been voted for or installed. -/
structure Logged (diary : Diary) : Prop where
  started : 0 ≤ diary.engine.view
  increasing : ((installations diary.history.done).map Prod.fst).Pairwise (· < ·)
  passed : ∀ installation ∈ installations diary.history.done,
    installation.1 ≤ diary.engine.view
  reached : ∀ event ∈ diary.history.done, ∀ view : Int, event.Reaches view →
    view ≤ diary.engine.attempted

theorem logged_opening {replicas : Nat} (position : Fin replicas) (timers : TimerPair) :
    (opening position timers).Logged where
  started := Int.le_refl 0
  increasing := List.Pairwise.nil
  passed _ listed := absurd listed List.not_mem_nil
  reached _ listed := absurd listed List.not_mem_nil

section Step

variable {diary : Diary} {after : Engine} {heard : List Envelope} {events : List Event}
  {view : Int} {votes collects : Bool}

theorem Logged.enter (logged : diary.Logged)
    (accounts : diary.engine.Accounts after events view votes collects) :
    (diary.enter after heard events).Logged := by
  have onward : diary.engine.view ≤ after.view := by
    by_cases same : after.view = diary.engine.view
    · exact Int.le_of_eq same.symm
    · have ahead := accounts.ahead same
      omega
  have listed : installations (diary.enter after heard events).history.done =
      installations diary.history.done ++
        if after.view ≠ diary.engine.view then [(view, view % diary.engine.replicas)] else [] := by
    change installations (diary.history.done ++ events) = _
    rw [installations, List.filterMap_append, accounts.told]
    change _ ++ installations (account _ _ _ _ _ _ _) = _
    rw [installations_account]
    simp only [decide_eq_true_eq]
    rfl
  refine ⟨Int.le_trans logged.started onward, ?_, ?_, ?_⟩
  · rw [listed]
    split
    · next moved =>
        rw [List.map_append, List.pairwise_append]
        refine ⟨logged.increasing, List.pairwise_singleton _ _, ?_⟩
        intro earlier before later last
        obtain ⟨installation, present, rfl⟩ := List.mem_map.1 before
        rw [List.mem_singleton.1 last]
        exact Int.lt_of_le_of_lt (logged.passed installation present) (accounts.ahead moved).2
    · rw [List.append_nil]
      exact logged.increasing
  · rw [listed]
    intro installation present
    rcases List.mem_append.1 present with earlier | last
    · exact Int.le_trans (logged.passed installation earlier) onward
    · split at last
      · next moved =>
          rw [List.mem_singleton.1 last]
          exact Int.le_of_eq (accounts.ahead moved).1.symm
      · exact absurd last List.not_mem_nil
  · intro event happened reached reaches
    rcases List.mem_append.1 happened with earlier | last
    · exact Int.le_trans (logged.reached event earlier reached reaches) accounts.grows
    · rw [accounts.told] at last
      obtain ⟨rfl, told⟩ := reaches_account last reaches
      exact accounts.tried (told.imp id of_decide_eq_true)

theorem Logged.call (logged : diary.Logged) (now : Int) (call : Call) :
    (diary.call now call).Logged := by
  by_cases proof : call = .proofTimeout
  · subst proof
    obtain ⟨⟨view, attempted⟩, told⟩ := diary.engine.proofTimeout_tells now
    have silent : ∀ event ∈ (diary.engine.proofTimeout now).events,
        event = .broadcast
          (.viewProof diary.engine.view diary.engine.installed.attestations) :=
      fun _ happened => Engine.eq_of_mem_proofTimeout happened
    have listed : installations (diary.call now .proofTimeout).history.done =
        installations diary.history.done := by
      change installations (diary.history.done ++ (diary.engine.proofTimeout now).events) = _
      rw [installations, List.filterMap_append]
      rcases told with none | announced
      · rw [none]
        exact List.append_nil _
      · rw [announced]
        exact List.append_nil _
    refine ⟨?_, ?_, ?_, ?_⟩
    · exact Int.le_trans logged.started (Int.le_of_eq view.symm)
    · rw [listed]
      exact logged.increasing
    · rw [listed]
      intro installation present
      exact Int.le_trans (logged.passed installation present) (Int.le_of_eq view.symm)
    · intro event happened reached reaches
      rcases List.mem_append.1 happened with earlier | last
      · exact Int.le_trans (logged.reached event earlier reached reaches)
          (Int.le_of_eq attempted.symm)
      · rw [silent event last] at reaches
        cases reaches
  · obtain ⟨view, votes, accounts, -⟩ :=
      @Engine.accounts_answer diary.engine now logged.started call proof
    exact logged.enter accounts

end Step

/-- The log of a replica that nobody halts. Whatever it has been called with before: the views it
has installed go up; the next call reports an installation when it changes the view, once and with
the right leader, and at no other time; a proof timeout announces the installed view at most, and
any other call gives its account of one view; the receipt of a proof tells of no votes; and a view
that is joined is beyond every view the replica has voted for or installed. -/
theorem log_follows_counters {replicas : Nat} (position : Fin replicas) (timers : TimerPair)
    (calls : List (Int × Call)) (now : Int) (call : Call) :
    let before := (opening position timers).after calls
    let step := before.engine.answer now call
    ((installations before.history.done).map Prod.fst).Pairwise (· < ·) ∧
    (installations step.events =
      if step.engine.view = before.engine.view then []
      else [(step.engine.view, step.engine.view % replicas)]) ∧
    (call = .proofTimeout → step.engine.view = before.engine.view ∧
      (step.events = [] ∨ step.events =
        [.broadcast (.viewProof before.engine.view before.engine.installed.attestations)])) ∧
    (call ≠ .proofTimeout → ∃ view votes,
      step.events = account replicas position.val view step.engine.installed.attestations votes
        call.countsVotes (step.engine.view ≠ before.engine.view) ∧
      (step.engine.view ≠ before.engine.view →
        step.engine.view = view ∧ before.engine.view < view)) ∧
    (∀ sender view attestations, call = .receive ⟨sender, .viewProof view attestations⟩ →
      ∀ other, .broadcast (.viewChange other) ∉ step.events ∧
        .quorumCollected other ∉ step.events) ∧
    ∀ envelope view, call = .receive envelope → .broadcast (.viewChange view) ∈ step.events →
      ∀ event ∈ before.history.done, ∀ reached, event.Reaches reached → reached < view := by
  intro before step
  have logged : before.Logged :=
    after_induction (fun _ now call logged => logged.call now call) calls _
      (logged_opening position timers)
  have faithful : before.Faithful := faithful_after position timers calls
  have place := place_after calls (opening position timers)
  have roster : before.engine.replicas = replicas := faithful.roster.trans place.1
  have self : before.engine.self = position.val := faithful.place.trans place.2
  refine ⟨logged.increasing, ?_⟩
  by_cases proof : call = .proofTimeout
  · subst proof
    obtain ⟨⟨view, -⟩, told⟩ := before.engine.proofTimeout_tells now
    change step.engine.view = before.engine.view at view
    refine ⟨?_, fun _ => ⟨view, told⟩, absurd rfl, fun _ _ _ => Call.noConfusion,
      fun _ _ => Call.noConfusion⟩
    rw [if_pos view]
    rcases told with none | announced
    · exact congrArg installations none
    · exact congrArg installations announced
  · obtain ⟨view, votes, accounts, received, joins⟩ :=
      @Engine.accounts_answer before.engine now logged.started call proof
    have told : step.events = account replicas position.val view
        step.engine.installed.attestations votes call.countsVotes
          (step.engine.view ≠ before.engine.view) := by
      rw [← roster, ← self]
      exact accounts.told
    refine ⟨?_, fun timeout => absurd timeout proof, fun _ => ⟨view, votes, told, accounts.ahead⟩,
      ?_, ?_⟩
    · rw [told, installations_account]
      by_cases same : step.engine.view = before.engine.view
      · simp [same]
      · have moved : step.engine.view = view := (accounts.ahead same).1
        rw [if_pos (decide_eq_true same), if_neg same, moved]
    · rintro sender proved attestations rfl other
      rw [told]
      refine ⟨fun voted => ?_, fun collected => ?_⟩
      · have impossible := (vote_mem_account.1 voted).1
        rw [received rfl] at impossible
        cases impossible
      · cases (quorum_mem_account.1 collected).2.1
    · intro envelope joined same voted event happened reached reaches
      rw [told] at voted
      obtain ⟨votesNow, rfl⟩ := vote_mem_account.1 voted
      exact Int.lt_of_le_of_lt (logged.reached event happened reached reaches)
        (joins envelope same votesNow)

/-- Replica 1 of 3 joins view 1, which it leads, and has its quorum at once. -/
example :
    ((opening (1 : Fin 3) ⟨100, 30, by decide, by decide, {}, {}⟩).engine.answer 5
        (.receive ⟨0, .viewChange 1⟩)).events =
      [.broadcast (.viewChange 1), .quorumCollected 1,
        .broadcast (.viewProof 1 [⟨0, 1⟩, ⟨1, 1⟩]), .viewInstalled 1 1] := by
  decide +kernel

end Diary

end ViewSync
