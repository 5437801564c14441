import ViewSync.Proofs.Transition

/-!
What a replica holds and why.

The state of a replica rests on evidence: on votes for what it gathers, and on a certificate for
what it has installed. What counts as evidence is left open here, so that one invariant serves both
a replica that hears from anyone and a replica of a cluster in which every vote was really cast.
Transitions keep the invariant when what arrives is admitted as evidence, and what they broadcast
is evidence again.
-/

namespace ViewSync

/-- What counts as a vote of a sender for a view, and as a certificate of a view. -/
structure Evidence where
  vote : Int → Int → Prop
  proof : Int → Certificate → Prop

namespace Evidence

structure Electoral (evidence : Evidence) (replicas : Int) : Prop where
  seated : ∀ sender view, evidence.vote sender view → 0 ≤ sender ∧ sender < replicas
  elects : ∀ (view : Int) (certificate : Certificate), 0 < view →
    certificate.IsBallot view (evidence.vote · view) →
    (certificate.voters.card : Int) = quorumSize replicas → evidence.proof view certificate

def Sanctions (evidence : Evidence) (sender : Int) : Message → Prop
  | .viewChange view => evidence.vote sender view
  | .viewProof view attestations =>
      ∃ certificate, evidence.proof view certificate ∧ attestations = certificate.attestations

def Admits (evidence : Evidence) (replicas : Int) (envelope : Envelope) : Prop :=
  0 ≤ envelope.sender → envelope.sender < replicas →
    match envelope.message with
    | .viewChange view => evidence.vote envelope.sender view
    | .viewProof view attestations =>
        0 < view → Attestation.quorumFor view attestations replicas = true →
          evidence.proof view (.ofList view attestations)

/-- What a replica may broadcast is admitted by whoever receives it. -/
theorem Sanctions.admits {evidence : Evidence} {sender : Int} {message : Message}
    (sanctioned : evidence.Sanctions sender message)
    (candid : ∀ view certificate, evidence.proof view certificate → certificate.view = view)
    (replicas : Int) : evidence.Admits replicas ⟨sender, message⟩ := by
  intro _ _
  cases message with
  | viewChange view => exact sanctioned
  | viewProof view attestations =>
      intro _ _
      obtain ⟨certificate, proved, rfl⟩ := sanctioned
      have sameView := candid view certificate proved
      rw [← sameView, Certificate.ofList_attestations, sameView]
      exact proved

end Evidence

namespace Engine

/-- All that is gathered lies between the installed view and the last one attempted and falls
short of a quorum, and the installed view has its certificate. -/
structure WellKept (evidence : Evidence) (engine : Engine) : Prop where
  started : 0 ≤ engine.view
  ordered : engine.view ≤ engine.attempted
  gathered : ∀ (key : Int) (certificate : Certificate),
    engine.pending[key]? = some certificate →
      engine.view < key ∧ key ≤ engine.attempted ∧
        certificate.IsBallot key (evidence.vote · key) ∧ certificate.voters.Nonempty ∧
          (certificate.voters.card : Int) < quorumSize engine.replicas
  justified : (engine.view = 0 ∧ engine.installed = .blank 0) ∨
    (0 < engine.view ∧ evidence.proof engine.view engine.installed)

namespace WellKept

variable {evidence : Evidence} {engine : Engine}

theorem mono {later : Evidence} (kept : engine.WellKept evidence)
    (votes : ∀ sender view, evidence.vote sender view → later.vote sender view)
    (proofs : ∀ view certificate, evidence.proof view certificate →
      later.proof view certificate) : engine.WellKept later where
  started := kept.started
  ordered := kept.ordered
  gathered key certificate stored := by
    obtain ⟨newer, attempted, ballot, voted, short⟩ := kept.gathered key certificate stored
    exact ⟨newer, attempted, ballot.imp fun sender => votes sender key, voted, short⟩
  justified := kept.justified.imp id fun proved => ⟨proved.1, proofs _ _ proved.2⟩

theorem timers (kept : engine.WellKept evidence) (timers : TimerPair) :
    ({ engine with timers } : Engine).WellKept evidence :=
  ⟨kept.started, kept.ordered, kept.gathered, kept.justified⟩

theorem fresh (engine : Engine) (timers : TimerPair) :
    ({ engine.fresh with timers } : Engine).WellKept evidence where
  started := Int.le_refl 0
  ordered := Int.le_refl 0
  gathered key certificate stored := by simp [Engine.fresh] at stored
  justified := .inl ⟨rfl, rfl⟩

theorem candidacy_of_unattempted (kept : engine.WellKept evidence) {view : Int}
    (unattempted : engine.attempted < view) : engine.candidacy view = .blank view := by
  unfold candidacy
  cases stored : engine.pending[view]? with
  | none => rfl
  | some certificate =>
      have attempted := (kept.gathered view certificate stored).2.1
      omega

theorem candidacy_ballot (kept : engine.WellKept evidence) (view : Int) :
    (engine.candidacy view).IsBallot view (evidence.vote · view) ∧
      ((engine.candidacy view).voters.card : Int) < quorumSize engine.replicas := by
  unfold candidacy
  cases stored : engine.pending[view]? with
  | none =>
      have positive := quorumSize_positive engine.roster_positive
      refine ⟨Certificate.isBallot_blank view _, ?_⟩
      rw [Option.getD_none, Certificate.voters_blank]
      simpa using positive
  | some certificate =>
      obtain ⟨-, -, ballot, -, short⟩ := kept.gathered view certificate stored
      exact ⟨ballot, short⟩

/-- One more vote is at most a quorum. -/
theorem candidacy_add (kept : engine.WellKept evidence) {sender view : Int}
    (voted : evidence.vote sender view) :
    ((engine.candidacy view).add ⟨sender, view⟩).IsBallot view (evidence.vote · view) ∧
      (((engine.candidacy view).add ⟨sender, view⟩).voters.card : Int) ≤
        quorumSize engine.replicas := by
  obtain ⟨ballot, short⟩ := kept.candidacy_ballot view
  refine ⟨ballot.add voted, ?_⟩
  rw [Certificate.voters_add_vote]
  have oneMore := Finset.card_insert_le sender (engine.candidacy view).voters
  omega

/-- A replica that joins adds two votes at once, but only to a certificate that was blank. -/
theorem pool_ballot (electoral : evidence.Electoral engine.replicas)
    (kept : engine.WellKept evidence) {sender view : Int} (voted : evidence.vote sender view)
    (own : engine.attempted < view → evidence.vote engine.self view) :
    (engine.pool sender view).IsBallot view (evidence.vote · view) ∧
      ((engine.pool sender view).voters.card : Int) ≤ quorumSize engine.replicas := by
  obtain ⟨ballot, most⟩ := kept.candidacy_add voted
  unfold pool
  by_cases joins : engine.attempted < view
  · rw [if_pos joins]
    refine ⟨ballot.add (own joins), ?_⟩
    rw [Certificate.voters_add_vote, Certificate.voters_add_vote, kept.candidacy_of_unattempted joins,
      Certificate.voters_blank]
    by_cases alone : engine.self = sender
    · have positive := quorumSize_positive engine.roster_positive
      simp only [alone, Finset.insert_idem]
      rw [Finset.card_insert_of_notMem (Finset.notMem_empty sender), Finset.card_empty]
      omega
    · have place := electoral.seated sender view voted
      have ownPlace := engine.seated
      have several := two_le_quorumSize (show 1 < engine.replicas by omega)
      have atMostTwo := Finset.card_le_two (a := engine.self) (b := sender)
      simpa using Int.le_trans (Int.ofNat_le.2 atMostTwo) several
  · rw [if_neg joins]
    exact ⟨ballot, most⟩

/-- Installing a view ends all gathering for it and the views before it. -/
theorem wellKept_install (started : 0 ≤ engine.view) {now view : Int} {certificate : Certificate}
    (ahead : ∀ (key : Int) (gathered : Certificate), view < key →
      engine.pending[key]? = some gathered →
        key ≤ engine.attempted ∧ gathered.IsBallot key (evidence.vote · key) ∧
          gathered.voters.Nonempty ∧
            (gathered.voters.card : Int) < quorumSize engine.replicas)
    (newer : engine.view < view) (proved : evidence.proof view certificate) :
    (engine.install now view certificate).1.WellKept evidence ∧
      ∀ message, .broadcast message ∈ (engine.install now view certificate).2 →
        evidence.Sanctions engine.self message := by
  have later : 0 < view := Int.lt_of_le_of_lt started newer
  have sameRoster := seat_replicas (engine.install_seat now view certificate)
  constructor
  · refine ⟨?_, ?_, ?_, ?_⟩
    · rw [install_view]
      exact Int.le_of_lt later
    · rw [install_view, install_attempted]
      exact le_max_right _ _
    · intro key gathered stored
      rw [install_pending, Table.getElem?_dropThrough] at stored
      split at stored
      · next after =>
          obtain ⟨tried, others, some, short⟩ := ahead key gathered after stored
          rw [sameRoster, install_view, install_attempted]
          exact ⟨after, Int.le_trans tried (le_max_left _ _), others, some, short⟩
      · cases stored
    · rw [install_view, install_installed]
      exact .inr ⟨later, proved⟩
  · intro message announced
    obtain ⟨-, rfl⟩ := (broadcast_mem_install engine now view certificate message).1 announced
    exact ⟨certificate, proved, rfl⟩

theorem install (kept : engine.WellKept evidence) {now view : Int} {certificate : Certificate}
    (newer : engine.view < view) (proved : evidence.proof view certificate) :
    (engine.install now view certificate).1.WellKept evidence ∧
      ∀ message, .broadcast message ∈ (engine.install now view certificate).2 →
        evidence.Sanctions engine.self message :=
  wellKept_install kept.started
    (fun key gathered _ stored => (kept.gathered key gathered stored).2) newer proved

theorem hold (kept : engine.WellKept evidence) {view attempted : Int} {certificate : Certificate}
    (newer : engine.view < view)
    (ballot : certificate.IsBallot view (evidence.vote · view))
    (voted : certificate.voters.Nonempty)
    (short : (certificate.voters.card : Int) < quorumSize engine.replicas)
    (raised : engine.attempted ≤ attempted) (reached : view ≤ attempted) :
    (engine.hold view certificate attempted).WellKept evidence where
  started := kept.started
  ordered := Int.le_trans kept.ordered raised
  gathered key gathered stored := by
    rw [Engine.hold, Table.getElem?_insert] at stored
    split at stored
    · next same =>
        cases stored
        rw [same]
        exact ⟨newer, reached, ballot, voted, short⟩
    · obtain ⟨ahead, tried, others, some, lacking⟩ := kept.gathered key gathered stored
      exact ⟨ahead, Int.le_trans tried raised, others, some, lacking⟩
  justified := kept.justified

theorem tally (electoral : evidence.Electoral engine.replicas)
    (kept : engine.WellKept evidence) {now view attempted : Int} {certificate : Certificate}
    (newer : engine.view < view)
    (ballot : certificate.IsBallot view (evidence.vote · view))
    (voted : certificate.voters.Nonempty)
    (most : (certificate.voters.card : Int) ≤ quorumSize engine.replicas)
    (raised : engine.attempted ≤ attempted) (reached : view ≤ attempted) :
    (engine.tally now view certificate attempted).1.WellKept evidence ∧
      ∀ message, .broadcast message ∈ (engine.tally now view certificate attempted).2 →
        evidence.Sanctions engine.self message := by
  have validIff := ballot.isValid_iff (fun sender => electoral.seated sender view)
    engine.roster_positive
  by_cases valid : certificate.isValid engine.replicas = true
  · -- the quorum is a bare one, since nobody holds a larger certificate
    have exactly : (certificate.voters.card : Int) = quorumSize engine.replicas :=
      Int.le_antisymm most (validIff.1 valid)
    have later : 0 < view := Int.lt_of_le_of_lt kept.started newer
    have proved := electoral.elects view certificate later ballot exactly
    have installs := @wellKept_install evidence (engine.hold view certificate attempted)
      kept.started now view certificate
    rw [tally_of_valid valid]
    obtain ⟨wellKept, announced⟩ := installs (by
      intro key gathered after stored
      rw [Engine.hold, Table.getElem?_insert, if_neg (Int.ne_of_gt after)] at stored
      obtain ⟨-, tried, others, some, short⟩ := kept.gathered key gathered stored
      exact ⟨Int.le_trans tried raised, others, some, short⟩) newer proved
    refine ⟨wellKept, ?_⟩
    intro message broadcast
    rcases List.mem_cons.1 broadcast with collected | announcement
    · cases collected
    · exact announced message announcement
  · have short : (certificate.voters.card : Int) < quorumSize engine.replicas :=
      Int.not_le.1 fun quorum => valid (validIff.2 quorum)
    rw [tally_of_not_valid valid]
    exact ⟨kept.hold newer ballot voted short raised reached,
      fun _ broadcast => absurd broadcast List.not_mem_nil⟩

theorem receiveViewChange (electoral : evidence.Electoral engine.replicas)
    (kept : engine.WellKept evidence) {halts : Int → Bool} (calm : ∀ view, halts view = false)
    {now sender view : Int}
    (admitted : evidence.Admits engine.replicas ⟨sender, .viewChange view⟩)
    (own : ∀ joined, .broadcast (.viewChange joined) ∈
      (engine.receiveViewChange halts now sender view).events → evidence.vote engine.self joined) :
    (engine.receiveViewChange halts now sender view).engine.WellKept evidence ∧
      ∀ message,
        .broadcast message ∈ (engine.receiveViewChange halts now sender view).events →
          evidence.Sanctions engine.self message := by
  rcases @receiveViewChange_cases engine halts now sender view calm with
    ⟨⟨after, events⟩, -⟩ | ⟨⟨after, events⟩, known, newer, -⟩
  · rw [after, events]
    exact ⟨kept, fun message broadcast => absurd broadcast List.not_mem_nil⟩
  · have place : 0 ≤ sender ∧ sender < engine.replicas := by
      simpa [knows] using known
    have voted : evidence.vote sender view := admitted place.1 place.2
    have ownVote : engine.attempted < view → evidence.vote engine.self view := by
      intro joins
      apply own
      rw [events, List.mem_append, broadcast_mem_joining]
      exact .inl ⟨joins, rfl⟩
    obtain ⟨ballot, most⟩ := kept.pool_ballot electoral voted ownVote
    have someone : (engine.pool sender view).voters.Nonempty := by
      refine ⟨sender, ?_⟩
      rw [voters_pool]
      split <;> simp
    obtain ⟨wellKept, announced⟩ := @tally evidence _ electoral kept now _ _ _ newer ballot
      someone most (le_max_left _ _) (le_max_right _ _)
    rw [after, events]
    refine ⟨wellKept, ?_⟩
    intro message broadcast
    rw [List.mem_append, broadcast_mem_joining] at broadcast
    rcases broadcast with ⟨joins, rfl⟩ | later
    · exact ownVote joins
    · exact announced message later

theorem receiveViewProof (kept : engine.WellKept evidence) {now sender view : Int}
    {attestations : List Attestation}
    (admitted : evidence.Admits engine.replicas ⟨sender, .viewProof view attestations⟩) :
    (engine.receiveViewProof now sender view attestations).engine.WellKept evidence ∧
      ∀ message,
        .broadcast message ∈ (engine.receiveViewProof now sender view attestations).events →
          evidence.Sanctions engine.self message := by
  have nothing : ∀ message : Message, Event.broadcast message ∈ ([] : List Event) →
      evidence.Sanctions engine.self message :=
    fun message broadcast => absurd broadcast List.not_mem_nil
  rcases @receiveViewProof_cases engine now sender view attestations with
    ⟨⟨after, events⟩, -⟩ | ⟨⟨after, events⟩, -⟩ | ⟨⟨after, events⟩, known, quorum, later⟩
  · rw [after, events]
    exact ⟨kept, nothing⟩
  · rw [after, events]
    exact ⟨kept.timers _, nothing⟩
  · have place : 0 ≤ sender ∧ sender < engine.replicas := by
      simpa [knows] using known
    have positive : 0 < view := Int.lt_of_le_of_lt kept.started later
    rw [after, events]
    exact kept.install later (admitted place.1 place.2 positive quorum)

/-- What arrives and is admitted leaves a replica well kept, and what the replica says in answer
is sanctioned, provided that its own votes count. -/
theorem receive (electoral : evidence.Electoral engine.replicas)
    (kept : engine.WellKept evidence) {halts : Int → Bool} (calm : ∀ view, halts view = false)
    {now : Int} {envelope : Envelope} (admitted : evidence.Admits engine.replicas envelope)
    (own : ∀ joined, .broadcast (.viewChange joined) ∈
      (engine.receive halts now envelope).events → evidence.vote engine.self joined) :
    (engine.receive halts now envelope).engine.WellKept evidence ∧
      ∀ message, .broadcast message ∈ (engine.receive halts now envelope).events →
        evidence.Sanctions engine.self message := by
  obtain ⟨sender, message⟩ := envelope
  cases message with
  | viewChange view => exact kept.receiveViewChange electoral calm admitted own
  | viewProof view attestations => exact kept.receiveViewProof admitted

theorem progressTimeout (electoral : evidence.Electoral engine.replicas)
    (kept : engine.WellKept evidence) {halts : Int → Bool} (calm : ∀ view, halts view = false)
    {now : Int}
    (own : ∀ proposed, .broadcast (.viewChange proposed) ∈
      (engine.progressTimeout halts now).events → evidence.vote engine.self proposed) :
    (engine.progressTimeout halts now).engine.WellKept evidence ∧
      ∀ message, .broadcast message ∈ (engine.progressTimeout halts now).events →
        evidence.Sanctions engine.self message := by
  by_cases last : engine.view = maxView
  · obtain ⟨after, events⟩ := @progressTimeout_of_last engine halts now last
    rw [after, events]
    exact ⟨kept.timers _, fun message broadcast => absurd broadcast List.not_mem_nil⟩
  · obtain ⟨after, events⟩ := @progressTimeout_of_next engine halts now (calm _) last
    have ownVote : evidence.vote engine.self (engine.view + 1) := by
      apply own
      rw [events]
      exact List.mem_cons_self
    obtain ⟨ballot, most⟩ := kept.candidacy_add ownVote
    have someone : ((engine.candidacy (engine.view + 1)).add
        ⟨engine.self, engine.view + 1⟩).voters.Nonempty := by
      refine ⟨engine.self, ?_⟩
      rw [Certificate.voters_add_vote]
      exact Finset.mem_insert_self _ _
    have waited : (engine.rearm now).WellKept evidence := kept.timers _
    have newer : (engine.rearm now).view < engine.view + 1 := Int.lt_succ engine.view
    have sameRoster : evidence.Electoral (engine.rearm now).replicas := electoral
    obtain ⟨wellKept, announced⟩ := @tally evidence _ sameRoster waited now _ _ _ newer ballot
      someone most (le_max_left _ _) (le_max_right _ _)
    rw [after, events]
    refine ⟨wellKept, ?_⟩
    intro message broadcast
    rcases List.mem_cons.1 broadcast with proposal | later
    · cases proposal
      exact ownVote
    · exact announced message later

theorem proofTimeout (kept : engine.WellKept evidence) {now : Int} :
    (engine.proofTimeout now).engine.WellKept evidence ∧
      ∀ message, .broadcast message ∈ (engine.proofTimeout now).events →
        evidence.Sanctions engine.self message := by
  by_cases announces : leaderOf engine.view engine.replicas = engine.self ∧
      engine.installed.isValid engine.replicas = true
  · obtain ⟨after, events⟩ := @proofTimeout_of_leads engine now announces.1 announces.2
    rw [after, events]
    refine ⟨kept.timers _, ?_⟩
    intro message broadcast
    rw [List.mem_singleton] at broadcast
    cases broadcast
    rcases kept.justified with ⟨-, blank⟩ | ⟨-, proved⟩
    · rw [blank] at announces
      exact absurd announces.2 (Certificate.blank_not_valid 0 engine.roster_positive)
    · exact ⟨engine.installed, proved, rfl⟩
  · have silent : ¬ leaderOf engine.view engine.replicas = engine.self ∨
        ¬ engine.installed.isValid engine.replicas = true := not_and_or.1 announces
    obtain ⟨after, events⟩ := @proofTimeout_of_silent engine now silent
    rw [after, events]
    exact ⟨kept.timers _, fun message broadcast => absurd broadcast List.not_mem_nil⟩

theorem fireProgress (electoral : evidence.Electoral engine.replicas)
    (kept : engine.WellKept evidence) {halts : Int → Bool} (calm : ∀ view, halts view = false)
    {now : Int}
    (own : ∀ proposed, .broadcast (.viewChange proposed) ∈
      (engine.fireProgress halts now).events → evidence.vote engine.self proposed) :
    (engine.fireProgress halts now).engine.WellKept evidence ∧
      ∀ message, .broadcast message ∈ (engine.fireProgress halts now).events →
        evidence.Sanctions engine.self message := by
  by_cases due : engine.timers.progress.isDue now = true
  · obtain ⟨asked, said, -⟩ := @fireProgress_of_due engine halts now due
    rw [said] at own
    rw [asked, said]
    exact kept.progressTimeout electoral calm own
  · obtain ⟨asked, said, -⟩ := @fireProgress_of_not_due engine halts now due
    rw [asked, said]
    exact ⟨kept, fun message broadcast => absurd broadcast List.not_mem_nil⟩

theorem fireProof (kept : engine.WellKept evidence) {now : Int} :
    (engine.fireProof true now).engine.WellKept evidence ∧
      ∀ message, .broadcast message ∈ (engine.fireProof true now).events →
        evidence.Sanctions engine.self message := by
  by_cases due : engine.timers.proof.isDue now = true
  · obtain ⟨asked, said⟩ := fireProof_of_due due
    rw [asked, said]
    exact kept.proofTimeout
  · obtain ⟨asked, said⟩ := fireProof_of_not_due due
    rw [asked, said]
    exact ⟨kept, fun message broadcast => absurd broadcast List.not_mem_nil⟩

theorem fireDue (electoral : evidence.Electoral engine.replicas)
    (kept : engine.WellKept evidence) {halts : Int → Bool} (calm : ∀ view, halts view = false)
    {now : Int}
    (own : ∀ proposed, .broadcast (.viewChange proposed) ∈
      (engine.fireDue halts true now).events → evidence.vote engine.self proposed) :
    (engine.fireDue halts true now).engine.WellKept evidence ∧
      ∀ message, .broadcast message ∈ (engine.fireDue halts true now).events →
        evidence.Sanctions engine.self message := by
  obtain ⟨after, events⟩ := @fireDue_eq engine halts now calm true
  rw [events] at own
  rw [after, events]
  obtain ⟨asked, proposed⟩ := kept.fireProgress electoral calm fun view proposal =>
    own view (List.mem_append_left _ proposal)
  obtain ⟨wellKept, announced⟩ := @fireProof evidence _ asked now
  rw [seat_self (@fireProgress_seat engine halts now calm)] at announced
  refine ⟨wellKept, ?_⟩
  intro message broadcast
  rcases List.mem_append.1 broadcast with early | late
  · exact proposed message early
  · exact announced message late

end WellKept

end Engine

end ViewSync
