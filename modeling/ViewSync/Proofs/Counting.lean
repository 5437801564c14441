import ViewSync.Proofs.Evidence
import ViewSync.Proofs.Quiescence

/-!
What a replica never takes back.

Its view and the last view it attempted only go up, and a vote that it has counted stays counted
until the view it is for is over. A vote that arrives is counted then at the latest, and so is the
replica's own vote when it proposes.
-/

namespace ViewSync

namespace Engine

/-- The vote of a sender for a view is counted, or the view is passed already. -/
def Counts (engine : Engine) (sender view : Int) : Prop :=
  view ≤ engine.view ∨ sender ∈ (engine.candidacy view).voters

theorem candidacy_tally {engine : Engine} {now view attempted key : Int}
    {certificate : Certificate}
    (unfinished : (engine.tally now view certificate attempted).1.view < key) :
    (engine.tally now view certificate attempted).1.candidacy key =
      if key = view then certificate else engine.candidacy key := by
  rw [tally_view] at unfinished
  rw [candidacy, tally_pending]
  by_cases valid : certificate.isValid engine.replicas = true
  · rw [if_pos valid] at unfinished
    rw [if_pos valid, if_pos unfinished, if_neg (Int.ne_of_gt unfinished)]
    rfl
  · rw [if_neg valid]
    split <;> rfl

theorem counts_tally {engine : Engine} {now view attempted sender : Int}
    {certificate : Certificate} (voted : sender ∈ certificate.voters) :
    (engine.tally now view certificate attempted).1.Counts sender view := by
  by_cases passed : view ≤ (engine.tally now view certificate attempted).1.view
  · exact .inl passed
  · right
    rw [candidacy_tally (Int.not_le.1 passed), if_pos rfl]
    exact voted

theorem view_le_tally {engine : Engine} {now view attempted : Int} {certificate : Certificate}
    (newer : engine.view < view) :
    engine.view ≤ (engine.tally now view certificate attempted).1.view := by
  rw [tally_view]
  split
  · exact Int.le_of_lt newer
  · exact Int.le_refl _

/-- Holding a certificate with more voters takes no vote back. -/
theorem Counts.tally {engine : Engine} {now view attempted sender key : Int}
    {certificate : Certificate} (counted : engine.Counts sender key)
    (newer : engine.view < view)
    (more : (engine.candidacy view).voters ⊆ certificate.voters) :
    (engine.tally now view certificate attempted).1.Counts sender key := by
  by_cases passed : key ≤ (engine.tally now view certificate attempted).1.view
  · exact .inl passed
  · rcases counted with earlier | voted
    · exact absurd (Int.le_trans earlier (view_le_tally newer)) passed
    · right
      rw [candidacy_tally (Int.not_le.1 passed)]
      split
      · next same =>
          subst same
          exact more voted
      · exact voted

theorem voters_subset_pool (engine : Engine) (sender view : Int) :
    insert sender (engine.candidacy view).voters ⊆ (engine.pool sender view).voters := by
  rw [voters_pool]
  split
  · exact Finset.subset_insert _ _
  · exact Finset.Subset.refl _

/-- A replica that has counted the votes of a quorum is not behind the view. -/
theorem WellKept.view_le_of_voters {evidence : Evidence} {engine : Engine} {view : Int}
    {group : Finset Int} (kept : engine.WellKept evidence)
    (quorum : quorumSize engine.replicas ≤ group.card)
    (counted : ∀ sender ∈ group, engine.Counts sender view) : view ≤ engine.view := by
  by_contra behind
  have voters : group ⊆ (engine.candidacy view).voters :=
    fun sender present => (counted sender present).resolve_left behind
  have enough := Finset.card_le_card voters
  have short := (kept.candidacy_ballot view).2
  omega

theorem WellKept.view_le_of_quorum {evidence : Evidence} {engine : Engine} {view : Int}
    {group : Finset Nat} (kept : engine.WellKept evidence)
    (quorum : quorumSize engine.replicas ≤ group.card)
    (counted : ∀ member ∈ group, engine.Counts member view) : view ≤ engine.view := by
  have distinct : Function.Injective fun member : Nat => (member : Int) :=
    fun _ _ same => Int.ofNat.inj same
  refine @WellKept.view_le_of_voters _ _ _ (group.image fun member : Nat => (member : Int)) kept
    ?_ ?_
  · rw [Finset.card_image_of_injective group distinct]
    exact quorum
  · intro sender present
    obtain ⟨member, joined, rfl⟩ := Finset.mem_image.1 present
    exact counted member joined

section Receive

variable {engine : Engine} {halts : Int → Bool} {now : Int} {envelope : Envelope}

theorem Counts.receive (calm : ∀ view, halts view = false) {sender view : Int}
    (counted : engine.Counts sender view) :
    (engine.receive halts now envelope).engine.Counts sender view := by
  obtain ⟨origin, message⟩ := envelope
  cases message with
  | viewChange proposed =>
      change (engine.receiveViewChange halts now origin proposed).engine.Counts sender view
      rcases @receiveViewChange_cases engine halts now origin proposed calm with
        ⟨⟨after, -⟩, -⟩ | ⟨⟨after, -⟩, -, newer, -⟩
      · rw [after]
        exact counted
      · rw [after]
        apply counted.tally newer
        exact (Finset.subset_insert _ _).trans (voters_subset_pool engine origin proposed)
  | viewProof proved attestations =>
      change (engine.receiveViewProof now origin proved attestations).engine.Counts sender view
      rcases @receiveViewProof_cases engine now origin proved attestations with
        ⟨⟨after, -⟩, -⟩ | ⟨⟨after, -⟩, -⟩ | ⟨⟨after, -⟩, -, -, later⟩
      · rw [after]
        exact counted
      · rw [after]
        exact counted
      · rw [after]
        by_cases passed : view ≤ proved
        · left
          rw [install_view]
          exact passed
        · rcases counted with earlier | voted
          · exact absurd (Int.le_trans earlier (Int.le_of_lt later)) passed
          · right
            rw [candidacy, install_pending, Table.getElem?_dropThrough,
              if_pos (Int.not_le.1 passed)]
            exact voted

/-- Whatever becomes of a vote from the roster, it is not forgotten. -/
theorem counts_receive {evidence : Evidence} (kept : engine.WellKept evidence)
    (calm : ∀ view, halts view = false) {sender view : Int}
    (known : engine.knows sender = true) :
    (engine.receive halts now ⟨sender, .viewChange view⟩).engine.Counts sender view := by
  change (engine.receiveViewChange halts now sender view).engine.Counts sender view
  rcases @receiveViewChange_cases engine halts now sender view calm with
    ⟨⟨after, -⟩, ignored⟩ | ⟨⟨after, -⟩, -⟩
  · rw [after]
    rcases ignored with unknown | stale | duplicate
    · exact absurd known unknown
    · exact .inl stale
    · rw [(kept.candidacy_ballot view).1.learnsFrom_iff, not_not] at duplicate
      exact .inr duplicate
  · rw [after]
    exact counts_tally (voters_subset_pool engine sender view (Finset.mem_insert_self _ _))

theorem counts_of_broadcast_receive (calm : ∀ view, halts view = false) {view : Int}
    (joined : .broadcast (.viewChange view) ∈ (engine.receive halts now envelope).events) :
    (engine.receive halts now envelope).engine.Counts engine.self view := by
  obtain ⟨sender, message⟩ := envelope
  cases message with
  | viewChange proposed =>
      change .broadcast (.viewChange view) ∈
        (engine.receiveViewChange halts now sender proposed).events at joined
      change (engine.receiveViewChange halts now sender proposed).engine.Counts engine.self view
      rcases @receiveViewChange_cases engine halts now sender proposed calm with
        ⟨⟨-, events⟩, -⟩ | ⟨⟨after, events⟩, -⟩
      · rw [events] at joined
        exact absurd joined List.not_mem_nil
      · rw [events, List.mem_append, broadcast_mem_joining, broadcast_mem_tally] at joined
        rcases joined with ⟨joins, same⟩ | ⟨-, -, impossible⟩
        · cases same
          rw [after]
          apply counts_tally
          rw [voters_pool, if_pos joins]
          exact Finset.mem_insert_self _ _
        · cases impossible
  | viewProof proved attestations =>
      change .broadcast (.viewChange view) ∈
        (engine.receiveViewProof now sender proved attestations).events at joined
      rcases @receiveViewProof_cases engine now sender proved attestations with
        ⟨⟨-, events⟩, -⟩ | ⟨⟨-, events⟩, -⟩ | ⟨⟨-, events⟩, -⟩
      · rw [events] at joined
        exact absurd joined List.not_mem_nil
      · rw [events] at joined
        exact absurd joined List.not_mem_nil
      · rw [events, broadcast_mem_install] at joined
        cases joined.2

theorem receive_of_counts {evidence : Evidence} (kept : engine.WellKept evidence)
    {sender view : Int} (counted : engine.Counts sender view) :
    (engine.receive halts now ⟨sender, .viewChange view⟩).engine = engine ∧
      (engine.receive halts now ⟨sender, .viewChange view⟩).events = [] := by
  change (engine.receiveViewChange halts now sender view).engine = engine ∧
    (engine.receiveViewChange halts now sender view).events = []
  apply receiveViewChange_of_ignored
  rcases counted with passed | voted
  · exact .inr (.inl passed)
  · refine .inr (.inr ?_)
    rw [(kept.candidacy_ballot view).1.learnsFrom_iff, not_not]
    exact voted

theorem view_receive_proof {sender view : Int} {attestations : List Attestation}
    (known : engine.knows sender = true)
    (quorum : Attestation.quorumFor view attestations engine.replicas = true) :
    view ≤ (engine.receive halts now ⟨sender, .viewProof view attestations⟩).engine.view := by
  change view ≤ (engine.receiveViewProof now sender view attestations).engine.view
  rcases @receiveViewProof_cases engine now sender view attestations with
    ⟨⟨after, -⟩, unknown | invalid | stale⟩ | ⟨⟨after, -⟩, -, -, same⟩ | ⟨⟨after, -⟩, -⟩
  · exact absurd known unknown
  · exact absurd quorum invalid
  · rw [after]
    exact Int.le_of_lt stale
  · rw [after]
    exact Int.le_of_eq same.symm
  · rw [after, install_view]

theorem view_receive (calm : ∀ view, halts view = false) :
    (engine.receive halts now envelope).engine.view = engine.view ∨
      (engine.view < envelope.message.view ∧
        (engine.receive halts now envelope).engine.view = envelope.message.view) := by
  obtain ⟨sender, message⟩ := envelope
  cases message with
  | viewChange view =>
      change (engine.receiveViewChange halts now sender view).engine.view = engine.view ∨
        (engine.view < view ∧ (engine.receiveViewChange halts now sender view).engine.view = view)
      rcases @receiveViewChange_cases engine halts now sender view calm with
        ⟨⟨after, -⟩, -⟩ | ⟨⟨after, -⟩, -, newer, -⟩
      · rw [after]
        exact .inl rfl
      · rw [after, tally_view]
        split
        · exact .inr ⟨newer, rfl⟩
        · exact .inl rfl
  | viewProof view attestations =>
      change (engine.receiveViewProof now sender view attestations).engine.view = engine.view ∨
        (engine.view < view ∧
          (engine.receiveViewProof now sender view attestations).engine.view = view)
      rcases @receiveViewProof_cases engine now sender view attestations with
        ⟨⟨after, -⟩, -⟩ | ⟨⟨after, -⟩, -⟩ | ⟨⟨after, -⟩, -, -, later⟩
      · rw [after]
        exact .inl rfl
      · rw [after]
        exact .inl rfl
      · rw [after, install_view]
        exact .inr ⟨later, rfl⟩

theorem view_le_receive (calm : ∀ view, halts view = false) :
    engine.view ≤ (engine.receive halts now envelope).engine.view := by
  rcases @view_receive engine halts now envelope calm with same | ⟨ahead, moved⟩
  · exact Int.le_of_eq same.symm
  · rw [moved]
    exact Int.le_of_lt ahead

/-- No view is attempted on account of a message but the one that the message is about, and a
replica that joins it says so. -/
theorem attempted_receive (calm : ∀ view, halts view = false) :
    (engine.receive halts now envelope).engine.attempted = engine.attempted ∨
      (engine.receive halts now envelope).engine.attempted =
          max engine.attempted envelope.message.view ∧
        ∀ view, envelope.message = .viewChange view → engine.attempted < view →
          .broadcast (.viewChange view) ∈ (engine.receive halts now envelope).events := by
  obtain ⟨sender, message⟩ := envelope
  cases message with
  | viewChange view =>
      change (engine.receiveViewChange halts now sender view).engine.attempted = _ ∨
        (engine.receiveViewChange halts now sender view).engine.attempted = _ ∧
        ∀ other, Message.viewChange view = .viewChange other → engine.attempted < other →
          .broadcast (.viewChange other) ∈
            (engine.receiveViewChange halts now sender view).events
      rcases @receiveViewChange_cases engine halts now sender view calm with
        ⟨⟨after, -⟩, -⟩ | ⟨⟨after, events⟩, -⟩
      · rw [after]
        exact .inl rfl
      · rw [after, events, tally_attempted (le_max_right _ _)]
        refine .inr ⟨rfl, ?_⟩
        rintro other ⟨⟩ joins
        exact List.mem_append_left _ ((broadcast_mem_joining _ _ _).2 ⟨joins, rfl⟩)
  | viewProof view attestations =>
      change (engine.receiveViewProof now sender view attestations).engine.attempted = _ ∨
        (engine.receiveViewProof now sender view attestations).engine.attempted = _ ∧
        ∀ other, Message.viewProof view attestations = .viewChange other → _
      rcases @receiveViewProof_cases engine now sender view attestations with
        ⟨⟨after, -⟩, -⟩ | ⟨⟨after, -⟩, -⟩ | ⟨⟨after, -⟩, -⟩
      · rw [after]
        exact .inl rfl
      · rw [after]
        exact .inl rfl
      · rw [after, install_attempted]
        exact .inr ⟨rfl, fun _ impossible => Message.noConfusion impossible⟩

end Receive

section Timeout

variable {engine : Engine} {halts : Int → Bool} {now : Int}

theorem progressTimeout_broadcasts (calm : ∀ view, halts view = false)
    (next : engine.view ≠ maxView) :
    .broadcast (.viewChange (engine.view + 1)) ∈ (engine.progressTimeout halts now).events := by
  rw [(progressTimeout_of_next (calm _) next).2]
  exact List.mem_cons_self

theorem view_of_broadcast_progressTimeout (calm : ∀ view, halts view = false)
    {message : Message}
    (broadcast : .broadcast message ∈ (engine.progressTimeout halts now).events) :
    message.view = engine.view + 1 := by
  by_cases last : engine.view = maxView
  · rw [(progressTimeout_of_last last).2] at broadcast
    exact absurd broadcast List.not_mem_nil
  · rw [(progressTimeout_of_next (calm _) last).2] at broadcast
    rcases List.mem_cons.1 broadcast with proposal | announced
    · cases proposal
      rfl
    · rw [((broadcast_mem_tally message).1 announced).2.2]
      rfl

theorem counts_of_broadcast_progressTimeout (calm : ∀ view, halts view = false) {view : Int}
    (proposed : .broadcast (.viewChange view) ∈ (engine.progressTimeout halts now).events) :
    (engine.progressTimeout halts now).engine.Counts engine.self view := by
  have next : view = engine.view + 1 := view_of_broadcast_progressTimeout calm proposed
  by_cases last : engine.view = maxView
  · rw [(progressTimeout_of_last last).2] at proposed
    exact absurd proposed List.not_mem_nil
  · rw [(progressTimeout_of_next (calm _) last).1, next]
    apply counts_tally
    rw [Certificate.voters_add_vote]
    exact Finset.mem_insert_self _ _

theorem view_progressTimeout (calm : ∀ view, halts view = false) :
    (engine.progressTimeout halts now).engine.view = engine.view ∨
      (engine.progressTimeout halts now).engine.view = engine.view + 1 := by
  by_cases last : engine.view = maxView
  · rw [(progressTimeout_of_last last).1]
    exact .inl rfl
  · rw [(progressTimeout_of_next (calm _) last).1, tally_view]
    split
    · exact .inr rfl
    · exact .inl rfl

theorem attempted_progressTimeout (calm : ∀ view, halts view = false)
    (next : engine.view ≠ maxView) :
    (engine.progressTimeout halts now).engine.attempted =
      max engine.attempted (engine.view + 1) := by
  rw [(progressTimeout_of_next (calm _) next).1, tally_attempted (le_max_right _ _)]

theorem Counts.progressTimeout (calm : ∀ view, halts view = false) {sender view : Int}
    (counted : engine.Counts sender view) :
    (engine.progressTimeout halts now).engine.Counts sender view := by
  by_cases last : engine.view = maxView
  · rw [(progressTimeout_of_last last).1]
    exact counted
  · rw [(progressTimeout_of_next (calm _) last).1]
    have waiting : (engine.rearm now).Counts sender view := counted
    apply waiting.tally (Int.lt_succ engine.view)
    rw [Certificate.voters_add_vote]
    exact Finset.subset_insert _ _

end Timeout

end Engine

end ViewSync
