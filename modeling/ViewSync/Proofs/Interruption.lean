import ViewSync.Proofs.Advance
import ViewSync.Proofs.Redelivery

/-!
A quorum that is held up.

The watcher may halt a replica at the very moment its quorum is complete. By then the vote that
completed it is counted and the replica may have voted itself, but nothing of the installation has
begun. What was gathered stays, and it goes on growing: at any time before the view is passed the
certificate holds exactly the votes that have been heard from the roster and those that the replica
has cast. So the installation is taken up again, with all of these votes, by the next call that
counts votes for the view, and by no other call except the proof of the view.
-/

namespace ViewSync

open Cluster (neverHalts)

def Certificate.Collects (certificate : Certificate) (history : History) (view : Int) : Prop :=
  ∀ attestation : Attestation, attestation ∈ certificate.attestations ↔
    attestation.view = view ∧ attestation.sender ∈ history.voters view

theorem Certificate.IsBallot.collects {certificate : Certificate} {history : History} {view : Int}
    {vote : Int → Prop} (ballot : certificate.IsBallot view vote)
    (voters : certificate.voters = history.voters view) :
    certificate.Collects history view := by
  rintro ⟨sender, attested⟩
  rw [mem_attestations, ← voters, mem_voters]
  constructor
  · intro stored
    exact ⟨ballot.exact sender attested stored, attested, stored⟩
  · rintro ⟨same, other, stored⟩
    change attested = view at same
    rw [same, ← ballot.exact sender other stored]
    exact stored

namespace Engine

/-! ### Which votes a call adds -/

/-- What is gathered for the views ahead grows by the votes that are heard from the roster and by
those that the replica itself casts. -/
structure Enrols (before after : Engine) (heard : List Envelope) (told : List Event) : Prop where
  roster : after.replicas = before.replicas
  place : after.self = before.self
  onward : before.view ≤ after.view
  voters : ∀ sender view : Int, after.view < view →
    (sender ∈ (after.candidacy view).voters ↔
      sender ∈ (before.candidacy view).voters ∨
        (before.knows sender = true ∧ ⟨sender, .viewChange view⟩ ∈ heard) ∨
          (sender = before.self ∧ .broadcast (.viewChange view) ∈ told))

section Enrolment

variable {engine first second third : Engine} {heard : List Envelope} {told : List Event}

theorem Enrols.trans {heardAfter : List Envelope} {toldAfter : List Event}
    (earlier : first.Enrols second heard told) (later : second.Enrols third heardAfter toldAfter) :
    first.Enrols third (heard ++ heardAfter) (told ++ toldAfter) where
  roster := later.roster.trans earlier.roster
  place := later.place.trans earlier.place
  onward := Int.le_trans earlier.onward later.onward
  voters := by
    intro sender view ahead
    have sameSeat : second.knows sender = first.knows sender := by
      rw [knows, knows, earlier.roster]
    rw [later.voters sender view ahead,
      earlier.voters sender view (Int.lt_of_le_of_lt later.onward ahead), sameSeat, earlier.place,
      List.mem_append, List.mem_append]
    tauto

theorem enrols_of_same (roster : second.replicas = first.replicas)
    (place : second.self = first.self) (onward : first.view ≤ second.view)
    (same : ∀ view, second.view < view → second.candidacy view = first.candidacy view)
    (silent : ∀ view, .broadcast (.viewChange view) ∉ told)
    (counted : ∀ sender view, second.view < view → first.knows sender = true →
      ⟨sender, .viewChange view⟩ ∈ heard → sender ∈ (first.candidacy view).voters) :
    first.Enrols second heard told where
  roster := roster
  place := place
  onward := onward
  voters := by
    intro sender view ahead
    rw [same view ahead]
    refine ⟨.inl, ?_⟩
    rintro (known | ⟨seated, present⟩ | ⟨-, voted⟩)
    · exact known
    · exact counted sender view ahead seated present
    · exact absurd voted (silent view)

theorem enrols_of_agree (roster : second.replicas = first.replicas)
    (place : second.self = first.self) (stays : second.view = first.view)
    (pending : second.pending = first.pending)
    (silent : ∀ view, .broadcast (.viewChange view) ∉ told)
    (counted : ∀ sender view, first.view < view → first.knows sender = true →
      ⟨sender, .viewChange view⟩ ∈ heard → sender ∈ (first.candidacy view).voters) :
    first.Enrols second heard told := by
  refine enrols_of_same roster place (Int.le_of_eq stays.symm) ?_ silent ?_
  · intro key _
    rw [candidacy, candidacy, pending]
  · rw [stays]
    exact counted

theorem enrols_self (engine : Engine) : engine.Enrols engine [] [] :=
  enrols_of_agree rfl rfl rfl rfl (fun _ => List.not_mem_nil)
    fun _ _ _ _ present => absurd present List.not_mem_nil

theorem voters_gather (engine : Engine) (sender voter view key : Int) :
    voter ∈ ((engine.gather view ⟨sender, view⟩).candidacy key).voters ↔
      voter ∈ (engine.candidacy key).voters ∨ (voter = sender ∧ key = view) := by
  rw [candidacy_gather]
  split
  · next same =>
      rw [Certificate.voters_add_vote, Finset.mem_insert, same]
      tauto
  · next other => simp [other]

theorem enrols_gather {sender : Int} (known : engine.knows sender = true) (view : Int) :
    engine.Enrols (engine.gather view ⟨sender, view⟩) [⟨sender, .viewChange view⟩] [] where
  roster := rfl
  place := rfl
  onward := Int.le_refl _
  voters := by
    intro voter key _
    rw [voters_gather]
    constructor
    · rintro (earlier | ⟨rfl, rfl⟩)
      · exact .inl earlier
      · exact .inr (.inl ⟨known, List.mem_cons_self⟩)
    · rintro (earlier | ⟨-, present⟩ | ⟨-, impossible⟩)
      · exact .inl earlier
      · cases List.mem_singleton.1 present
        exact .inr ⟨rfl, rfl⟩
      · exact absurd impossible List.not_mem_nil

theorem enrols_propose (engine : Engine) (view : Int) :
    engine.Enrols (engine.propose view) [] [.broadcast (.viewChange view)] where
  roster := rfl
  place := rfl
  onward := Int.le_refl _
  voters := by
    intro voter key _
    have gathered : voter ∈ ((engine.propose view).candidacy key).voters ↔
        voter ∈ (engine.candidacy key).voters ∨ (voter = engine.self ∧ key = view) :=
      engine.voters_gather engine.self voter view key
    rw [gathered]
    simp

theorem enrols_install (engine : Engine) (now : Int) {view : Int} (certificate : Certificate)
    (later : engine.view < view)
    (silent : ∀ view, .broadcast (.viewChange view) ∉ told)
    (deaf : ∀ sender view, ⟨sender, .viewChange view⟩ ∉ heard) :
    engine.Enrols (engine.install now view certificate).1 heard told := by
  have sameSeat := engine.install_seat now view certificate
  refine enrols_of_same (seat_replicas sameSeat) (seat_self sameSeat) ?_ ?_ silent ?_
  · rw [install_view]
    exact Int.le_of_lt later
  · intro key ahead
    rw [install_view] at ahead
    rw [candidacy, install_pending, Table.getElem?_dropThrough, if_pos ahead]
    rfl
  · exact fun sender key _ _ present => absurd present (deaf sender key)

end Enrolment

/-! ### Counting what is gathered -/

section Settling

variable {engine : Engine} {halts : Int → Bool} {now view : Int} {certificate : Certificate}

theorem settle_of_valid (stored : engine.pending[view]? = some certificate)
    (valid : certificate.isValid engine.replicas = true) :
    engine.settle halts now view =
      if halts view = true then
        { engine, events := [.quorumCollected view], outcome := .halted view }
      else
        { engine := (engine.install now view certificate).1
          events := .quorumCollected view :: (engine.install now view certificate).2 } := by
  rw [settle, stored]
  simp only [valid, if_true]

theorem settle_of_invalid (stored : engine.pending[view]? = some certificate)
    (invalid : ¬ certificate.isValid engine.replicas = true) :
    engine.settle halts now view = { engine } := by
  rw [settle, stored]
  simp only [invalid, Bool.false_eq_true, if_false]

theorem vote_notMem_settle (engine : Engine) (halts : Int → Bool) (now view other : Int) :
    .broadcast (.viewChange other) ∉ (engine.settle halts now view).events := by
  unfold settle
  split
  · exact List.not_mem_nil
  · split
    · split
      · simp
      · simp [broadcast_mem_install]
    · exact List.not_mem_nil

theorem enrols_settle (stored : engine.pending[view]? = some certificate)
    (later : engine.view < view) (halts : Int → Bool) (now : Int) :
    engine.Enrols (engine.settle halts now view).engine [] [] := by
  by_cases valid : certificate.isValid engine.replicas = true
  · rw [settle_of_valid stored valid]
    split
    · exact engine.enrols_self
    · exact engine.enrols_install now certificate later (fun _ => List.not_mem_nil)
        fun _ _ => List.not_mem_nil
  · rw [settle_of_invalid stored valid]
    exact engine.enrols_self

theorem gather_stored (engine : Engine) (view : Int) (attestation : Attestation) :
    (engine.gather view attestation).pending[view]? =
      some ((engine.gather view attestation).candidacy view) := by
  rw [candidacy, gather, Table.getElem?_insert, if_pos rfl]
  rfl

end Settling

/-- A call that adds to what is gathered for `view`: a vote that is not counted yet, or the timeout
that makes the replica vote for the next view, if there is one. -/
inductive Revives (engine : Engine) (view : Int) : Call → Prop
  | vote {sender : Int} (seated : engine.knows sender = true)
      (missing : sender ∉ (engine.candidacy view).voters) :
      Revives engine view (.receive ⟨sender, .viewChange view⟩)
  | timeout (next : engine.view + 1 = view) (more : engine.view ≠ maxView) :
      Revives engine view .progressTimeout

/-- A call gathers votes for a view first and then counts them. Here `staged` is the replica
between the two. -/
structure Canvasses (engine staged : Engine) (visit : Visit) (view : Int) : Prop where
  enrols : engine.Enrols staged visit.call.heard (engine.respond visit).events
  balloted : staged.Balloted
  stays : staged.view = engine.view
  installed : staged.installed = engine.installed
  proof : staged.timers.proof = engine.timers.proof
  stored : staged.pending[view]? = some (staged.candidacy view)
  answer : ∃ told, engine.respond visit =
    { staged.settle visit.halts visit.now view with
      events := told ++ (staged.settle visit.halts visit.now view).events }

structure Passes (engine : Engine) (visit : Visit) : Prop where
  enrols : engine.Enrols (engine.respond visit).engine visit.call.heard
    (engine.respond visit).events
  silent : ∀ view, .quorumCollected view ∉ (engine.respond visit).events
  proven : (engine.respond visit).engine.view = engine.view ∨
    ∃ sender attestations,
      visit.call =
        .receive ⟨sender, .viewProof (engine.respond visit).engine.view attestations⟩ ∧
      engine.knows sender = true ∧
        Attestation.quorumFor (engine.respond visit).engine.view attestations
          engine.replicas = true

section Calls

variable {engine : Engine} {visit : Visit} {view : Int}

/-- Counting casts no vote, so what is enrolled can be read off all that is told. -/
theorem Enrols.told_settle {staged : Engine} {heard : List Envelope} {told : List Event}
    (enrols : engine.Enrols staged heard told) (halts : Int → Bool) (now view : Int) :
    engine.Enrols staged heard (told ++ (staged.settle halts now view).events) where
  roster := enrols.roster
  place := enrols.place
  onward := enrols.onward
  voters := by
    intro sender key ahead
    rw [enrols.voters sender key ahead, List.mem_append,
      or_iff_left (vote_notMem_settle staged halts now view key)]

theorem canvasses_of_answer {staged : Engine} {told : List Event}
    (enrols : engine.Enrols staged visit.call.heard told) (balloted : staged.Balloted)
    (installed : staged.installed = engine.installed)
    (proof : staged.timers.proof = engine.timers.proof) (stays : staged.view = engine.view)
    (stored : staged.pending[view]? = some (staged.candidacy view))
    (answer : engine.respond visit =
      { staged.settle visit.halts visit.now view with
        events := told ++ (staged.settle visit.halts visit.now view).events }) :
    engine.Canvasses staged visit view where
  enrols := by
    rw [answer]
    exact enrols.told_settle visit.halts visit.now view
  balloted := balloted
  stays := stays
  installed := installed
  proof := proof
  stored := stored
  answer := ⟨told, answer⟩

theorem receiveViewChange_canvasses (balloted : engine.Balloted) {now : Int}
    {halts : Int → Bool} {sender : Int} (seated : engine.knows sender = true)
    (later : engine.view < view) (missing : sender ∉ (engine.candidacy view).voters) :
    ∃ staged, engine.Canvasses staged ⟨now, halts, .receive ⟨sender, .viewChange view⟩⟩ view := by
  have learns : (engine.candidacy view).learnsFrom ⟨sender, view⟩ = true :=
    (balloted.candidacy view).learnsFrom_iff.2 missing
  have notStale : ¬ view ≤ engine.view := Int.not_le.2 later
  have gathers := enrols_gather seated view
  have gathered := (engine.retains_gather sender view).balloted balloted
  by_cases joins : engine.attempted < view
  · refine ⟨(engine.gather view ⟨sender, view⟩).propose view,
      canvasses_of_answer (gathers.trans (enrols_propose _ view))
        ((retains_propose _ view).balloted gathered) rfl rfl rfl (gather_stored _ _ _) ?_⟩
    change engine.receiveViewChange halts now sender view = _
    rw [receiveViewChange, if_neg (by simp [seated]), if_neg notStale, if_neg (by simp [learns]),
      if_pos joins]
    rfl
  · refine ⟨engine.gather view ⟨sender, view⟩,
      canvasses_of_answer gathers gathered rfl rfl rfl (gather_stored _ _ _) ?_⟩
    change engine.receiveViewChange halts now sender view = _
    rw [receiveViewChange, if_neg (by simp [seated]), if_neg notStale, if_neg (by simp [learns]),
      if_neg joins]
    rfl

theorem progressTimeout_canvasses (balloted : engine.Balloted) (now : Int) (halts : Int → Bool)
    (more : engine.view ≠ maxView) :
    ∃ staged, engine.Canvasses staged ⟨now, halts, .progressTimeout⟩ (engine.view + 1) := by
  let next := engine.view + 1
  have proposes : engine.Enrols ((engine.propose next).rearm now) []
      [.broadcast (.viewChange next)] :=
    ⟨rfl, rfl, Int.le_refl _, (engine.enrols_propose next).voters⟩
  have proposed := (engine.retains_propose next).balloted balloted
  refine ⟨(engine.propose next).rearm now,
    canvasses_of_answer proposes proposed rfl rfl rfl (gather_stored _ _ _) ?_⟩
  change engine.progressTimeout halts now = _
  rw [progressTimeout, if_neg more]
  rfl

theorem respond_canvasses (balloted : engine.Balloted) (later : engine.view < view)
    (revives : engine.Revives view visit.call) :
    ∃ staged, engine.Canvasses staged visit view := by
  obtain ⟨now, halts, call⟩ := visit
  change engine.Revives view call at revives
  cases revives with
  | vote seated missing => exact receiveViewChange_canvasses balloted seated later missing
  | timeout next more =>
      subst next
      exact progressTimeout_canvasses balloted now halts more

/-- Timers, and what was attempted, play no part in what is gathered. -/
theorem passes_of_agree {after : Engine} (answer : (engine.respond visit).engine = after)
    (roster : after.replicas = engine.replicas) (place : after.self = engine.self)
    (stays : after.view = engine.view) (pending : after.pending = engine.pending)
    (silent : ∀ event ∈ (engine.respond visit).events, ∃ view attestations,
      event = .broadcast (.viewProof view attestations))
    (counted : ∀ sender view, engine.view < view → engine.knows sender = true →
      ⟨sender, .viewChange view⟩ ∈ visit.call.heard →
        sender ∈ (engine.candidacy view).voters) : engine.Passes visit where
  enrols := by
    rw [answer]
    refine enrols_of_agree roster place stays pending ?_ counted
    intro view voted
    obtain ⟨_, _, proof⟩ := silent _ voted
    cases proof
  silent := by
    intro view collected
    obtain ⟨_, _, proof⟩ := silent _ collected
    cases proof
  proven := .inl (by rw [answer, stays])

theorem passes_receiveViewChange {now : Int} {halts : Int → Bool} {sender : Int}
    (ignored : ¬ engine.knows sender = true ∨ view ≤ engine.view ∨
      sender ∈ (engine.candidacy view).voters) (balloted : engine.Balloted) :
    engine.Passes ⟨now, halts, .receive ⟨sender, .viewChange view⟩⟩ := by
  have nothingNew : sender ∈ (engine.candidacy view).voters →
      ¬ (engine.candidacy view).learnsFrom ⟨sender, view⟩ = true := by
    rw [(balloted.candidacy view).learnsFrom_iff]
    exact not_not_intro
  obtain ⟨after, events⟩ := @receiveViewChange_of_ignored engine halts now sender view
    (ignored.imp id (Or.imp id nothingNew))
  refine passes_of_agree after rfl rfl rfl rfl ?_ ?_
  · intro event happened
    change event ∈ (engine.receiveViewChange halts now sender view).events at happened
    rw [events] at happened
    exact absurd happened List.not_mem_nil
  · intro voter key ahead known present
    cases List.mem_singleton.1 present
    rcases ignored with unknown | stale | counted
    · exact absurd known unknown
    · exact absurd ahead (Int.not_lt.2 stale)
    · exact counted

theorem passes_receiveViewProof (engine : Engine) (now : Int) (halts : Int → Bool)
    (sender view : Int) (attestations : List Attestation) :
    engine.Passes ⟨now, halts, .receive ⟨sender, .viewProof view attestations⟩⟩ := by
  let visit : Visit := ⟨now, halts, .receive ⟨sender, .viewProof view attestations⟩⟩
  have deaf : ∀ voter key, ⟨voter, .viewChange key⟩ ∉ visit.call.heard := by
    intro voter key present
    cases List.mem_singleton.1 present
  have idle : ∀ {after : Engine}, (engine.respond visit).engine = after →
      (engine.respond visit).events = [] → after.replicas = engine.replicas →
        after.self = engine.self → after.view = engine.view → after.pending = engine.pending →
          engine.Passes visit := by
    intro after answer events roster place stays pending
    refine passes_of_agree answer roster place stays pending ?_ ?_
    · rw [events]
      exact fun event happened => absurd happened List.not_mem_nil
    · exact fun voter key _ _ present => absurd present (deaf voter key)
  rcases @receiveViewProof_cases engine now sender view attestations with
    ⟨⟨after, events⟩, -⟩ | ⟨⟨after, events⟩, -⟩ | ⟨⟨after, events⟩, known, quorum, later⟩
  · exact idle after events rfl rfl rfl rfl
  · exact idle after events rfl rfl rfl rfl
  · change (engine.respond visit).engine = _ at after
    change (engine.respond visit).events = _ at events
    constructor
    · rw [after, events]
      refine engine.enrols_install now _ later ?_ deaf
      intro key voted
      cases ((engine.broadcast_mem_install now view _ _).1 voted).2
    · rw [events]
      exact quorum_notMem_install _ _ _ _
    · right
      rw [after, install_view]
      exact ⟨sender, attestations, rfl, known, quorum⟩

theorem respond_passes (balloted : engine.Balloted)
    (idle : ∀ view, engine.view < view → ¬ engine.Revives view visit.call) :
    engine.Passes visit := by
  obtain ⟨now, halts, call⟩ := visit
  cases call with
  | start =>
      refine passes_of_agree rfl rfl rfl rfl rfl ?_ ?_
      · exact fun _ happened => absurd happened List.not_mem_nil
      · exact fun _ _ _ _ present => absurd present List.not_mem_nil
  | adjust timers =>
      refine passes_of_agree rfl rfl rfl rfl rfl ?_ ?_
      · exact fun _ happened => absurd happened List.not_mem_nil
      · exact fun _ _ _ _ present => absurd present List.not_mem_nil
  | progressTimeout =>
      have last : engine.view = maxView := by
        by_contra more
        exact idle _ (Int.lt_succ engine.view) (.timeout rfl more)
      obtain ⟨after, events⟩ := @progressTimeout_of_last engine halts now last
      refine passes_of_agree after rfl rfl rfl rfl ?_ ?_
      · intro event happened
        change event ∈ (engine.progressTimeout halts now).events at happened
        rw [events] at happened
        exact absurd happened List.not_mem_nil
      · exact fun _ _ _ _ present => absurd present List.not_mem_nil
  | proofTimeout =>
      obtain ⟨timers, after⟩ := engine.proofTimeout_retimes now
      refine passes_of_agree after rfl rfl rfl rfl ?_ ?_
      · exact fun event happened => ⟨_, _, eq_of_mem_proofTimeout happened⟩
      · exact fun _ _ _ _ present => absurd present List.not_mem_nil
  | receive envelope =>
      obtain ⟨sender, message⟩ := envelope
      cases message with
      | viewChange view =>
          apply passes_receiveViewChange _ balloted
          by_contra! counted
          exact idle view counted.2.1 (.vote counted.1 counted.2.2)
      | viewProof view attestations =>
          exact engine.passes_receiveViewProof now halts sender view attestations

theorem respond_enrols (balloted : engine.Balloted) (visit : Visit) :
    engine.Enrols (engine.respond visit).engine visit.call.heard
      (engine.respond visit).events := by
  by_cases revived : ∃ view, engine.view < view ∧ engine.Revives view visit.call
  · obtain ⟨view, later, revives⟩ := revived
    obtain ⟨staged, canvasses⟩ := respond_canvasses balloted later revives
    obtain ⟨told, answer⟩ := canvasses.answer
    have settles : staged.Enrols (engine.respond visit).engine [] [] := by
      rw [answer]
      exact enrols_settle canvasses.stored (canvasses.stays ▸ later) visit.halts visit.now
    have both := canvasses.enrols.trans settles
    rw [List.append_nil, List.append_nil] at both
    exact both
  · refine (respond_passes balloted ?_).enrols
    exact fun view later revives => revived ⟨view, later, revives⟩

/-- Under a watcher a call does what it would do without him, or is halted. -/
theorem respond_watched (engine : Engine) (visit : Visit) :
    Watched visit.halts (engine.answer visit.now visit.call) (engine.respond visit) := by
  obtain ⟨now, halts, call⟩ := visit
  cases call with
  | start => exact .passed rfl rfl rfl fun _ seen => absurd seen List.not_mem_nil
  | adjust timers => exact .passed rfl rfl rfl fun _ seen => absurd seen List.not_mem_nil
  | progressTimeout => exact engine.progressTimeout_watched halts now
  | proofTimeout =>
      have settled : (engine.proofTimeout now).outcome.halt? = none := by
        unfold proofTimeout
        split
        · rfl
        · rfl
      refine .passed rfl rfl settled ?_
      intro view seen
      cases eq_of_mem_proofTimeout seen
  | receive envelope => exact engine.receive_watched halts now envelope

/-- A call that is halted has gathered its votes and told of the quorum. -/
theorem respond_halted (balloted : engine.Balloted)
    (halted : (engine.respond visit).outcome = .halted view) :
    engine.view < view ∧ Quiet (engine.respond visit).events ∧
      (engine.respond visit).events.getLast? = some (.quorumCollected view) ∧
      ∃ staged, engine.Canvasses staged visit view ∧ (engine.respond visit).engine = staged ∧
        (staged.candidacy view).isValid staged.replicas = true := by
  cases engine.respond_watched visit with
  | passed _ _ settled _ =>
      rw [halted] at settled
      cases settled
  | @halted seen outcome halting begins quiet last =>
      have same : seen = view := by
        rw [halted] at outcome
        exact (Option.some.inj outcome).symm
      subst same
      obtain ⟨first, events, -⟩ := last
      have collected : .quorumCollected seen ∈ (engine.respond visit).events := by
        rw [events]
        exact List.mem_append_right _ List.mem_cons_self
      have revived : ∃ view, engine.view < view ∧ engine.Revives view visit.call := by
        by_contra idle
        refine (respond_passes balloted ?_).silent seen collected
        exact fun view later revives => idle ⟨view, later, revives⟩
      obtain ⟨view, later, revives⟩ := revived
      obtain ⟨staged, canvasses⟩ := respond_canvasses balloted later revives
      obtain ⟨told, answer⟩ := canvasses.answer
      have stopped : (staged.settle visit.halts visit.now view).outcome = .halted seen := by
        rw [← halted, answer]
      have same : seen = view := settle_halted stopped
      subst same
      have valid : (staged.candidacy seen).isValid staged.replicas = true := by
        by_contra invalid
        rw [settle_of_invalid canvasses.stored invalid] at stopped
        cases stopped
      refine ⟨later, quiet, by rw [events, List.getLast?_concat], staged, canvasses, ?_, valid⟩
      rw [answer]
      change (staged.settle visit.halts visit.now seen).engine = staged
      rw [settle_of_valid canvasses.stored valid, if_pos halting]

end Calls

end Engine

namespace Diary

/-! ### What is gathered in a run -/

structure Enrolled (diary : Diary) : Prop where
  roster : diary.engine.replicas = diary.history.replicas
  place : diary.engine.self = diary.history.self
  balloted : diary.engine.Balloted
  voters : ∀ view : Int, diary.engine.view < view →
    (diary.engine.candidacy view).voters = diary.history.voters view

section Enrolment

variable {diary : Diary} {view : Int}

theorem Enrolled.enter (enrolled : diary.Enrolled) {after : Engine} {heard : List Envelope}
    {told : List Event} (enrols : diary.engine.Enrols after heard told)
    (balloted : after.Balloted) : (diary.enter after heard told).Enrolled where
  roster := enrols.roster.trans enrolled.roster
  place := enrols.place.trans enrolled.place
  balloted := balloted
  voters := by
    intro view ahead
    have before : diary.engine.view < view := Int.lt_of_le_of_lt enrols.onward ahead
    change (after.candidacy view).voters = (diary.history.extend heard told).voters view
    ext sender
    rw [enrols.voters sender view ahead, enrolled.voters view before, History.mem_voters,
      History.mem_voters, History.voted_extend, diary.engine.knows_iff, enrolled.roster,
      enrolled.place]
    have seated : sender = diary.history.self →
        0 ≤ sender ∧ sender < (diary.history.extend heard told).replicas := by
      rintro rfl
      rw [← enrolled.place]
      exact enrolled.roster ▸ diary.engine.seated
    change sender = diary.history.self →
      0 ≤ sender ∧ sender < diary.history.replicas at seated
    change _ ↔ (0 ≤ sender ∧ sender < diary.history.replicas) ∧ _
    tauto

theorem Enrolled.visit (enrolled : diary.Enrolled) (visit : Visit) :
    (diary.visit visit).Enrolled :=
  enrolled.enter (Engine.respond_enrols enrolled.balloted visit)
    ((diary.engine.retains_respond visit).balloted enrolled.balloted)

theorem Enrolled.throughout (enrolled : diary.Enrolled) (visits : List Visit) :
    (diary.throughout visits).Enrolled := by
  induction visits generalizing diary with
  | nil => exact enrolled
  | cons visit rest ih => exact ih (enrolled.visit visit)

theorem enrolled_opening {replicas : Nat} (position : Fin replicas) (timers : TimerPair) :
    (opening position timers).Enrolled where
  roster := rfl
  place := rfl
  balloted := Engine.balloted_visited position timers []
  voters := by
    intro view _
    have nobody : ∀ sender, sender ∉ (opening position timers).history.voters view := by
      intro sender voter
      rcases (History.mem_voters.1 voter).2 with heard | ⟨-, done⟩
      · exact absurd heard List.not_mem_nil
      · exact absurd done List.not_mem_nil
    rw [Finset.eq_empty_of_forall_notMem nobody]
    exact Certificate.voters_blank view

theorem Enrolled.ballot (enrolled : diary.Enrolled) (ahead : diary.engine.view < view) :
    (diary.engine.candidacy view).IsBallot view (· ∈ diary.history.voters view) where
  candidate := (enrolled.balloted.candidacy view).candidate
  exact := (enrolled.balloted.candidacy view).exact
  cast := by
    rw [enrolled.voters view ahead]
    exact fun _ voter => voter

theorem Enrolled.collects (enrolled : diary.Enrolled) (ahead : diary.engine.view < view) :
    (diary.engine.candidacy view).Collects diary.history view :=
  (enrolled.ballot ahead).collects (enrolled.voters view ahead)

theorem Enrolled.isValid_iff (enrolled : diary.Enrolled) (ahead : diary.engine.view < view) :
    (diary.engine.candidacy view).isValid diary.engine.replicas = true ↔
      diary.history.Elects view := by
  have roster : 0 < diary.history.replicas := enrolled.roster ▸ diary.engine.roster_positive
  rw [enrolled.roster, (enrolled.ballot ahead).isValid_iff
    (fun _ voter => (History.mem_voters.1 voter).1) roster, enrolled.voters view ahead,
    History.quorumSize_eq roster]
  rfl

theorem elects_throughout (visits : List Visit) {diary : Diary} {view : Int}
    (elected : diary.history.Elects view) : (diary.throughout visits).history.Elects view := by
  induction visits generalizing diary with
  | nil => exact elected
  | cons visit rest ih => exact ih (elected.extend _ _)

theorem replicas_throughout (diary : Diary) (visits : List Visit) :
    (diary.throughout visits).history.replicas = diary.history.replicas := by
  induction visits generalizing diary with
  | nil => rfl
  | cons visit rest ih => exact ih (diary.visit visit)

end Enrolment

/-! ### The quorum that is held up -/

section HeldUp

variable {diary : Diary} {visit : Visit} {view : Int}

/-- With a quorum in hand, a call that adds a vote reports the quorum again. If that is not halted
the view is installed on all the votes there are. -/
theorem Enrolled.revived (enrolled : diary.Enrolled) (elected : diary.history.Elects view)
    (later : diary.engine.view < view) (revives : diary.engine.Revives view visit.call) :
    .quorumCollected view ∈ (diary.engine.respond visit).events ∧
      (visit.halts view = false →
        (diary.engine.respond visit).engine.view = view ∧
        (∃ leader, .viewInstalled view leader ∈ (diary.engine.respond visit).events) ∧
        (diary.engine.respond visit).engine.installed.Collects
          (diary.visit visit).history view) := by
  obtain ⟨staged, canvasses⟩ := Engine.respond_canvasses enrolled.balloted later revives
  obtain ⟨told, answer⟩ := canvasses.answer
  -- the replica with all its votes, before it counts them
  have gathered : (diary.enter staged visit.call.heard
      (diary.engine.respond visit).events).Enrolled :=
    enrolled.enter canvasses.enrols canvasses.balloted
  have ahead : staged.view < view := canvasses.stays ▸ later
  have valid : (staged.candidacy view).isValid staged.replicas = true :=
    (gathered.isValid_iff ahead).2 (elected.extend _ _)
  have counts := @Engine.settle_of_valid staged visit.halts visit.now view _ canvasses.stored valid
  rw [counts] at answer
  by_cases halting : visit.halts view = true
  · rw [if_pos halting] at answer
    refine ⟨?_, fun passed => ?_⟩
    · rw [answer]
      exact List.mem_append_right _ List.mem_cons_self
    · rw [halting] at passed
      cases passed
  · rw [if_neg halting] at answer
    refine ⟨?_, fun _ => ⟨?_, ?_, ?_⟩⟩
    · rw [answer]
      exact List.mem_append_right _ List.mem_cons_self
    · rw [answer]
      exact Engine.install_view _ _ _ _
    · refine ⟨leaderOf view staged.replicas, ?_⟩
      rw [answer]
      refine List.mem_append_right _ (List.mem_cons_of_mem _ ?_)
      rw [Engine.install_arrival, Engine.arrival]
      exact List.mem_append_right _ List.mem_cons_self
    · have installed : (diary.engine.respond visit).engine.installed = staged.candidacy view := by
        rw [answer]
        exact Engine.install_installed _ _ _ _
      rw [installed]
      exact gathered.collects ahead

/-- A view ahead is installed by a call that adds a vote to a quorum and is not halted, and by the
proof of the view, and by nothing else. -/
theorem Enrolled.installs_iff (enrolled : diary.Enrolled) (elected : diary.history.Elects view)
    (later : diary.engine.view < view) (visit : Visit) :
    (diary.engine.respond visit).engine.view = view ↔
      (diary.engine.Revives view visit.call ∧ visit.halts view = false) ∨
        ∃ sender attestations, visit.call = .receive ⟨sender, .viewProof view attestations⟩ ∧
          diary.engine.knows sender = true ∧
            Attestation.quorumFor view attestations diary.engine.replicas = true := by
  constructor
  · intro reached
    by_cases revived : ∃ other, diary.engine.view < other ∧ diary.engine.Revives other visit.call
    · obtain ⟨other, ahead, revives⟩ := revived
      obtain ⟨staged, canvasses⟩ := Engine.respond_canvasses enrolled.balloted ahead revives
      obtain ⟨told, answer⟩ := canvasses.answer
      have settled : (staged.settle visit.halts visit.now other).engine.view = view := by
        rw [← reached, answer]
      have moved : staged.view ≠ view := by
        rw [canvasses.stays]
        exact Int.ne_of_lt later
      by_cases valid : (staged.candidacy other).isValid staged.replicas = true
      · rw [Engine.settle_of_valid canvasses.stored valid] at settled
        by_cases halting : visit.halts other = true
        · rw [if_pos halting] at settled
          exact absurd settled moved
        · rw [if_neg halting] at settled
          have same : other = view := (Engine.install_view _ _ _ _).symm.trans settled
          rw [same] at revives halting
          exact .inl ⟨revives, Bool.eq_false_of_not_eq_true halting⟩
      · rw [Engine.settle_of_invalid canvasses.stored valid] at settled
        exact absurd settled moved
    · have passes := Engine.respond_passes enrolled.balloted
        fun other ahead revives => revived ⟨other, ahead, revives⟩
      rcases passes.proven with stays | proof
      · exact absurd (stays.symm.trans reached) (Int.ne_of_lt later)
      · rw [reached] at proof
        exact .inr proof
  · rintro (⟨revives, passed⟩ | ⟨sender, attestations, call, known, quorum⟩)
    · exact ((enrolled.revived elected later revives).2 passed).1
    · obtain ⟨now, halts, heard⟩ := visit
      change heard = _ at call
      subst call
      obtain ⟨after, -⟩ := @Engine.receiveViewProof_of_later diary.engine now sender view
        attestations known quorum later
      exact (congrArg Engine.view after).trans (Engine.install_view _ _ _ _)

end HeldUp

/-- A call is halted with a quorum for `view` in hand. Nothing of the installation has begun: view,
certificate and proof timer are as before, and the quorum is the last that is told. But the
certificate is kept, valid and with all votes for the view, the one that completed it included. At
any later time, as long as the view has not been passed: the next call that adds a vote for it
reports the quorum again, and unless that is halted too it installs the view, on all votes for it
that there are by then. Nothing else installs the view, except the proof of it. -/
theorem halted_quorum_is_kept {replicas : Nat} (position : Fin replicas) (timers : TimerPair)
    (earlier : List Visit) (visit : Visit) (view : Int)
    (halted : (((opening position timers).throughout earlier).engine.respond visit).outcome =
      .halted view) :
    let before := (opening position timers).throughout earlier
    let after := before.visit visit
    let events := (before.engine.respond visit).events
    (after.engine.view = before.engine.view ∧
      after.engine.installed = before.engine.installed ∧
      after.engine.timers.proof = before.engine.timers.proof) ∧
    (events.getLast? = some (.quorumCollected view) ∧ announcements events = [] ∧
      installations events = []) ∧
    (∃ certificate, after.engine.pending[view]? = some certificate ∧
      certificate.isValid replicas = true ∧ certificate.Collects after.history view) ∧
    ∀ later : List Visit,
      let diary := after.throughout later
      diary.engine.view < view → ∀ next : Visit,
        let step := diary.engine.respond next
        (diary.engine.Revives view next.call →
          .quorumCollected view ∈ step.events ∧
          (next.halts view = false → step.engine.view = view ∧
            (∃ leader, .viewInstalled view leader ∈ step.events) ∧
            step.engine.installed.Collects (diary.visit next).history view)) ∧
        (step.engine.view = view ↔
          (diary.engine.Revives view next.call ∧ next.halts view = false) ∨
          ∃ sender attestations, next.call = .receive ⟨sender, .viewProof view attestations⟩ ∧
            (0 ≤ sender ∧ sender < replicas) ∧
              Attestation.quorumFor view attestations replicas = true) := by
  intro before after events
  have enrolled : before.Enrolled := (enrolled_opening position timers).throughout earlier
  have kept : after.Enrolled := enrolled.visit visit
  obtain ⟨later, quiet, last, staged, canvasses, reached, valid⟩ :=
    Engine.respond_halted enrolled.balloted halted
  change after.engine = staged at reached
  have roster : staged.replicas = replicas := by
    rw [← reached, kept.roster]
    exact (opening position timers).replicas_throughout earlier
  have ahead : after.engine.view < view := by
    rw [reached, canvasses.stays]
    exact later
  have elected : after.history.Elects view := by
    rw [← kept.isValid_iff ahead, reached]
    exact valid
  refine ⟨?_, ⟨last, quiet.announcements_eq_nil, quiet.installations_eq_nil⟩, ?_, ?_⟩
  · rw [reached]
    exact ⟨canvasses.stays, canvasses.installed, canvasses.proof⟩
  · refine ⟨staged.candidacy view, ?_, ?_, ?_⟩
    · rw [reached]
      exact canvasses.stored
    · rw [← roster]
      exact valid
    · rw [← reached]
      exact kept.collects ahead
  · intro visits diary behind next step
    have going : diary.Enrolled := kept.throughout visits
    have still : diary.history.Elects view := elects_throughout visits elected
    have size : diary.engine.replicas = replicas := by
      rw [going.roster, replicas_throughout, ← kept.roster, reached, roster]
    have installs := going.installs_iff still behind next
    simp only [Engine.knows_iff, size] at installs
    exact ⟨fun revives => going.revived still behind revives, installs⟩

/-- Replica 0 of 3 calls for view 1 and is halted by the vote of replica 2, and by that of replica 1
again. Nobody is left to vote, but it calls for view 1 once more, and installs it on all three
votes. -/
theorem halted_quorum_is_kept_of_two_halts :
    let earlier : List Visit := [⟨0, neverHalts, .start⟩, ⟨5, neverHalts, .progressTimeout⟩]
    let visit : Visit := ⟨6, (· = 1), .receive ⟨2, .viewChange 1⟩⟩
    let later : List Visit := [⟨7, (· = 1), .receive ⟨1, .viewChange 1⟩⟩]
    let next : Visit := ⟨8, neverHalts, .progressTimeout⟩
    let timers : TimerPair := ⟨100, 30, by decide, by decide, {}, {}⟩
    let before := (opening (0 : Fin 3) timers).throughout earlier
    let diary := (before.visit visit).throughout later
    ((before.engine.respond visit).outcome = .halted 1 ∧ diary.engine.view < 1 ∧
      diary.engine.Revives 1 next.call) ∧
    (diary.engine.respond next).engine.view = 1 ∧
      (diary.engine.respond next).engine.installed.attestations = [⟨0, 1⟩, ⟨1, 1⟩, ⟨2, 1⟩] ∧
      (diary.engine.respond next).engine.installed.Collects (diary.visit next).history 1 := by
  intro earlier visit later next timers before diary
  have halted : (before.engine.respond visit).outcome = .halted 1 := by decide +kernel
  have behind : diary.engine.view < 1 := by decide +kernel
  have revives : diary.engine.Revives 1 next.call :=
    .timeout (by decide +kernel) (by decide +kernel)
  have run : diary = (before.visit visit).throughout later := rfl
  have kept := (halted_quorum_is_kept (0 : Fin 3) timers earlier visit 1 halted).2.2.2 later
  -- keeps the run folded, so that nothing below evaluates it
  simp only [before, ← run] at kept
  obtain ⟨reached, -, collects⟩ := ((kept behind next).1 revives).2 rfl
  exact ⟨⟨halted, behind, revives⟩, reached, by decide +kernel, collects⟩

end Diary

end ViewSync
