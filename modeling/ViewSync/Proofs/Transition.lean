import ViewSync.Cluster
import ViewSync.Proofs.Ballot

/-!
What each transition of a replica does.

A replica that takes in votes for a view holds a certificate for it and counts; this is `tally`,
and the votes it receives, joins with and proposes with all end there. The equations of this module
say for each transition what it comes to, under the conditions that the transition itself checks.
Nobody halts the replica here.
-/

namespace ViewSync

namespace Engine

/-- What a replica keeps for good: its roster, its place on it, and its two intervals. -/
def seat (engine : Engine) : Int × Int × Int × Int :=
  (engine.replicas, engine.self, engine.timers.progressInterval, engine.timers.proofInterval)

theorem seat_replicas {left right : Engine} (same : left.seat = right.seat) :
    left.replicas = right.replicas :=
  congrArg Prod.fst same

theorem seat_self {left right : Engine} (same : left.seat = right.seat) :
    left.self = right.self :=
  congrArg (fun seat => seat.2.1) same

theorem seat_progressInterval {left right : Engine} (same : left.seat = right.seat) :
    left.timers.progressInterval = right.timers.progressInterval :=
  congrArg (fun seat => seat.2.2.1) same

theorem seat_proofInterval {left right : Engine} (same : left.seat = right.seat) :
    left.timers.proofInterval = right.timers.proofInterval :=
  congrArg (fun seat => seat.2.2.2) same

theorem roster_positive (engine : Engine) : 0 < engine.replicas :=
  Int.lt_of_le_of_lt engine.seated.1 engine.seated.2

/-! ### Installing a view -/

section Install

variable (engine : Engine) (now view : Int) (certificate : Certificate)

theorem install_eq :
    engine.install now view certificate =
      if leaderOf view engine.replicas = engine.self then
        ({ engine with
            view
            attempted := max engine.attempted view
            installed := certificate
            pending := engine.pending.dropThrough view
            timers := (engine.timers.resetProgress now).resetProof now },
          [.broadcast (.viewProof view certificate.attestations),
            .viewInstalled view (leaderOf view engine.replicas)])
      else
        ({ engine with
            view
            attempted := max engine.attempted view
            installed := certificate
            pending := engine.pending.dropThrough view
            timers := (engine.timers.resetProgress now).disableProof },
          [.viewInstalled view (leaderOf view engine.replicas)]) := by
  by_cases leads : leaderOf view engine.replicas = engine.self
  · rw [if_pos leads, install, isLeader]
    exact if_pos (decide_eq_true leads)
  · rw [if_neg leads, install, isLeader]
    exact if_neg (fun same => leads (of_decide_eq_true same))

theorem install_seat : (engine.install now view certificate).1.seat = engine.seat := by
  rw [install_eq]
  split <;> rfl

theorem install_view : (engine.install now view certificate).1.view = view := by
  rw [install_eq]
  split <;> rfl

theorem install_attempted :
    (engine.install now view certificate).1.attempted = max engine.attempted view := by
  rw [install_eq]
  split <;> rfl

theorem install_installed : (engine.install now view certificate).1.installed = certificate := by
  rw [install_eq]
  split <;> rfl

theorem install_pending :
    (engine.install now view certificate).1.pending = engine.pending.dropThrough view := by
  rw [install_eq]
  split <;> rfl

theorem install_progress :
    (engine.install now view certificate).1.timers.progress =
      .reset now (nanosOfMillis engine.timers.progressInterval) := by
  rw [install_eq]
  split <;> rfl

theorem broadcast_mem_install (message : Message) :
    .broadcast message ∈ (engine.install now view certificate).2 ↔
      leaderOf view engine.replicas = engine.self ∧
        message = .viewProof view certificate.attestations := by
  rw [install_eq]
  split
  · next leads => simp [leads]
  · next follows => simp [follows]

theorem install_proof :
    (engine.install now view certificate).1.timers.proof =
      if leaderOf view engine.replicas = engine.self then
        .reset now (nanosOfMillis engine.timers.proofInterval)
      else engine.timers.proof.disable := by
  rw [install_eq]
  split <;> rfl

end Install

/-! ### Counting votes -/

def hold (engine : Engine) (view : Int) (certificate : Certificate) (attempted : Int) : Engine :=
  { engine with pending := engine.pending.insert view certificate, attempted }

def tally (engine : Engine) (now view : Int) (certificate : Certificate) (attempted : Int) :
    Engine × List Event :=
  let held := engine.hold view certificate attempted
  if certificate.isValid engine.replicas then
    let installed := held.install now view certificate
    (installed.1, .quorumCollected view :: installed.2)
  else
    (held, [])

section Tally

variable (engine : Engine) (now view : Int) (certificate : Certificate) (attempted : Int)

theorem settle_hold (halts : Int → Bool) (calm : halts view = false) :
    (engine.hold view certificate attempted).settle halts now view =
      { engine := (engine.tally now view certificate attempted).1
        events := (engine.tally now view certificate attempted).2 } := by
  have held : (engine.hold view certificate attempted).pending[view]? = some certificate := by
    rw [hold, Table.getElem?_insert, if_pos rfl]
  have roster : (engine.hold view certificate attempted).replicas = engine.replicas := rfl
  rw [settle, held, tally]
  simp only [roster, calm]
  split <;> rfl

theorem tally_seat : (engine.tally now view certificate attempted).1.seat = engine.seat := by
  unfold tally
  split
  · exact install_seat _ _ _ _
  · rfl

variable {engine now view certificate attempted}

theorem tally_of_valid (valid : certificate.isValid engine.replicas = true) :
    engine.tally now view certificate attempted =
      (((engine.hold view certificate attempted).install now view certificate).1,
        .quorumCollected view ::
          ((engine.hold view certificate attempted).install now view certificate).2) := by
  rw [tally, if_pos valid]

theorem tally_of_not_valid (invalid : ¬ certificate.isValid engine.replicas = true) :
    engine.tally now view certificate attempted =
      (engine.hold view certificate attempted, []) := by
  rw [tally, if_neg invalid]

theorem tally_view :
    (engine.tally now view certificate attempted).1.view =
      if certificate.isValid engine.replicas = true then view else engine.view := by
  split
  · next valid => rw [tally_of_valid valid, install_view]
  · next invalid =>
      rw [tally_of_not_valid invalid]
      rfl

theorem tally_attempted (reached : view ≤ attempted) :
    (engine.tally now view certificate attempted).1.attempted = attempted := by
  by_cases valid : certificate.isValid engine.replicas = true
  · rw [tally_of_valid valid, install_attempted]
    exact max_eq_left reached
  · rw [tally_of_not_valid valid]
    rfl

/-- Certificates for later views are kept as they are, whether or not the view is installed. -/
theorem tally_pending (key : Int) :
    (engine.tally now view certificate attempted).1.pending[key]? =
      if certificate.isValid engine.replicas = true then
        if view < key then engine.pending[key]? else none
      else if key = view then some certificate else engine.pending[key]? := by
  split
  · next valid =>
      rw [tally_of_valid valid, install_pending, Table.getElem?_dropThrough, hold,
        Table.getElem?_insert]
      split
      · next later => rw [if_neg (Int.ne_of_gt later)]
      · rfl
  · next invalid =>
      rw [tally_of_not_valid invalid, hold, Table.getElem?_insert]

/-- All that counting may announce is the certificate that has become valid. -/
theorem broadcast_mem_tally (message : Message) :
    .broadcast message ∈ (engine.tally now view certificate attempted).2 ↔
      certificate.isValid engine.replicas = true ∧
        leaderOf view engine.replicas = engine.self ∧
          message = .viewProof view certificate.attestations := by
  by_cases valid : certificate.isValid engine.replicas = true
  · rw [tally_of_valid valid]
    simp [broadcast_mem_install, valid, hold]
  · rw [tally_of_not_valid valid]
    simp [valid]

end Tally

/-- The certificate for a view once the vote of `sender` is in, and the vote of the replica itself
besides if it joins. -/
def pool (engine : Engine) (sender view : Int) : Certificate :=
  let gathered := (engine.candidacy view).add ⟨sender, view⟩
  if engine.attempted < view then gathered.add ⟨engine.self, view⟩ else gathered

theorem voters_pool (engine : Engine) (sender view : Int) :
    (engine.pool sender view).voters =
      if engine.attempted < view then
        insert engine.self (insert sender (engine.candidacy view).voters)
      else insert sender (engine.candidacy view).voters := by
  unfold pool
  split
  · rw [Certificate.voters_add_vote, Certificate.voters_add_vote]
  · rw [Certificate.voters_add_vote]

def joining (engine : Engine) (view : Int) : List Event :=
  if engine.attempted < view then [.broadcast (.viewChange view)] else []

theorem broadcast_mem_joining (engine : Engine) (view : Int) (message : Message) :
    .broadcast message ∈ engine.joining view ↔
      engine.attempted < view ∧ message = .viewChange view := by
  unfold joining
  split
  · next joins => simp [joins]
  · next stays => simp [stays]

def rearm (engine : Engine) (now : Int) : Engine :=
  { engine with timers := engine.timers.resetProgress now }

/-! ### The transitions -/

section Transitions

variable {engine : Engine} {halts : Int → Bool} {now sender view : Int}
  {attestations : List Attestation}

theorem receiveViewChange_of_ignored
    (ignored : ¬ engine.knows sender = true ∨ view ≤ engine.view ∨
      ¬ (engine.candidacy view).learnsFrom ⟨sender, view⟩ = true) :
    (engine.receiveViewChange halts now sender view).engine = engine ∧
      (engine.receiveViewChange halts now sender view).events = [] := by
  unfold receiveViewChange
  split
  · exact ⟨rfl, rfl⟩
  · next known =>
      split
      · exact ⟨rfl, rfl⟩
      · next newer =>
          split
          · exact ⟨rfl, rfl⟩
          · next learns =>
              simp only [Bool.not_eq_true', Bool.not_eq_false] at known learns
              rcases ignored with unknown | stale | duplicate
              · exact absurd known unknown
              · exact absurd stale newer
              · exact absurd learns duplicate

theorem receiveViewChange_of_counted (calm : halts view = false)
    (known : engine.knows sender = true) (newer : engine.view < view)
    (learns : (engine.candidacy view).learnsFrom ⟨sender, view⟩ = true) :
    (engine.receiveViewChange halts now sender view).engine =
        (engine.tally now view (engine.pool sender view) (max engine.attempted view)).1 ∧
      (engine.receiveViewChange halts now sender view).events =
        engine.joining view ++
          (engine.tally now view (engine.pool sender view) (max engine.attempted view)).2 := by
  have notStale : ¬ view ≤ engine.view := Int.not_le.2 newer
  unfold receiveViewChange
  rw [if_neg (by simp [known]), if_neg notStale, if_neg (by simp [learns])]
  by_cases joins : engine.attempted < view
  · have held : (engine.gather view ⟨sender, view⟩).propose view =
        engine.hold view (engine.pool sender view) (max engine.attempted view) := by
      have gathered : (engine.gather view ⟨sender, view⟩).candidacy view =
          (engine.candidacy view).add ⟨sender, view⟩ := by
        rw [candidacy, gather, Table.getElem?_insert, if_pos rfl]
        rfl
      rw [propose, gather, gathered, gather, hold, pool, if_pos joins]
      simp only [Table.insert_insert]
    rw [if_pos joins, held, settle_hold engine now view _ _ halts calm, joining, if_pos joins]
    exact ⟨rfl, rfl⟩
  · have held : engine.gather view ⟨sender, view⟩ =
        engine.hold view (engine.pool sender view) (max engine.attempted view) := by
      rw [gather, hold, pool, if_neg joins, max_eq_left (Int.not_lt.1 joins)]
    rw [if_neg joins, held, settle_hold engine now view _ _ halts calm, joining, if_neg joins]
    exact ⟨rfl, rfl⟩

theorem receiveViewChange_cases (calm : ∀ view, halts view = false) :
    (((engine.receiveViewChange halts now sender view).engine = engine ∧
        (engine.receiveViewChange halts now sender view).events = []) ∧
      (¬ engine.knows sender = true ∨ view ≤ engine.view ∨
        ¬ (engine.candidacy view).learnsFrom ⟨sender, view⟩ = true)) ∨
    (((engine.receiveViewChange halts now sender view).engine =
          (engine.tally now view (engine.pool sender view) (max engine.attempted view)).1 ∧
        (engine.receiveViewChange halts now sender view).events =
          engine.joining view ++
            (engine.tally now view (engine.pool sender view) (max engine.attempted view)).2) ∧
      engine.knows sender = true ∧ engine.view < view ∧
        (engine.candidacy view).learnsFrom ⟨sender, view⟩ = true) := by
  by_cases counted : engine.knows sender = true ∧ engine.view < view ∧
      (engine.candidacy view).learnsFrom ⟨sender, view⟩ = true
  · exact .inr ⟨receiveViewChange_of_counted (calm view) counted.1 counted.2.1 counted.2.2,
      counted⟩
  · have ignored : ¬ engine.knows sender = true ∨ view ≤ engine.view ∨
        ¬ (engine.candidacy view).learnsFrom ⟨sender, view⟩ = true := by
      by_contra! all
      exact counted ⟨all.1, all.2.1, all.2.2⟩
    exact .inl ⟨receiveViewChange_of_ignored ignored, ignored⟩

theorem progressTimeout_of_last (last : engine.view = maxView) :
    (engine.progressTimeout halts now).engine = engine.rearm now ∧
      (engine.progressTimeout halts now).events = [] := by
  rw [progressTimeout, if_pos last]
  exact ⟨rfl, rfl⟩

theorem progressTimeout_of_next (calm : halts (engine.view + 1) = false)
    (next : engine.view ≠ maxView) :
    (engine.progressTimeout halts now).engine =
        ((engine.rearm now).tally now (engine.view + 1)
          ((engine.candidacy (engine.view + 1)).add ⟨engine.self, engine.view + 1⟩)
          (max engine.attempted (engine.view + 1))).1 ∧
      (engine.progressTimeout halts now).events =
        .broadcast (.viewChange (engine.view + 1)) ::
          ((engine.rearm now).tally now (engine.view + 1)
            ((engine.candidacy (engine.view + 1)).add ⟨engine.self, engine.view + 1⟩)
            (max engine.attempted (engine.view + 1))).2 := by
  have settled := settle_hold (engine.rearm now) now (engine.view + 1)
    ((engine.candidacy (engine.view + 1)).add ⟨engine.self, engine.view + 1⟩)
    (max engine.attempted (engine.view + 1)) halts calm
  rw [progressTimeout, if_neg next]
  constructor
  · exact congrArg Step.engine settled
  · exact congrArg (fun step => Event.broadcast (.viewChange (engine.view + 1)) :: step.events)
      settled

theorem receiveViewProof_of_ignored
    (ignored : ¬ engine.knows sender = true ∨
      ¬ Attestation.quorumFor view attestations engine.replicas = true ∨ view < engine.view) :
    (engine.receiveViewProof now sender view attestations).engine = engine ∧
      (engine.receiveViewProof now sender view attestations).events = [] := by
  unfold receiveViewProof
  split
  · exact ⟨rfl, rfl⟩
  · next known =>
      split
      · exact ⟨rfl, rfl⟩
      · next quorum =>
          rw [if_pos]
          · exact ⟨rfl, rfl⟩
          · simp only [Bool.not_eq_true', Bool.not_eq_false] at known quorum
            rcases ignored with unknown | invalid | stale
            · exact absurd known unknown
            · exact absurd quorum invalid
            · exact stale

/-- A proof of a later view installs it. The progress timer is set twice at the same instant. -/
theorem receiveViewProof_of_later (known : engine.knows sender = true)
    (quorum : Attestation.quorumFor view attestations engine.replicas = true)
    (later : engine.view < view) :
    (engine.receiveViewProof now sender view attestations).engine =
        (engine.install now view (.ofList view attestations)).1 ∧
      (engine.receiveViewProof now sender view attestations).events =
        (engine.install now view (.ofList view attestations)).2 := by
  have notStale : ¬ view < engine.view := Int.not_lt.2 (Int.le_of_lt later)
  unfold receiveViewProof
  rw [if_neg (by simp [known]), if_neg (by simp [quorum]), if_neg notStale, if_pos later]
  rw [install_eq]
  by_cases leads : leaderOf view engine.replicas = engine.self
  · rw [if_pos leads]
    exact ⟨rfl, rfl⟩
  · rw [if_neg leads]
    exact ⟨rfl, rfl⟩

theorem receiveViewProof_of_same (known : engine.knows sender = true)
    (quorum : Attestation.quorumFor view attestations engine.replicas = true)
    (same : engine.view = view) :
    (engine.receiveViewProof now sender view attestations).engine = engine.rearm now ∧
      (engine.receiveViewProof now sender view attestations).events = [] := by
  have notStale : ¬ view < engine.view := by omega
  have notLater : ¬ engine.view < view := by omega
  unfold receiveViewProof
  rw [if_neg (by simp [known]), if_neg (by simp [quorum]), if_neg notStale, if_neg notLater]
  exact ⟨rfl, rfl⟩

theorem receiveViewProof_cases :
    (((engine.receiveViewProof now sender view attestations).engine = engine ∧
        (engine.receiveViewProof now sender view attestations).events = []) ∧
      (¬ engine.knows sender = true ∨
        ¬ Attestation.quorumFor view attestations engine.replicas = true ∨
          view < engine.view)) ∨
    (((engine.receiveViewProof now sender view attestations).engine = engine.rearm now ∧
        (engine.receiveViewProof now sender view attestations).events = []) ∧
      engine.knows sender = true ∧
        Attestation.quorumFor view attestations engine.replicas = true ∧ engine.view = view) ∨
    (((engine.receiveViewProof now sender view attestations).engine =
          (engine.install now view (.ofList view attestations)).1 ∧
        (engine.receiveViewProof now sender view attestations).events =
          (engine.install now view (.ofList view attestations)).2) ∧
      engine.knows sender = true ∧
        Attestation.quorumFor view attestations engine.replicas = true ∧
          engine.view < view) := by
  by_cases accepted : engine.knows sender = true ∧
      Attestation.quorumFor view attestations engine.replicas = true
  · obtain ⟨known, quorum⟩ := accepted
    rcases Int.lt_trichotomy engine.view view with later | same | earlier
    · exact .inr (.inr ⟨receiveViewProof_of_later known quorum later, known, quorum, later⟩)
    · exact .inr (.inl ⟨receiveViewProof_of_same known quorum same, known, quorum, same⟩)
    · have stale := @receiveViewProof_of_ignored engine now sender view attestations
        (.inr (.inr earlier))
      exact .inl ⟨stale, .inr (.inr earlier)⟩
  · have ignored : ¬ engine.knows sender = true ∨
        ¬ Attestation.quorumFor view attestations engine.replicas = true ∨
          view < engine.view := by
      by_contra! all
      exact accepted ⟨all.1, all.2.1⟩
    exact .inl ⟨receiveViewProof_of_ignored ignored, ignored⟩

theorem proofTimeout_of_leads (leads : leaderOf engine.view engine.replicas = engine.self)
    (valid : engine.installed.isValid engine.replicas = true) :
    (engine.proofTimeout now).engine =
        { engine with timers := engine.timers.resetProof now } ∧
      (engine.proofTimeout now).events =
        [.broadcast (.viewProof engine.view engine.installed.attestations)] := by
  have both : (engine.isLeader && engine.installed.isValid engine.replicas) = true := by
    simp [isLeader, leader, leads, valid]
  rw [proofTimeout, if_pos both]
  exact ⟨rfl, rfl⟩

theorem proofTimeout_of_silent
    (silent : ¬ leaderOf engine.view engine.replicas = engine.self ∨
      ¬ engine.installed.isValid engine.replicas = true) :
    (engine.proofTimeout now).engine =
        { engine with timers := engine.timers.disableProof } ∧
      (engine.proofTimeout now).events = [] := by
  have notBoth : ¬ (engine.isLeader && engine.installed.isValid engine.replicas) = true := by
    simp only [isLeader, leader, Bool.and_eq_true]
    rintro ⟨leads, valid⟩
    rcases silent with follows | invalid
    · exact follows (of_decide_eq_true leads)
    · exact invalid valid
  rw [proofTimeout, if_neg notBoth]
  exact ⟨rfl, rfl⟩

theorem proofTimeout_retimes (engine : Engine) (now : Int) :
    ∃ timers, (engine.proofTimeout now).engine = { engine with timers } := by
  unfold proofTimeout
  split
  · exact ⟨_, rfl⟩
  · exact ⟨_, rfl⟩

theorem eq_of_mem_proofTimeout {event : Event}
    (happened : event ∈ (engine.proofTimeout now).events) :
    event = .broadcast (.viewProof engine.view engine.installed.attestations) := by
  unfold proofTimeout at happened
  split at happened
  · exact List.mem_singleton.1 happened
  · exact absurd happened List.not_mem_nil

/-! ### Seats are kept -/

theorem receive_seat (calm : ∀ view, halts view = false) (envelope : Envelope) :
    (engine.receive halts now envelope).engine.seat = engine.seat := by
  obtain ⟨sender, message⟩ := envelope
  cases message with
  | viewChange view =>
      change (engine.receiveViewChange halts now sender view).engine.seat = engine.seat
      rcases @receiveViewChange_cases engine halts now sender view calm with
        ⟨⟨after, -⟩, -⟩ | ⟨⟨after, -⟩, -⟩
      · rw [after]
      · rw [after]
        exact tally_seat _ _ _ _ _
  | viewProof view attestations =>
      change (engine.receiveViewProof now sender view attestations).engine.seat = engine.seat
      rcases @receiveViewProof_cases engine now sender view attestations with
        ⟨⟨after, -⟩, -⟩ | ⟨⟨after, -⟩, -⟩ | ⟨⟨after, -⟩, -⟩
      · rw [after]
      · rw [after]
        rfl
      · rw [after]
        exact install_seat _ _ _ _

theorem progressTimeout_seat (calm : ∀ view, halts view = false) :
    (engine.progressTimeout halts now).engine.seat = engine.seat := by
  by_cases last : engine.view = maxView
  · rw [(progressTimeout_of_last last).1]
    rfl
  · rw [(progressTimeout_of_next (calm _) last).1]
    exact tally_seat _ _ _ _ _

theorem proofTimeout_seat : (engine.proofTimeout now).engine.seat = engine.seat := by
  unfold proofTimeout
  split <;> rfl

/-! ### The timers -/

theorem progressTimeout_not_halted (calm : ∀ view, halts view = false) (halt : Int) :
    (engine.progressTimeout halts now).outcome ≠ .halted halt := by
  by_cases last : engine.view = maxView
  · rw [progressTimeout, if_pos last]
    exact Outcome.noConfusion
  · have settled := settle_hold (engine.rearm now) now (engine.view + 1)
      ((engine.candidacy (engine.view + 1)).add ⟨engine.self, engine.view + 1⟩)
      (max engine.attempted (engine.view + 1)) halts (calm _)
    have outcome := congrArg Step.outcome settled
    rw [progressTimeout, if_neg last]
    intro halted
    exact Outcome.noConfusion (outcome.symm.trans halted)

/-- A progress timer that fires is set anew by the timeout, so that asking it leaves no trace. -/
theorem fireProgress_of_due (due : engine.timers.progress.isDue now = true) :
    (engine.fireProgress halts now).engine = (engine.progressTimeout halts now).engine ∧
      (engine.fireProgress halts now).events = (engine.progressTimeout halts now).events ∧
      (engine.fireProgress halts now).progress =
        some (engine.progressTimeout halts now).outcome := by
  unfold fireProgress TimerPair.consumeProgress Countdown.consume
  rw [if_pos due]
  exact ⟨rfl, rfl, rfl⟩

theorem fireProgress_of_not_due (waiting : ¬ engine.timers.progress.isDue now = true) :
    (engine.fireProgress halts now).engine = engine ∧
      (engine.fireProgress halts now).events = [] ∧
      (engine.fireProgress halts now).progress = none := by
  unfold fireProgress TimerPair.consumeProgress Countdown.consume
  rw [if_neg waiting]
  exact ⟨rfl, rfl, rfl⟩

theorem fireProof_of_due (due : engine.timers.proof.isDue now = true) :
    (engine.fireProof true now).engine = (engine.proofTimeout now).engine ∧
      (engine.fireProof true now).events = (engine.proofTimeout now).events := by
  let asked : Engine :=
    { engine with timers := { engine.timers with proof := engine.timers.proof.disable } }
  have fired : (engine.fireProof true now).engine = (asked.proofTimeout now).engine ∧
      (engine.fireProof true now).events = (asked.proofTimeout now).events := by
    unfold fireProof TimerPair.consumeProof Countdown.consume
    rw [if_pos due]
    exact ⟨rfl, rfl⟩
  -- both timeouts set the proof timer, so that what it was before does not show
  have unseen : (asked.proofTimeout now).engine = (engine.proofTimeout now).engine ∧
      (asked.proofTimeout now).events = (engine.proofTimeout now).events := by
    by_cases leads : leaderOf engine.view engine.replicas = engine.self
    · by_cases valid : engine.installed.isValid engine.replicas = true
      · have first := @proofTimeout_of_leads asked now leads valid
        have second := @proofTimeout_of_leads engine now leads valid
        exact ⟨first.1.trans second.1.symm, first.2.trans second.2.symm⟩
      · have first := @proofTimeout_of_silent asked now (.inr valid)
        have second := @proofTimeout_of_silent engine now (.inr valid)
        exact ⟨first.1.trans second.1.symm, first.2.trans second.2.symm⟩
    · have first := @proofTimeout_of_silent asked now (.inl leads)
      have second := @proofTimeout_of_silent engine now (.inl leads)
      exact ⟨first.1.trans second.1.symm, first.2.trans second.2.symm⟩
  exact ⟨fired.1.trans unseen.1, fired.2.trans unseen.2⟩

theorem fireProof_of_early (periodic : Bool)
    (waiting : ¬ engine.timers.proof.isDue now = true) :
    engine.fireProof periodic now = { engine } := by
  unfold fireProof TimerPair.consumeProof Countdown.consume
  rw [if_neg waiting]
  rfl

theorem fireProof_of_not_due (waiting : ¬ engine.timers.proof.isDue now = true) :
    (engine.fireProof true now).engine = engine ∧
      (engine.fireProof true now).events = [] := by
  rw [fireProof_of_early true waiting]
  exact ⟨rfl, rfl⟩

theorem fireProof_retimes (engine : Engine) (now : Int) :
    ∃ timers, (engine.fireProof true now).engine = { engine with timers } := by
  by_cases due : engine.timers.proof.isDue now = true
  · rw [(fireProof_of_due due).1]
    exact engine.proofTimeout_retimes now
  · rw [(fireProof_of_not_due due).1]
    exact ⟨engine.timers, rfl⟩

theorem eq_of_mem_fireProof {event : Event}
    (happened : event ∈ (engine.fireProof true now).events) :
    event = .broadcast (.viewProof engine.view engine.installed.attestations) := by
  by_cases due : engine.timers.proof.isDue now = true
  · rw [(fireProof_of_due due).2] at happened
    exact eq_of_mem_proofTimeout happened
  · rw [(fireProof_of_not_due due).2] at happened
    exact absurd happened List.not_mem_nil

theorem fireProgress_seat (calm : ∀ view, halts view = false) :
    (engine.fireProgress halts now).engine.seat = engine.seat := by
  by_cases due : engine.timers.progress.isDue now = true
  · rw [(fireProgress_of_due due).1]
    exact progressTimeout_seat calm
  · rw [(fireProgress_of_not_due due).1]

theorem fireProof_seat : (engine.fireProof true now).engine.seat = engine.seat := by
  by_cases due : engine.timers.proof.isDue now = true
  · rw [(fireProof_of_due due).1]
    exact proofTimeout_seat
  · rw [(fireProof_of_not_due due).1]

theorem fireProgress_not_halted (calm : ∀ view, halts view = false) (halt : Int) :
    (engine.fireProgress halts now).progress ≠ some (.halted halt) := by
  intro fired
  by_cases due : engine.timers.progress.isDue now = true
  · rw [(fireProgress_of_due due).2.2] at fired
    exact progressTimeout_not_halted calm halt (Option.some.inj fired)
  · rw [(fireProgress_of_not_due due).2.2] at fired
    cases fired

theorem fireDue_of_halted {view : Int} (periodic : Bool)
    (halted : (engine.fireProgress halts now).progress = some (.halted view)) :
    engine.fireDue halts periodic now = engine.fireProgress halts now := by
  unfold fireDue
  simp only [halted]

theorem fireDue_of_not_halted (periodic : Bool)
    (settled : ∀ view, (engine.fireProgress halts now).progress ≠ some (.halted view)) :
    (engine.fireDue halts periodic now).engine =
        ((engine.fireProgress halts now).engine.fireProof periodic now).engine ∧
      (engine.fireDue halts periodic now).events =
        (engine.fireProgress halts now).events ++
          ((engine.fireProgress halts now).engine.fireProof periodic now).events ∧
      (engine.fireDue halts periodic now).progress =
        (engine.fireProgress halts now).progress := by
  unfold fireDue
  cases fired : (engine.fireProgress halts now).progress with
  | none =>
      simp only [fired]
      exact ⟨trivial, trivial, trivial⟩
  | some outcome =>
      cases outcome with
      | settled verdict =>
          simp only [fired]
          exact ⟨trivial, trivial, trivial⟩
      | halted view => exact absurd fired (settled view)

theorem fireDue_eq (calm : ∀ view, halts view = false) (periodic : Bool) :
    (engine.fireDue halts periodic now).engine =
        ((engine.fireProgress halts now).engine.fireProof periodic now).engine ∧
      (engine.fireDue halts periodic now).events =
        (engine.fireProgress halts now).events ++
          ((engine.fireProgress halts now).engine.fireProof periodic now).events := by
  have both := fireDue_of_not_halted periodic (@fireProgress_not_halted engine halts now calm)
  exact ⟨both.1, both.2.1⟩

theorem fireDue_not_halted (calm : ∀ view, halts view = false) (periodic : Bool) (halt : Int) :
    (engine.fireDue halts periodic now).progress ≠ some (.halted halt) := by
  rw [(fireDue_of_not_halted periodic (fireProgress_not_halted calm)).2.2]
  exact fireProgress_not_halted calm halt

theorem fireDue_seat (calm : ∀ view, halts view = false) :
    (engine.fireDue halts true now).engine.seat = engine.seat := by
  rw [(fireDue_eq calm true).1, fireProof_seat, fireProgress_seat calm]

end Transitions

end Engine

end ViewSync
