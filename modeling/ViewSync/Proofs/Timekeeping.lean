import ViewSync.Proofs.Backing
import ViewSync.Proofs.Transition

/-!
What a call does to the timers, halted or not.

Whoever watches for quorums may halt a call in the middle. Whether or not that happens, a call
changes a replica in one of three ways: it gathers votes and leaves view and timers alone; or it
sets the progress timer besides; or it installs a later view on a valid certificate, which sets the
progress timer, and sets or disarms the proof timer. Which of the three it is can be told from what
is seen of the call.
-/

namespace ViewSync

namespace Event

def isInstallation : Event → Bool
  | .viewInstalled _ _ => true
  | _ => false

def isAnnouncement : Event → Bool
  | .broadcast (.viewProof _ _) => true
  | _ => false

end Event

namespace Engine

def installs (events : List Event) : Bool :=
  events.any Event.isInstallation

def announces (events : List Event) : Bool :=
  events.any Event.isAnnouncement

def Quiet (events : List Event) : Prop :=
  installs events = false ∧ announces events = false

theorem quiet_nil : Quiet [] :=
  ⟨rfl, rfl⟩

theorem installs_append (first second : List Event) :
    installs (first ++ second) = (installs first || installs second) :=
  List.any_append

theorem announces_append (first second : List Event) :
    announces (first ++ second) = (announces first || announces second) :=
  List.any_append

/-- What a call makes of a replica, and whether the progress timer was set. -/
inductive Change (before : Engine) (now : Int) : Bool → Engine → List Event → Prop
  | gather (pending : Table Certificate) (attempted : Int) {events : List Event}
      (quiet : Quiet events) : Change before now false { before with pending, attempted } events
  | rearm (pending : Table Certificate) (attempted : Int) {events : List Event}
      (quiet : Quiet events) :
      Change before now true { before.rearm now with pending, attempted } events
  | install (pending : Table Certificate) (attempted : Int) {events : List Event}
      (quiet : Quiet events) (view : Int) (certificate : Certificate)
      (later : before.view < view) (valid : certificate.isValid before.replicas = true) :
      Change before now true
        (install { before with pending, attempted } now view certificate).1
        (events ++ (install { before with pending, attempted } now view certificate).2)

section Install

variable (engine : Engine) (now view : Int) (certificate : Certificate)

theorem installs_install : installs (engine.install now view certificate).2 = true := by
  rw [install_eq]
  split
  · rfl
  · rfl

theorem announces_install :
    announces (engine.install now view certificate).2 =
      decide (leaderOf view engine.replicas = engine.self) := by
  rw [install_eq]
  split
  · next leads => exact (decide_eq_true leads).symm
  · next follows => exact (decide_eq_false follows).symm

/-- An installation sets the progress timer, so that it does not matter when that was done last. -/
theorem install_rearm :
    (engine.rearm now).install now view certificate = engine.install now view certificate := by
  rw [install_eq, install_eq]
  rfl

end Install

namespace Change

variable {before after : Engine} {now : Int} {set : Bool} {events : List Event}

theorem seat (change : before.Change now set after events) : after.seat = before.seat := by
  cases change with
  | gather pending attempted quiet => rfl
  | rearm pending attempted quiet => rfl
  | install pending attempted quiet view certificate later valid => exact install_seat _ _ _ _

theorem progress (change : before.Change now set after events) :
    after.timers.progress =
      if set then .reset now (nanosOfMillis before.timers.progressInterval)
      else before.timers.progress := by
  cases change with
  | gather pending attempted quiet => rfl
  | rearm pending attempted quiet => rfl
  | install pending attempted quiet view certificate later valid => exact install_progress _ _ _ _

theorem proof (change : before.Change now set after events) :
    after.timers.proof =
      if announces events then .reset now (nanosOfMillis before.timers.proofInterval)
      else if installs events then before.timers.proof.disable
      else before.timers.proof := by
  cases change with
  | gather pending attempted quiet => simp [quiet.1, quiet.2]
  | rearm pending attempted quiet =>
      simp only [quiet.1, quiet.2, Bool.false_eq_true, if_false]
      rfl
  | install pending attempted quiet view certificate later valid =>
      rw [install_proof, announces_append, installs_append, announces_install, installs_install]
      simp only [quiet.1, quiet.2, Bool.false_or, decide_eq_true_eq, if_true]

/-- More may have happened before, as long as it was quiet. -/
theorem after_quiet {earlier : List Event} (change : before.Change now set after events)
    (quiet : Quiet earlier) : before.Change now set after (earlier ++ events) := by
  have joined : ∀ {later}, Quiet later → Quiet (earlier ++ later) := by
    intro later calm
    constructor
    · rw [installs_append, quiet.1, calm.1]
      rfl
    · rw [announces_append, quiet.2, calm.2]
      rfl
  cases change with
  | gather pending attempted calm => exact .gather pending attempted (joined calm)
  | rearm pending attempted calm => exact .rearm pending attempted (joined calm)
  | install pending attempted calm view certificate later valid =>
      rw [← List.append_assoc]
      exact .install pending attempted (joined calm) view certificate later valid

end Change

/-! ### The calls -/

section Calls

variable (engine : Engine) (halts : Int → Bool) (now : Int)

theorem settle_cases (view : Int) :
    ((engine.settle halts now view).engine = engine ∧
        Quiet (engine.settle halts now view).events) ∨
      ∃ certificate : Certificate, certificate.isValid engine.replicas = true ∧
        (engine.settle halts now view).engine = (engine.install now view certificate).1 ∧
        (engine.settle halts now view).events =
          .quorumCollected view :: (engine.install now view certificate).2 := by
  unfold settle
  cases stored : engine.pending[view]? with
  | none => exact .inl ⟨rfl, quiet_nil⟩
  | some certificate =>
      change ((if _ then _ else _ : Step).engine = engine ∧
        Quiet (if _ then _ else _ : Step).events) ∨ _
      by_cases valid : certificate.isValid engine.replicas = true
      · by_cases halted : halts view = true
        · left
          simp only [valid, halted, if_true]
          exact ⟨trivial, rfl, rfl⟩
        · right
          refine ⟨certificate, valid, ?_⟩
          simp only [valid, halted, if_true, Bool.false_eq_true, if_false]
          exact ⟨trivial, trivial⟩
      · left
        simp only [valid, Bool.false_eq_true, if_false]
        exact ⟨trivial, quiet_nil⟩

def renews (message : Message) (step : Step) : Bool :=
  installs step.events ||
    match message with
    | .viewChange _ => false
    | .viewProof _ _ => step.outcome = .settled .accepted

theorem settle_change {view : Int} (pending : Table Certificate) (attempted : Int)
    (later : engine.view < view) {step : Step}
    (settled : step = settle { engine with pending, attempted } halts now view) :
    engine.Change now (installs step.events) step.engine step.events := by
  rw [settled]
  rcases settle_cases { engine with pending, attempted } halts now view with
    ⟨same, quiet⟩ | ⟨certificate, valid, installed, events⟩
  · rw [same, quiet.1]
    exact .gather pending attempted quiet
  · have seen : installs (settle { engine with pending, attempted } halts now view).events =
        true := by
      rw [events]
      exact installs_install _ _ _ _
    rw [seen, installed, events]
    have counting : Quiet [.quorumCollected view] := ⟨rfl, rfl⟩
    exact .install pending attempted counting view certificate later valid

theorem receiveViewChange_change (sender view : Int) :
    engine.Change now (installs (engine.receiveViewChange halts now sender view).events)
      (engine.receiveViewChange halts now sender view).engine
      (engine.receiveViewChange halts now sender view).events := by
  have unchanged : engine.Change now false engine [] :=
    .gather engine.pending engine.attempted quiet_nil
  unfold receiveViewChange
  split
  · exact unchanged
  · split
    · exact unchanged
    · next newer =>
        split
        · exact unchanged
        · have later : engine.view < view := Int.not_le.1 newer
          split
          · have joins : Quiet [.broadcast (.viewChange view)] := ⟨rfl, rfl⟩
            exact (engine.settle_change halts now _ _ later rfl).after_quiet joins
          · exact engine.settle_change halts now _ engine.attempted later rfl

theorem receiveViewProof_accepted_iff (sender view : Int) (attestations : List Attestation) :
    (engine.receiveViewProof now sender view attestations).outcome = .settled .accepted ↔
      engine.knows sender = true ∧
        Attestation.quorumFor view attestations engine.replicas = true ∧ engine.view ≤ view := by
  unfold receiveViewProof
  cases known : engine.knows sender with
  | false => simp
  | true =>
      cases quorum : Attestation.quorumFor view attestations engine.replicas with
      | false => simp
      | true =>
          by_cases stale : view < engine.view
          · simp [stale]
          · simp [stale, Int.not_lt.1 stale]

theorem receiveViewProof_change (sender view : Int) (attestations : List Attestation) :
    engine.Change now
      (renews (.viewProof view attestations)
        (engine.receiveViewProof now sender view attestations))
      (engine.receiveViewProof now sender view attestations).engine
      (engine.receiveViewProof now sender view attestations).events := by
  have accepted := engine.receiveViewProof_accepted_iff now sender view attestations
  have seen : engine.knows sender = true →
      Attestation.quorumFor view attestations engine.replicas = true → engine.view ≤ view →
        renews (.viewProof view attestations)
          (engine.receiveViewProof now sender view attestations) = true := by
    intro known quorum reached
    simp only [renews, accepted.2 ⟨known, quorum, reached⟩, decide_true, Bool.or_true]
  rcases @receiveViewProof_cases engine now sender view attestations with
    ⟨⟨same, silent⟩, ignored⟩ | ⟨⟨set, silent⟩, known, quorum, present⟩ |
      ⟨⟨installed, events⟩, known, quorum, later⟩
  · have refused : ¬ (engine.receiveViewProof now sender view attestations).outcome =
        .settled .accepted := by
      rw [accepted]
      rintro ⟨known, quorum, reached⟩
      rcases ignored with unknown | invalid | stale
      · exact unknown known
      · exact invalid quorum
      · omega
    have unseen : renews (.viewProof view attestations)
        (engine.receiveViewProof now sender view attestations) = false := by
      simp only [renews, silent, refused, decide_false, Bool.or_false]
      rfl
    rw [unseen, same, silent]
    exact .gather engine.pending engine.attempted quiet_nil
  · rw [seen known quorum (Int.le_of_eq present), set, silent]
    exact .rearm engine.pending engine.attempted quiet_nil
  · rw [seen known quorum (Int.le_of_lt later), installed, events]
    exact .install engine.pending engine.attempted quiet_nil view _ later
      (Certificate.isValid_ofList quorum)

theorem receive_change (envelope : Envelope) :
    engine.Change now (renews envelope.message (engine.receive halts now envelope))
      (engine.receive halts now envelope).engine (engine.receive halts now envelope).events := by
  obtain ⟨sender, message⟩ := envelope
  cases message with
  | viewChange view =>
      have flag : renews (.viewChange view) (engine.receiveViewChange halts now sender view) =
          installs (engine.receiveViewChange halts now sender view).events := Bool.or_false _
      change engine.Change now
        (renews (.viewChange view) (engine.receiveViewChange halts now sender view)) _ _
      rw [flag]
      exact engine.receiveViewChange_change halts now sender view
  | viewProof view attestations =>
      exact engine.receiveViewProof_change now sender view attestations

theorem progressTimeout_change :
    engine.Change now true (engine.progressTimeout halts now).engine
      (engine.progressTimeout halts now).events := by
  unfold progressTimeout
  split
  · exact .rearm engine.pending engine.attempted quiet_nil
  · let next := engine.view + 1
    let proposed := (engine.propose next).rearm now
    have proposal : Quiet [.broadcast (.viewChange next)] := ⟨rfl, rfl⟩
    change engine.Change now true (proposed.settle halts now next).engine
      ([.broadcast (.viewChange next)] ++ (proposed.settle halts now next).events)
    rcases proposed.settle_cases halts now next with
      ⟨same, quiet⟩ | ⟨certificate, valid, installed, events⟩
    · rw [same]
      refine Change.after_quiet ?_ proposal
      exact .rearm _ _ quiet
    · have later : engine.view < next := Int.lt_succ engine.view
      have counting : Quiet [.quorumCollected next] := ⟨rfl, rfl⟩
      rw [installed, events, install_rearm]
      exact (Change.install _ _ counting next certificate later valid).after_quiet proposal

end Calls

/-! ### The timers after a call -/

/-- The timers after a call at `now`, by what is seen of the call: whether the progress timer was
set, and whether the view was announced. A proof timer that runs after the call was set with the
announcement or ran before. -/
structure Retimes (before after : Engine) (now : Int) (set announced : Bool) : Prop where
  seat : after.seat = before.seat
  progress : after.timers.progress =
    if set then .reset now (nanosOfMillis before.timers.progressInterval)
    else before.timers.progress
  proof : after.timers.proof.armed = true → after.timers.proof =
    if announced then .reset now (nanosOfMillis before.timers.proofInterval)
    else before.timers.proof

section Retiming

variable {first second third : Engine} {now : Int} {set announced : Bool} {events : List Event}

theorem Retimes.rfl : first.Retimes first now false false :=
  ⟨Eq.refl _, Eq.refl _, fun _ => Eq.refl _⟩

theorem Retimes.trans {setAfter announcedAfter : Bool}
    (before : first.Retimes second now set announced)
    (after : second.Retimes third now setAfter announcedAfter) :
    first.Retimes third now (set || setAfter) (announced || announcedAfter) := by
  constructor
  · exact after.seat.trans before.seat
  · rw [after.progress, before.progress, seat_progressInterval before.seat]
    cases set <;> cases setAfter <;> rfl
  · intro armed
    have last := after.proof armed
    rw [seat_proofInterval before.seat] at last
    cases announcedAfter with
    | true =>
        rw [last, Bool.or_true]
        rfl
    | false =>
        simp only [Bool.false_eq_true, if_false] at last
        rw [last] at armed ⊢
        rw [before.proof armed, Bool.or_false]

theorem Change.retimes (change : first.Change now set second events) :
    first.Retimes second now set (announces events) := by
  refine ⟨change.seat, change.progress, ?_⟩
  intro armed
  rw [change.proof] at armed ⊢
  split at armed
  · next announced => rw [if_pos announced, if_pos announced]
  · next quiet =>
      split at armed
      · cases armed
      · next stays => rw [if_neg quiet, if_neg stays, if_neg quiet]

inductive ProofAsked (before : Engine) (now : Int) : Engine → List Event → Prop
  | waiting (early : before.timers.proof.isDue now = false) : ProofAsked before now before []
  | silent {after : Engine} (due : before.timers.proof.isDue now = true)
      (disarmed : after = { before with timers := before.timers.disableProof }) :
      ProofAsked before now after []
  | announced {after : Engine} {events : List Event}
      (due : before.timers.proof.isDue now = true)
      (reset : after = { before with timers := before.timers.resetProof now })
      (announces : announces events = true) : ProofAsked before now after events

theorem ProofAsked.retimes (asked : first.ProofAsked now second events) :
    first.Retimes second now false (announces events) := by
  cases asked with
  | waiting early => exact .rfl
  | silent due disarmed =>
      rw [disarmed]
      constructor
      · rfl
      · rfl
      · intro armed
        cases armed
  | announced due reset announces =>
      rw [reset, announces]
      exact ⟨rfl, rfl, fun _ => rfl⟩

end Retiming

/-! ### Asking the timers -/

section Asking

variable (engine : Engine) (halts : Int → Bool) (periodic : Bool) (now : Int)

theorem fireProgress_asked :
    (engine.fireProgress halts now).progress.isSome = engine.timers.progress.isDue now := by
  by_cases due : engine.timers.progress.isDue now = true
  · rw [(fireProgress_of_due due).2.2, due]
    rfl
  · rw [(fireProgress_of_not_due due).2.2, Bool.eq_false_of_not_eq_true due]
    rfl

theorem fireProgress_change :
    engine.Change now (engine.timers.progress.isDue now)
      (engine.fireProgress halts now).engine (engine.fireProgress halts now).events := by
  by_cases due : engine.timers.progress.isDue now = true
  · rw [(fireProgress_of_due due).1, (fireProgress_of_due due).2.1, due]
    exact engine.progressTimeout_change halts now
  · rw [(fireProgress_of_not_due due).1, (fireProgress_of_not_due due).2.1,
      Bool.eq_false_of_not_eq_true due]
    exact .gather engine.pending engine.attempted quiet_nil

theorem proofAsked_fireProof :
    engine.ProofAsked now (engine.fireProof periodic now).engine
      (engine.fireProof periodic now).events := by
  by_cases due : engine.timers.proof.isDue now = true
  · cases periodic with
    | false =>
        have fired : engine.fireProof false now =
            { engine := { engine with timers := engine.timers.disableProof } } := by
          unfold fireProof TimerPair.consumeProof Countdown.consume
          rw [if_pos due]
          rfl
        rw [fired]
        exact .silent due rfl
    | true =>
        rw [(fireProof_of_due due).1, (fireProof_of_due due).2]
        by_cases leads : leaderOf engine.view engine.replicas = engine.self ∧
            engine.installed.isValid engine.replicas = true
        · rw [(proofTimeout_of_leads leads.1 leads.2).1, (proofTimeout_of_leads leads.1 leads.2).2]
          exact .announced due rfl rfl
        · rw [(proofTimeout_of_silent (not_and_or.1 leads)).1,
            (proofTimeout_of_silent (not_and_or.1 leads)).2]
          exact .silent due rfl
  · rw [fireProof_of_early periodic due]
    exact .waiting (Bool.eq_false_of_not_eq_true due)

theorem fireDue_asked :
    (engine.fireDue halts periodic now).progress.isSome = engine.timers.progress.isDue now := by
  rw [← engine.fireProgress_asked halts now]
  by_cases halted : ∃ view, (engine.fireProgress halts now).progress = some (.halted view)
  · obtain ⟨view, halted⟩ := halted
    rw [fireDue_of_halted periodic halted]
  · rw [(fireDue_of_not_halted periodic (not_exists.1 halted)).2.2]

theorem fireDue_retimes :
    engine.Retimes (engine.fireDue halts periodic now).engine now
      (engine.timers.progress.isDue now)
      (announces (engine.fireDue halts periodic now).events) := by
  have first := (engine.fireProgress_change halts now).retimes
  by_cases halted : ∃ view, (engine.fireProgress halts now).progress = some (.halted view)
  · obtain ⟨view, halted⟩ := halted
    rw [fireDue_of_halted periodic halted]
    exact first
  · have settled := fireDue_of_not_halted periodic (not_exists.1 halted)
    have second := (engine.fireProgress halts now).engine.proofAsked_fireProof periodic now
    rw [settled.1, settled.2.1, announces_append, ← Bool.or_false (Countdown.isDue _ _)]
    exact first.trans second.retimes

/-- A proof timer that runs after both timers were asked was set just now or was not due. -/
theorem proof_rests (settled : ∀ view, (engine.fireProgress halts now).progress ≠
      some (.halted view))
    (armed : (engine.fireDue halts periodic now).engine.timers.proof.armed = true) :
    announces (engine.fireDue halts periodic now).events = true ∨
      engine.timers.proof.isDue now = false := by
  have both := fireDue_of_not_halted periodic settled
  rw [both.1] at armed
  rw [both.2.1, announces_append]
  have asked := (engine.fireProgress halts now).engine.proofAsked_fireProof periodic now
  generalize ((engine.fireProgress halts now).engine.fireProof periodic now).engine = after
    at armed asked
  generalize ((engine.fireProgress halts now).engine.fireProof periodic now).events = events
    at asked ⊢
  cases asked with
  | waiting early =>
      have first := (engine.fireProgress_change halts now).retimes.proof armed
      cases announced : announces (engine.fireProgress halts now).events with
      | true => exact .inl rfl
      | false =>
          rw [announced, if_neg Bool.false_ne_true] at first
          rw [first] at early
          exact .inr early
  | silent due disarmed =>
      rw [disarmed] at armed
      cases armed
  | announced due reset announced =>
      rw [announced]
      exact .inl (Bool.or_true _)

end Asking

end Engine

end ViewSync
