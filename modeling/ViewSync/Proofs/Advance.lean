import ViewSync.Proofs.Watcher

/-!
What a call does to the view.

A call either leaves the view and its certificate alone, with nothing told of it, or installs one
later view on a valid certificate, which it tells last. The proof timer never installs a view. When
it is due it announces the installed one, or is disarmed for good. A replica that is halted had a
quorum for a later view in hand.
-/

namespace ViewSync

def Event.announcement? : Event → Option (Int × List Attestation)
  | .broadcast (.viewProof view attestations) => some (view, attestations)
  | _ => none

def announcements (events : List Event) : List (Int × List Attestation) :=
  events.filterMap Event.announcement?

theorem mem_announcements {events : List Event} {view : Int} {attestations : List Attestation} :
    (view, attestations) ∈ announcements events ↔
      .broadcast (.viewProof view attestations) ∈ events := by
  rw [announcements, List.mem_filterMap]
  constructor
  · rintro ⟨event, happened, told⟩
    cases event with
    | broadcast message =>
        cases message with
        | viewChange view => cases told
        | viewProof view attestations =>
            cases told
            exact happened
    | quorumCollected view => cases told
    | viewInstalled view leader => cases told
  · intro happened
    exact ⟨_, happened, rfl⟩

namespace Engine

theorem Quiet.announcements_eq_nil {events : List Event} (quiet : Quiet events) :
    announcements events = [] := by
  apply List.eq_nil_iff_forall_not_mem.2
  rintro ⟨view, attestations⟩ listed
  exact quiet.not_announced view attestations (mem_announcements.1 listed)

structure Stays (before after : Engine) (events : List Event) : Prop where
  view : after.view = before.view
  installed : after.installed = before.installed
  proof : after.timers.proof = before.timers.proof
  quiet : Quiet events

def arrival (replicas self view : Int) (certificate : Certificate) : List Event :=
  (if leaderOf view replicas = self then
    [.broadcast (.viewProof view certificate.attestations)]
  else []) ++ [.viewInstalled view (leaderOf view replicas)]

/-- A later view is installed on a valid certificate, and this is the last that happens. -/
structure Advances (before after : Engine) (now : Int) (events : List Event) : Prop where
  later : before.view < after.view
  valid : after.installed.isValid before.replicas = true
  proof : after.timers.proof =
    if leaderOf after.view before.replicas = before.self then
      .reset now (nanosOfMillis before.timers.proofInterval)
    else before.timers.proof.disable
  told : ∃ earlier, Quiet earlier ∧
    events = earlier ++ arrival before.replicas before.self after.view after.installed

section Changes

variable {before after : Engine} {now : Int} {set : Bool} {events : List Event}

theorem install_arrival (engine : Engine) (now view : Int) (certificate : Certificate) :
    (engine.install now view certificate).2 =
      arrival engine.replicas engine.self view certificate := by
  rw [install_eq, arrival]
  split <;> rfl

theorem Change.stays_or_advances (change : before.Change now set after events) :
    before.Stays after events ∨ before.Advances after now events := by
  cases change with
  | gather pending attempted quiet => exact .inl ⟨rfl, rfl, rfl, quiet⟩
  | rearm pending attempted quiet => exact .inl ⟨rfl, rfl, rfl, quiet⟩
  | @install pending attempted earlier quiet view certificate later valid =>
      right
      constructor
      · rw [install_view]
        exact later
      · rw [install_installed]
        exact valid
      · rw [install_view]
        exact install_proof _ _ _ _
      · rw [install_view, install_installed, install_arrival]
        exact ⟨earlier, quiet, rfl⟩

theorem Advances.installations_eq (advances : before.Advances after now events) :
    installations events = [(after.view, leaderOf after.view before.replicas)] := by
  obtain ⟨earlier, quiet, told⟩ := advances.told
  have rest : installations (arrival before.replicas before.self after.view after.installed) =
      [(after.view, leaderOf after.view before.replicas)] := by
    unfold arrival
    split <;> rfl
  rw [told, installations, List.filterMap_append]
  exact (congrArg (· ++ _) quiet.installations_eq_nil).trans rest

theorem Advances.announcements_eq (advances : before.Advances after now events) :
    announcements events =
      if leaderOf after.view before.replicas = before.self then
        [(after.view, after.installed.attestations)]
      else [] := by
  obtain ⟨earlier, quiet, told⟩ := advances.told
  have rest : announcements (arrival before.replicas before.self after.view after.installed) =
      if leaderOf after.view before.replicas = before.self then
        [(after.view, after.installed.attestations)]
      else [] := by
    unfold arrival
    split <;> rfl
  rw [told, announcements, List.filterMap_append]
  exact (congrArg (· ++ _) quiet.announcements_eq_nil).trans rest

theorem Advances.getLast? (advances : before.Advances after now events) :
    events.getLast? = some (.viewInstalled after.view (leaderOf after.view before.replicas)) := by
  obtain ⟨earlier, -, told⟩ := advances.told
  rw [told, arrival, ← List.append_assoc, List.getLast?_concat]

/-- A proof timer that is due announces the view, if the replica does so time and again and has a
view to prove. Otherwise it is disarmed. -/
theorem fireProof_cases (engine : Engine) (periodic : Bool) (now : Int) :
    (engine.timers.proof.isDue now = false ∧ engine.fireProof periodic now = { engine }) ∨
    (engine.timers.proof.isDue now = true ∧
      (engine.fireProof periodic now).engine =
        { engine with timers := engine.timers.disableProof } ∧
      (engine.fireProof periodic now).events = [] ∧
      ¬ (periodic = true ∧ leaderOf engine.view engine.replicas = engine.self ∧
        engine.installed.isValid engine.replicas = true)) ∨
    (engine.timers.proof.isDue now = true ∧
      (engine.fireProof periodic now).engine =
        { engine with timers := engine.timers.resetProof now } ∧
      (engine.fireProof periodic now).events =
        [.broadcast (.viewProof engine.view engine.installed.attestations)] ∧
      periodic = true ∧ leaderOf engine.view engine.replicas = engine.self ∧
        engine.installed.isValid engine.replicas = true) := by
  by_cases due : engine.timers.proof.isDue now = true
  · right
    cases periodic with
    | false =>
        have fired : engine.fireProof false now =
            { engine := { engine with timers := engine.timers.disableProof } } := by
          unfold fireProof TimerPair.consumeProof Countdown.consume
          rw [if_pos due]
          rfl
        rw [fired]
        exact .inl ⟨due, rfl, rfl, fun impossible => Bool.false_ne_true impossible.1⟩
    | true =>
        rw [(fireProof_of_due due).1, (fireProof_of_due due).2]
        by_cases leads : leaderOf engine.view engine.replicas = engine.self ∧
            engine.installed.isValid engine.replicas = true
        · obtain ⟨set, told⟩ := @proofTimeout_of_leads engine now leads.1 leads.2
          exact .inr ⟨due, set, told, rfl, leads⟩
        · obtain ⟨set, told⟩ := @proofTimeout_of_silent engine now (not_and_or.1 leads)
          exact .inl ⟨due, set, told, fun all => leads all.2⟩
  · exact .inl ⟨Bool.eq_false_of_not_eq_true due, fireProof_of_early periodic due⟩

/-- Whoever is halted had a quorum for a later view in hand. -/
theorem settle_halted {engine : Engine} {halts : Int → Bool} {view halt : Int}
    (halted : (engine.settle halts now view).outcome = .halted halt) : halt = view := by
  unfold settle at halted
  split at halted
  · cases halted
  · split at halted
    · split at halted
      · cases halted
        rfl
      · cases halted
    · cases halted

theorem receive_halted {engine : Engine} {halts : Int → Bool} {envelope : Envelope} {view : Int}
    (halted : (engine.receive halts now envelope).outcome = .halted view) :
    engine.view < view := by
  obtain ⟨sender, message⟩ := envelope
  cases message with
  | viewChange proposed =>
      change (engine.receiveViewChange halts now sender proposed).outcome = _ at halted
      unfold receiveViewChange at halted
      split at halted
      · cases halted
      · split at halted
        · cases halted
        · next newer =>
            have later : engine.view < proposed := Int.not_le.1 newer
            split at halted
            · cases halted
            · split at halted
              · exact settle_halted halted ▸ later
              · exact settle_halted halted ▸ later
  | viewProof proved attestations =>
      change (engine.receiveViewProof now sender proved attestations).outcome = _ at halted
      unfold receiveViewProof at halted
      split at halted
      · cases halted
      · split at halted
        · cases halted
        · split at halted
          · cases halted
          · cases halted

theorem fireProgress_halted {engine : Engine} {halts : Int → Bool} {view : Int}
    (halted : (engine.fireProgress halts now).progress = some (.halted view)) :
    engine.view < view := by
  by_cases due : engine.timers.progress.isDue now = true
  · rw [(fireProgress_of_due due).2.2, progressTimeout] at halted
    split at halted
    · cases halted
    · have next : view = engine.view + 1 := settle_halted (Option.some.inj halted)
      rw [next]
      exact Int.lt_succ _
  · rw [(fireProgress_of_not_due due).2.2] at halted
    cases halted

end Changes

end Engine

end ViewSync
