import ViewSync.Proofs.Timekeeping

/-!
Timers mirror the role.

Whether a replica leads is told from its view and is written down nowhere, so every call has to set
the timers right. It does: once a replica has started its progress timer always runs, and its proof
timer runs exactly when it leads a view that it has a certificate for, which is any view but the
first. This holds at whatever instants the replica is called, and also when some calls are halted
in the middle.
-/

namespace ViewSync

inductive Occasion
  | receive (envelope : Envelope)
  | progressTimeout
  | proofTimeout
  /-- The progress timer is asked, and the timeout is reported if it has fired. -/
  | askProgress
  | askProof
deriving DecidableEq, Repr

/-- An occasion at an instant, and the views whose quorums make the watcher halt the replica. -/
structure Incident where
  now : Int
  halts : Int → Bool
  occasion : Occasion

namespace Engine

def undergo (engine : Engine) (incident : Incident) : Engine :=
  match incident.occasion with
  | .receive envelope => (engine.receive incident.halts incident.now envelope).engine
  | .progressTimeout => (engine.progressTimeout incident.halts incident.now).engine
  | .proofTimeout => (engine.proofTimeout incident.now).engine
  | .askProgress => (engine.fireProgress incident.halts incident.now).engine
  | .askProof => (engine.fireProof true incident.now).engine

def through (engine : Engine) (incidents : List Incident) : Engine :=
  incidents.foldl undergo engine

theorem isLeader_iff {engine : Engine} :
    engine.isLeader = true ↔ leaderOf engine.view engine.replicas = engine.self :=
  decide_eq_true_iff

/-- Every view but the first is certified, the progress timer runs, and the proof timer runs when
there is a view to prove. -/
structure Mirrors (engine : Engine) : Prop where
  started : 0 ≤ engine.view
  certified : engine.installed.isValid engine.replicas = true ↔ 0 < engine.view
  waiting : engine.timers.progress.armed = true
  announcing : engine.timers.proof.armed = true ↔ 0 < engine.view ∧ engine.isLeader = true

section Steps

variable {engine after : Engine} {halts : Int → Bool} {now : Int} {set : Bool}
  {events : List Event}

theorem mirrors_install (before : Engine) (now view : Int) (certificate : Certificate)
    (positive : 0 < view) (valid : certificate.isValid before.replicas = true) :
    (before.install now view certificate).1.Mirrors := by
  have roster := seat_replicas (before.install_seat now view certificate)
  have self := seat_self (before.install_seat now view certificate)
  constructor
  · rw [install_view]
    exact Int.le_of_lt positive
  · rw [install_installed, install_view, roster]
    exact iff_of_true valid positive
  · rw [install_progress]
    rfl
  · rw [isLeader_iff, install_view, roster, self, install_proof, and_iff_right positive]
    split
    · next leads => exact iff_of_true rfl leads
    · next follows => exact iff_of_false Bool.false_ne_true follows

theorem Mirrors.change (mirrors : engine.Mirrors)
    (change : engine.Change now set after events) : after.Mirrors := by
  cases change with
  | gather pending attempted quiet =>
      exact ⟨mirrors.started, mirrors.certified, mirrors.waiting, mirrors.announcing⟩
  | rearm pending attempted quiet =>
      exact ⟨mirrors.started, mirrors.certified, rfl, mirrors.announcing⟩
  | install pending attempted quiet view certificate later valid =>
      apply mirrors_install
      · exact Int.lt_of_le_of_lt mirrors.started later
      · exact valid

/-- A leader without a certificate is in the first view, where it has nothing to announce. -/
theorem Mirrors.proofTimeout (mirrors : engine.Mirrors) :
    (engine.proofTimeout now).engine.Mirrors := by
  by_cases leads : leaderOf engine.view engine.replicas = engine.self ∧
      engine.installed.isValid engine.replicas = true
  · rw [(proofTimeout_of_leads leads.1 leads.2).1]
    refine ⟨mirrors.started, mirrors.certified, mirrors.waiting, ?_⟩
    exact iff_of_true rfl ⟨mirrors.certified.1 leads.2, isLeader_iff.2 leads.1⟩
  · rw [(proofTimeout_of_silent (not_and_or.1 leads)).1]
    refine ⟨mirrors.started, mirrors.certified, mirrors.waiting, ?_⟩
    apply iff_of_false Bool.false_ne_true
    rintro ⟨positive, leading⟩
    exact leads ⟨isLeader_iff.1 leading, mirrors.certified.2 positive⟩

theorem Mirrors.undergo (mirrors : engine.Mirrors) (incident : Incident) :
    (engine.undergo incident).Mirrors := by
  unfold Engine.undergo
  cases incident.occasion with
  | receive envelope => exact mirrors.change (engine.receive_change _ _ envelope)
  | progressTimeout => exact mirrors.change (engine.progressTimeout_change _ _)
  | proofTimeout => exact mirrors.proofTimeout
  | askProgress => exact mirrors.change (engine.fireProgress_change _ _)
  | askProof =>
      by_cases due : engine.timers.proof.isDue incident.now = true
      · simp only [(fireProof_of_due due).1]
        exact mirrors.proofTimeout
      · simp only [(fireProof_of_not_due due).1]
        exact mirrors

end Steps

theorem Mirrors.through {engine : Engine} (mirrors : engine.Mirrors) (incidents : List Incident) :
    (engine.through incidents).Mirrors := by
  induction incidents generalizing engine with
  | nil => exact mirrors
  | cons incident rest ih => exact ih (mirrors.undergo incident)

theorem mirrors_start {replicas : Nat} (position : Fin replicas) (timers : TimerPair) (now : Int) :
    ((ofPosition position timers).start now).Mirrors where
  started := Int.le_refl 0
  certified := by
    apply iff_of_false
    · exact Certificate.blank_not_valid 0 (ofPosition position timers).roster_positive
    · exact Int.lt_irrefl 0
  waiting := rfl
  announcing := by
    apply iff_of_false Bool.false_ne_true
    intro both
    exact Int.lt_irrefl 0 both.1

/-- Whatever happens to a replica after its start, and whichever calls are halted: its progress
timer runs, and its proof timer runs when it leads a view after the first, and only then. -/
theorem timers_mirror_role {replicas : Nat} (position : Fin replicas) (timers : TimerPair)
    (opening : Int) (incidents : List Incident) :
    let engine := ((ofPosition position timers).start opening).through incidents
    engine.timers.progress.armed = true ∧
      (engine.timers.proof.armed = true ↔ 0 < engine.view ∧ engine.isLeader = true) := by
  intro engine
  have mirrors : engine.Mirrors := (mirrors_start position timers opening).through incidents
  exact ⟨mirrors.waiting, mirrors.announcing⟩

/-- Replica 1 of 3 is halted with a quorum for view 1 in hand, which it leads. Only when the next
vote completes the installation does its proof timer run. -/
example :
    let engine := (ofPosition (1 : Fin 3) ⟨100, 30, by decide, by decide, {}, {}⟩).start 0
    let halted := engine.through
      [⟨100000000, (· = 1), .askProgress⟩, ⟨100000000, (· = 1), .receive ⟨0, .viewChange 1⟩⟩]
    let installed := halted.through [⟨100000000, (· = 5), .receive ⟨2, .viewChange 1⟩⟩]
    (halted.view = 0 ∧ halted.timers.proof.armed = false) ∧
      installed.view = 1 ∧ installed.timers.proof.armed = true := by
  decide +kernel

end Engine

end ViewSync
