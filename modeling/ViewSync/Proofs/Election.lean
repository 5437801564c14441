import ViewSync.Proofs.Conclusion
import ViewSync.Proofs.Solitude

/-!
How a replica comes to lead a view, and what it does in the last one.

A replica that hears the proof of a later view which falls to it installs that view and announces
it. In the last view there is nothing left to propose, so its leader does nothing in a turn but
announce it when the proof timer is due. Both are said of the stages of a turn.
-/

namespace ViewSync

theorem Transport.takeIn_datagram {transport : Transport} {payload : Bytes} {envelope : Envelope}
    (fresh : transport.stream = {}) (empty : transport.received = [])
    (read : (Stream.takeAll ⟨payload⟩).1.head? = some envelope) :
    (transport.takeIn (.datagram payload)).1 = .envelope envelope := by
  obtain ⟨rest, taken⟩ := List.head?_eq_some_iff.1 read
  have received : (transport.absorb payload).received = envelope :: rest := by
    unfold absorb
    rw [fresh, empty, ← taken]
    rfl
  change (transport.absorb payload).handOn.1 = _
  rw [handOn, received]

namespace Replica

structure Called (replica : Replica) (time view : Int) (attestations : List Attestation) :
    Prop where
  empty : replica.transport.received = []
  going : replica.finished = false
  arrives : ∃ payload rest sender,
    replica.machine.arrivals = ⟨time, .datagram payload⟩ :: rest ∧
      (replica.transport.takeIn (Machine.heard (.datagram payload))).1 =
        .envelope ⟨sender, .viewProof view attestations⟩ ∧
      replica.engine.knows sender = true
  ahead : replica.machine.now ≤ time
  near : time ≤ replica.machine.conditions.horizon
  quorum : Attestation.quorumFor view attestations replica.engine.replicas = true
  later : replica.engine.view < view
  leads : leaderOf view replica.engine.replicas = replica.engine.self
  unfinal : replica.scenario.isFinished view replica.engine.self = false

variable {replica : Replica} {time view : Int} {attestations : List Attestation}

/-- The replica installs the view and announces it, and goes on. -/
theorem Called.attend (called : replica.Called time view attestations)
    (short : replica.patience ≤ 2147483647)
    (soon : time ≤ replica.machine.now + replica.patience) :
    let installed := replica.engine.install (replica.machine.conditions.reading time) view
      (.ofList view attestations)
    replica.attend.time = time ∧ replica.attend.events = installed.2 ∧
      replica.attend.after.engine = installed.1 ∧ replica.listen.2 = none := by
  intro installed
  obtain ⟨payload, rest, sender, first, read, known⟩ := called.arrives
  have patient : 0 ≤ replica.patience := by
    have ahead := called.ahead
    omega
  have heard := hear_arrival called.empty patient short first soon called.near
  dsimp only at heard
  rw [read, max_eq_right called.ahead] at heard
  have envelope := congrArg Prod.fst heard
  have clock : replica.hear.2.machine.now = time :=
    congrArg (fun heard => heard.2.machine.now) heard
  have same : replica.hear.2.engine = replica.engine :=
    congrArg (fun heard => heard.2.engine) heard
  have now : replica.hear.2.now = replica.machine.conditions.reading time := by
    rw [Replica.now, Machine.clock, clock, replica.precedes_hear.conditions]
  have answer : replica.hear.2.answer ⟨sender, .viewProof view attestations⟩ =
      replica.engine.receiveViewProof (replica.machine.conditions.reading time) sender view
        attestations := by
    unfold Replica.answer
    rw [same, now]
    rfl
  obtain ⟨engine, events⟩ := @Engine.receiveViewProof_of_later replica.engine
    (replica.machine.conditions.reading time) sender view attestations known called.quorum
    called.later
  have accepted := (Engine.receiveViewProof_accepted_iff replica.engine
    (replica.machine.conditions.reading time) sender view attestations).2
      ⟨known, called.quorum, Int.le_of_lt called.later⟩
  have told : replica.attend.events = installed.2 := by
    rw [Replica.attend, replies, envelope]
    exact (congrArg Step.events answer).trans events
  have unfinished : replica.attend.after.finished = false := by
    have installs : installations installed.2 = [(view, replica.engine.self)] := by
      change installations (replica.engine.install _ view _).2 = _
      rw [Engine.install_eq, if_pos called.leads, called.leads]
      rfl
    rw [replica.regular_attend.closes, told, Scenario.closedBy, installs]
    change (replica.finished || [(view, replica.engine.self)].any fun installation =>
      replica.scenario.isFinished installation.1 installation.2) = false
    simp [called.going, called.unfinal]
  refine ⟨replica.attend_clock.trans clock, told, ?_, ?_⟩
  · change replica.listen.1.engine = installed.1
    rw [replica.listen_envelope envelope, follow_engine, answer]
    exact engine
  · change replica.listen.1.finished = false at unfinished
    rw [replica.listen_envelope envelope] at unfinished
    rw [replica.listen_ending envelope, answer, accepted]
    rw [answer] at unfinished
    simp [endingAfter, Outcome.halt?, unfinished]

theorem Called.turn (called : replica.asked.Called time view attestations)
    (going : replica.fireDue.2 = none) (short : replica.asked.patience ≤ 2147483647)
    (soon : time ≤ replica.asked.machine.now + replica.asked.patience) :
    replica.stages =
        [replica.askProgress, replica.askProgress.after.askProof, replica.asked.attend] ∧
      replica.turn = (replica.asked.attend.after, none) := by
  obtain ⟨same, stages⟩ := stages_of_going going
  obtain ⟨-, -, -, unended⟩ := called.attend short soon
  refine ⟨stages, ?_⟩
  rw [turn_of_going going, same]
  exact Prod.ext rfl unended

/-- In the last view a replica has nothing to propose, and a leader goes on announcing it. -/
theorem stages_at_last_view (last : replica.engine.view = maxView)
    (due : replica.engine.timers.proof.isDue replica.now = true)
    (periodic : replica.scenario.periodicProofs = true)
    (leads : leaderOf replica.engine.view replica.engine.replicas = replica.engine.self)
    (valid : replica.engine.installed.isValid replica.engine.replicas = true) :
    ∃ rest, replica.stages =
        replica.askProgress :: replica.askProgress.after.askProof :: rest ∧
      replica.askProgress.events = [] ∧
      replica.askProgress.after.askProof.events =
        [.broadcast (.viewProof maxView replica.engine.installed.attestations)] := by
  have quiet : replica.askProgress.events = [] ∧
      replica.progressAsked.step.outcome.halt? = none := by
    change replica.progressAsked.events = [] ∧ _
    unfold Engine.Firing.step progressAsked
    by_cases late : replica.engine.timers.progress.isDue replica.now = true
    · obtain ⟨-, events, asked⟩ := @Engine.fireProgress_of_due replica.engine
        replica.scenario.crashesOnQuorum replica.now late
      rw [events, asked, Engine.progressTimeout, if_pos last]
      exact ⟨rfl, rfl⟩
    · obtain ⟨-, events, asked⟩ := @Engine.fireProgress_of_not_due replica.engine
        replica.scenario.crashesOnQuorum replica.now late
      rw [events, asked]
      exact ⟨rfl, rfl⟩
  obtain ⟨rest, stages⟩ := replica.stages_of_settled quiet.2
  refine ⟨rest, stages, quiet.1, ?_⟩
  obtain ⟨set, change⟩ := replica.askProgress_change
  have seat := change.seat
  rcases change.stays_or_advances with stays | advances
  · have place := replica.regular_askProgress.scenario
    change replica.askProgress.after.scenario = replica.scenario at place
    change (replica.askProgress.after.engine.fireProof
      replica.askProgress.after.scenario.periodicProofs replica.askProgress.after.now).events = _
    rw [place, periodic, askProgress_now]
    rw [← stays.proof] at due
    rw [(Engine.fireProof_of_due due).2]
    have leading : leaderOf replica.askProgress.after.engine.view
        replica.askProgress.after.engine.replicas = replica.askProgress.after.engine.self := by
      rw [stays.view, Engine.seat_replicas seat, Engine.seat_self seat]
      exact leads
    have proven : replica.askProgress.after.engine.installed.isValid
        replica.askProgress.after.engine.replicas = true := by
      rw [stays.installed, Engine.seat_replicas seat]
      exact valid
    rw [(Engine.proofTimeout_of_leads leading proven).2, stays.view, stays.installed, last]
  -- Had the view moved on, it would have been installed.
  · have told := advances.installations_eq
    rw [quiet.1] at told
    cases told

/-! ### A replica that is left to itself -/

theorem Alone.asked_moved {since : Int} (alone : replica.Alone) (counts : replica.Counts since)
    (due : replica.machine.now = since + replica.engine.timers.progressInterval)
    (short : replica.engine.timers.progressInterval ≤ 2147483647) :
    replica.fireDue.2 = none ∧
      (∃ engine : Engine, replica.asked = replica.moved engine replica.machine.now) ∧
      replica.asked.patience = replica.engine.timers.progressInterval := by
  have positive := replica.engine.timers.progress_positive
  obtain ⟨engine, still, timers, fired⟩ := alone.fireDue (counts.isDue due)
  have going : replica.fireDue.2 = none := by rw [fired]
  have moved : replica.asked = replica.moved engine replica.machine.now := by
    rw [← (stages_of_going going).1, fired]
  have interval : engine.timers.progressInterval = replica.engine.timers.progressInterval := by
    rw [timers, TimerPair.resetProgress_interval]
  refine ⟨going, ⟨engine, moved⟩, ?_⟩
  rw [moved, (counts.of_timers timers replica.machine.now).patience]
  · change max (replica.machine.now + engine.timers.progressInterval - replica.machine.now) 0 = _
    omega
  · change Showable ((replica.machine.now + engine.timers.progressInterval -
      replica.machine.now) * nanosPerMilli)
    unfold Showable nanosPerMilli
    omega

theorem Alone.asked_after {machine after : Machine} {plan : Plan} {roster : Roster}
    (alone : replica.started.Alone) (origin : 0 ≤ machine.now)
    (made : setUp machine plan roster = (.ok replica, after)) (blank : replica.installs = #[])
    (short : replica.engine.timers.progressInterval ≤ 2147483647)
    (early : replica.started.engine.timers.progress.isDue replica.now = false) (turns : Nat)
    (quiet : ∀ arrival ∈ replica.machine.arrivals,
      replica.machine.now + replica.engine.timers.progressInterval +
        turns * replica.engine.timers.progressInterval < arrival.time)
    (far : replica.machine.now + replica.engine.timers.progressInterval +
      turns * replica.engine.timers.progressInterval ≤ replica.machine.conditions.horizon) :
    ∃ (before : Replica) (engine : Engine),
      replica.started.runFor (turns + 1) = (before, none) ∧ before.fireDue.2 = none ∧
      before.asked = replica.moved engine
        (replica.machine.now + replica.engine.timers.progressInterval +
          turns * replica.engine.timers.progressInterval) ∧
      before.asked.patience = replica.engine.timers.progressInterval ∧
      engine.seat = replica.engine.seat ∧ engine.view = replica.engine.view := by
  obtain ⟨waiting, still, length, counts, ran⟩ :=
    alone.runFor_from_set ⟨rfl, alone.engine.silent⟩ short turns early quiet far
  have ledger := ledger_course (ledger_of_plan origin made).1 (turns + 1)
  rw [ran] at ledger
  have asked := ledger.askProgress.askProof
  obtain ⟨going, ⟨engine, moved⟩, patience⟩ := (alone.moved still _).asked_moved counts
    (by
      change replica.machine.now + replica.engine.timers.progressInterval +
        turns * replica.engine.timers.progressInterval =
          replica.machine.now + turns * replica.engine.timers.progressInterval +
            waiting.timers.progressInterval
      rw [length]
      change _ = _ + replica.engine.timers.progressInterval
      omega)
    (length.trans_le short)
  refine ⟨_, engine, ran, going, moved, patience.trans length, ?_, ?_⟩
  · have same := asked.seat
    change (Replica.asked _).engine.seat = _ at same
    rw [moved] at same
    exact same
  · have latest := asked.latest
    change (Replica.asked _).engine.view = ((Replica.asked _).installs.toList.getLast?.map _).getD _
      at latest
    rw [moved] at latest
    change engine.view = (replica.installs.toList.getLast?.map _).getD replica.engine.view at latest
    rw [blank] at latest
    exact latest

end Replica

end ViewSync
