import Mathlib.Order.Bounds.Basic
import ViewSync.Proofs.Diary

/-!
What the state of a replica says about its history.

The installed view is the greatest view that the history justifies: no vote and no proof is lost,
whatever the order in which they arrive and whatever is proposed, joined or installed in between,
and nothing is installed without justification. Beside the view, a replica holds certificates in a
regular form, whoever it hears from.
-/

namespace ViewSync

namespace Engine

/-- The form of a state: the views are in order, what is gathered is for views to come and falls
short of a quorum, and the installed view, unless it is the first, has a valid certificate. -/
structure Regular (engine : Engine) : Prop where
  started : 0 ≤ engine.view
  ordered : engine.view ≤ engine.attempted
  bounded : engine.attempted ≤ maxView
  gathered : ∀ (key : Int) (certificate : Certificate),
    engine.pending[key]? = some certificate →
      (engine.view < key ∧ key ≤ engine.attempted) ∧ certificate.view = key ∧
        certificate.isEmpty = false ∧
        (∀ attestation ∈ certificate.attestations,
          (0 ≤ attestation.sender ∧ attestation.sender < engine.replicas) ∧
            attestation.view = key) ∧
        certificate.attestations.length < engine.replicas / 2 + 1
  justified : (engine.view = 0 ∧ engine.installed.isEmpty = true) ∨
    (0 < engine.view ∧ engine.installed.view = engine.view ∧
      engine.installed.isValid engine.replicas = true)

end Engine

theorem Certificate.isEmpty_eq_false {certificate : Certificate}
    (voted : certificate.voters.Nonempty) : certificate.isEmpty = false := by
  obtain ⟨sender, voter⟩ := voted
  obtain ⟨view, stored⟩ := mem_voters.1 voter
  rw [Bool.eq_false_iff, isEmpty, ne_eq, Std.ExtTreeMap.isEmpty_iff]
  intro nothing
  rw [nothing] at stored
  simp at stored

namespace Diary

open Cluster (neverHalts)

variable {diary : Diary}

theorem heard_after (calls : List (Int × Call)) (diary : Diary) :
    (diary.after calls).history.heard =
      diary.history.heard ++ calls.flatMap fun entry => entry.2.heard := by
  induction calls generalizing diary with
  | nil => exact (List.append_nil _).symm
  | cons entry rest ih =>
      rw [List.flatMap_cons, ← List.append_assoc]
      exact ih (diary.call entry.1 entry.2)

theorem place_after (calls : List (Int × Call)) (diary : Diary) :
    (diary.after calls).history.replicas = diary.history.replicas ∧
      (diary.after calls).history.self = diary.history.self := by
  induction calls generalizing diary with
  | nil => exact ⟨rfl, rfl⟩
  | cons entry rest ih => exact ih (diary.call entry.1 entry.2)

/-! ### The installed view -/

theorem Faithful.view_justified (faithful : diary.Faithful) :
    diary.engine.view = 0 ∨ diary.history.Proves diary.engine.view ∨
      diary.history.Elects diary.engine.view :=
  faithful.kept.justified.imp And.left fun later => later.2.2

theorem Faithful.view_of_elects (faithful : diary.Faithful) {view : Int}
    (elected : diary.history.Elects view) : view ≤ diary.engine.view := by
  apply faithful.kept.view_le_of_voters
  · rw [faithful.roster, History.quorumSize_eq faithful.roster_positive]
    exact elected
  · intro sender voter
    exact faithful.counted sender view voter

/-- After any run of a replica its view is the greatest of the first view, the views that it was
shown a proof of, and the views that it has the votes of a quorum for. -/
theorem view_is_greatest_justified {replicas : Nat} (position : Fin replicas)
    (timers : TimerPair) (calls : List (Int × Call)) :
    let diary := (opening position timers).after calls
    diary.history.replicas = replicas ∧ diary.history.self = position.val ∧
      diary.history.heard = (calls.flatMap fun entry => entry.2.heard) ∧
      IsGreatest {view | view = 0 ∨ diary.history.Proves view ∨ diary.history.Elects view}
        diary.engine.view := by
  intro diary
  have faithful : diary.Faithful := faithful_after position timers calls
  have place := place_after calls (opening position timers)
  refine ⟨place.1, place.2, heard_after calls (opening position timers),
    faithful.view_justified, ?_⟩
  rintro view (rfl | proved | elected)
  · exact faithful.kept.started
  · exact faithful.followed view proved
  · exact faithful.view_of_elects elected

/-! ### The form of the state -/

theorem Faithful.regular (faithful : diary.Faithful) (bounded : diary.engine.attempted ≤ maxView) :
    diary.engine.Regular where
  started := faithful.kept.started
  ordered := faithful.kept.ordered
  bounded := bounded
  gathered key certificate stored := by
    obtain ⟨ahead, tried, ballot, voted, short⟩ := faithful.kept.gathered key certificate stored
    refine ⟨⟨ahead, tried⟩, ballot.candidate, Certificate.isEmpty_eq_false voted, ?_, ?_⟩
    · intro attestation listed
      have known := Certificate.mem_attestations.1 listed
      have voter := ballot.cast attestation.sender (Certificate.mem_voters.2 ⟨_, known⟩)
      rw [faithful.roster]
      exact ⟨(History.mem_voters.1 voter).1, ballot.exact _ _ known⟩
    · rw [Certificate.length_attestations, ← History.quorumSize_eq diary.engine.roster_positive]
      exact short
  justified := by
    rcases faithful.kept.justified with ⟨first, blank⟩ | ⟨later, proved, -⟩
    · refine .inl ⟨first, ?_⟩
      rw [blank]
      exact Std.ExtTreeMap.isEmpty_empty
    · rw [faithful.roster]
      exact .inr ⟨later, proved⟩

/-- No call makes a replica attempt a view after the last one, when it hears of no such view. -/
theorem Faithful.bounded_call (faithful : diary.Faithful) (now : Int) (call : Call)
    (inRange : ∀ envelope ∈ call.heard, envelope.message.view ≤ maxView)
    (bounded : diary.engine.attempted ≤ maxView) :
    (diary.call now call).engine.attempted ≤ maxView := by
  have calm := Cluster.neverHalts_calm
  cases call with
  | start => exact bounded
  | adjust timers => exact bounded
  | progressTimeout =>
      change (diary.engine.progressTimeout neverHalts now).engine.attempted ≤ maxView
      by_cases last : diary.engine.view = maxView
      · rw [(Engine.progressTimeout_of_last last).1]
        exact bounded
      · have ordered := faithful.kept.ordered
        rw [Engine.attempted_progressTimeout calm last]
        omega
  | proofTimeout =>
      obtain ⟨timers, retimed⟩ := diary.engine.proofTimeout_retimes now
      change (diary.engine.proofTimeout now).engine.attempted ≤ maxView
      rw [retimed]
      exact bounded
  | receive envelope =>
      have short := inRange envelope List.mem_cons_self
      change (diary.engine.receive neverHalts now envelope).engine.attempted ≤ maxView
      rcases @Engine.attempted_receive diary.engine neverHalts now envelope calm with
        same | ⟨raised, -⟩
      · rw [same]
        exact bounded
      · rw [raised]
        exact max_le bounded short

theorem bounded_after {replicas : Nat} (position : Fin replicas) (timers : TimerPair)
    (calls : List (Int × Call))
    (inRange : ∀ envelope ∈ ((opening position timers).after calls).history.heard,
      envelope.message.view ≤ maxView) :
    ((opening position timers).after calls).engine.attempted ≤ maxView := by
  -- what is heard later is of no account before it is heard
  let holds (diary : Diary) : Prop :=
    diary.Faithful ∧ ((∀ envelope ∈ diary.history.heard, envelope.message.view ≤ maxView) →
      diary.engine.attempted ≤ maxView)
  have start : holds (opening position timers) :=
    ⟨faithful_opening position timers, fun _ => show (0 : Int) ≤ maxView by decide⟩
  have step : ∀ (diary : Diary) (now : Int) (call : Call), holds diary →
      holds (diary.call now call) := by
    rintro diary now call ⟨faithful, bounded⟩
    refine ⟨faithful.call now call, ?_⟩
    intro short
    apply faithful.bounded_call now call
    · exact fun envelope newlyHeard => short envelope (List.mem_append_right _ newlyHeard)
    · exact bounded fun envelope earlier => short envelope (List.mem_append_left _ earlier)
  exact (after_induction step calls _ start).2 inRange

/-- After any run of a replica its state is regular, provided that the messages it was handed are
about views that there are. -/
theorem state_is_regular {replicas : Nat} (position : Fin replicas) (timers : TimerPair)
    (calls : List (Int × Call))
    (inRange : ∀ envelope ∈ calls.flatMap (fun entry => entry.2.heard),
      envelope.message.view ≤ maxView) :
    let engine := ((opening position timers).after calls).engine
    engine.replicas = replicas ∧ engine.Regular := by
  intro engine
  have faithful := faithful_after position timers calls
  have heard := heard_after calls (opening position timers)
  change _ = [] ++ _ at heard
  rw [List.nil_append] at heard
  have bounded := bounded_after position timers calls (by rwa [heard])
  exact ⟨faithful.roster.trans (place_after calls _).1, faithful.regular bounded⟩

/-- Replica 1 of 4 joins the last view and gathers for it, while strangers and old views are
passed over. -/
theorem state_is_regular_before_last_view :
    let calls : List (Int × Call) :=
      [(0, .start), (7, .receive ⟨2, .viewChange maxView⟩), (7, .receive ⟨-3, .viewChange 5⟩),
        (8, .receive ⟨0, .viewChange (-5)⟩), (9, .progressTimeout)]
    let engine :=
      ((opening (1 : Fin 4) ⟨100, 30, by decide, by decide, {}, {}⟩).after calls).engine
    (∀ envelope ∈ calls.flatMap (fun entry => entry.2.heard),
      envelope.message.view ≤ maxView) ∧
      (engine.view = 0 ∧ engine.attempted = maxView ∧
        (engine.pending.toList.map fun entry => (entry.1, entry.2.attestations.length)) =
          [(1, 1), (maxView, 2)]) ∧
      engine.replicas = 4 ∧ engine.Regular := by
  intro calls engine
  have inRange : ∀ envelope ∈ calls.flatMap (fun entry => entry.2.heard),
      envelope.message.view ≤ maxView := by decide
  exact ⟨inRange, by decide +kernel, state_is_regular 1 _ calls inRange⟩

end Diary

end ViewSync
