import ViewSync.Proofs.Backing
import ViewSync.Proofs.Counting

/-!
One replica among strangers.

A replica is called from outside, in any order and at any instants: its timeouts are reported to
it and messages are handed to it, and nobody vouches for the senders, views and attestations in
them. A diary is the replica together with its history, that is all it has heard and all it has
done. The history alone says which votes there are and which views they, or proofs from the roster,
justify; it knows nothing of the order in which all this came about, nor of what the replica made
of it. A replica is faithful to its history when it holds nothing else, has counted every vote of it
and is not behind any proof of it. Every call keeps a diary faithful.
-/

namespace ViewSync

open Cluster (neverHalts)

inductive Call
  | start
  /-- The timers are asked, or set, by whoever runs the replica. -/
  | adjust (timers : TimerPair)
  | progressTimeout
  | proofTimeout
  | receive (envelope : Envelope)
deriving DecidableEq

def Call.heard : Call → List Envelope
  | .receive envelope => [envelope]
  | _ => []

def Engine.answer (engine : Engine) (now : Int) : Call → Step
  | .start => { engine := engine.start now }
  | .adjust timers => { engine := { engine with timers } }
  | .progressTimeout => engine.progressTimeout neverHalts now
  | .proofTimeout => engine.proofTimeout now
  | .receive envelope => engine.receive neverHalts now envelope

/-! ### Histories -/

/-- All that a replica has heard and done, with its place on the roster. -/
structure History where
  replicas : Int
  self : Int
  heard : List Envelope := []
  done : List Event := []
deriving DecidableEq, Repr

namespace History

/-- A sender has voted for a view when its view change was heard, and the replica itself also when
it has broadcast one. -/
def Voted (history : History) (sender view : Int) : Prop :=
  ⟨sender, .viewChange view⟩ ∈ history.heard ∨
    (sender = history.self ∧ .broadcast (.viewChange view) ∈ history.done)

instance (history : History) (sender view : Int) : Decidable (history.Voted sender view) :=
  inferInstanceAs (Decidable (_ ∨ _))

def voters (history : History) (view : Int) : Finset Int :=
  (rosterOf history.replicas).filter (history.Voted · view)

def Elects (history : History) (view : Int) : Prop :=
  history.replicas / 2 + 1 ≤ (history.voters view).card

/-- A proof of the view was heard from the roster, with more than half of the roster behind it. -/
def Proves (history : History) (view : Int) : Prop :=
  ∃ (sender : Int) (attestations : List Attestation),
    ⟨sender, .viewProof view attestations⟩ ∈ history.heard ∧
      (0 ≤ sender ∧ sender < history.replicas) ∧ 0 ≤ view ∧
        history.replicas / 2 + 1 ≤
          (Attestation.backers view history.replicas attestations).card

def extend (history : History) (heard : List Envelope) (done : List Event) : History :=
  { history with heard := history.heard ++ heard, done := history.done ++ done }

variable {history : History} {heard : List Envelope} {done : List Event} {sender view : Int}

theorem mem_voters :
    sender ∈ history.voters view ↔
      (0 ≤ sender ∧ sender < history.replicas) ∧ history.Voted sender view := by
  rw [voters, Finset.mem_filter, mem_rosterOf]

theorem voted_extend :
    (history.extend heard done).Voted sender view ↔
      history.Voted sender view ∨ ⟨sender, .viewChange view⟩ ∈ heard ∨
        (sender = history.self ∧ .broadcast (.viewChange view) ∈ done) := by
  simp only [Voted, extend, List.mem_append]
  tauto

theorem voters_subset_extend (heard : List Envelope) (done : List Event) (view : Int) :
    history.voters view ⊆ (history.extend heard done).voters view := by
  intro sender voter
  obtain ⟨seated, voted⟩ := mem_voters.1 voter
  exact mem_voters.2 ⟨seated, voted_extend.2 (.inl voted)⟩

theorem Elects.extend (elected : history.Elects view) (heard : List Envelope)
    (done : List Event) : (history.extend heard done).Elects view :=
  Int.le_trans elected
    (Int.ofNat_le.2 (Finset.card_le_card (voters_subset_extend heard done view)))

theorem Proves.extend (proved : history.Proves view) (heard : List Envelope)
    (done : List Event) : (history.extend heard done).Proves view := by
  obtain ⟨sender, attestations, present, rest⟩ := proved
  exact ⟨sender, attestations, List.mem_append_left _ present, rest⟩

theorem quorumSize_eq {replicas : Int} (roster : 0 < replicas) :
    quorumSize replicas = replicas / 2 + 1 := by
  rw [quorumSize, Int.tdiv_eq_ediv_of_nonneg (Int.le_of_lt roster)]

/-- What comes from the roster proves its view exactly when it passes the check of lists. -/
theorem proves_iff (roster : 0 < history.replicas) :
    history.Proves view ↔
      ∃ (sender : Int) (attestations : List Attestation),
        ⟨sender, .viewProof view attestations⟩ ∈ history.heard ∧
          (0 ≤ sender ∧ sender < history.replicas) ∧
            Attestation.quorumFor view attestations history.replicas = true := by
  simp only [Proves, Attestation.quorumFor_iff, quorumSize_eq roster, roster, true_and]

/-- Votes of the history, and valid certificates of views that the history justifies. -/
def evidence (history : History) : Evidence where
  vote sender view := sender ∈ history.voters view
  proof view certificate :=
    (certificate.view = view ∧ certificate.isValid history.replicas = true) ∧
      (history.Proves view ∨ history.Elects view)

theorem evidence_electoral (roster : 0 < history.replicas) :
    history.evidence.Electoral history.replicas where
  seated _ _ voter := (mem_voters.1 voter).1
  elects view certificate _ ballot quorum := by
    have valid := (ballot.isValid_iff (fun _ voter => (mem_voters.1 voter).1) roster).2
      (Int.le_of_eq quorum.symm)
    have voters : certificate.voters ⊆ history.voters view := ballot.cast
    have enough := Finset.card_le_card voters
    refine ⟨⟨ballot.candidate, valid⟩, .inr ?_⟩
    rw [Elects, ← quorumSize_eq roster]
    omega

/-- Whatever was heard is evidence, so far as a replica takes it in. -/
theorem admits_of_heard (roster : 0 < history.replicas) {envelope : Envelope}
    (present : envelope ∈ history.heard) :
    history.evidence.Admits history.replicas envelope := by
  obtain ⟨sender, message⟩ := envelope
  intro nonneg below
  cases message with
  | viewChange view => exact mem_voters.2 ⟨⟨nonneg, below⟩, .inl present⟩
  | viewProof view attestations =>
      intro _ quorum
      exact ⟨⟨Certificate.ofList_view view attestations, Certificate.isValid_ofList quorum⟩,
        .inl ((proves_iff roster).2 ⟨sender, attestations, present, ⟨nonneg, below⟩, quorum⟩)⟩

end History

/-! ### Diaries -/

structure Diary where
  engine : Engine
  history : History
deriving DecidableEq

namespace Diary

def opening {replicas : Nat} (position : Fin replicas) (timers : TimerPair) : Diary where
  engine := .ofPosition position timers
  history := { replicas, self := position.val }

def enter (diary : Diary) (engine : Engine) (heard : List Envelope) (done : List Event) : Diary :=
  ⟨engine, diary.history.extend heard done⟩

def call (diary : Diary) (now : Int) (call : Call) : Diary :=
  diary.enter (diary.engine.answer now call).engine call.heard
    (diary.engine.answer now call).events

def after (diary : Diary) (calls : List (Int × Call)) : Diary :=
  calls.foldl (fun before entry => before.call entry.1 entry.2) diary

theorem after_induction {holds : Diary → Prop}
    (kept : ∀ (diary : Diary) (now : Int) (call : Call), holds diary → holds (diary.call now call))
    (calls : List (Int × Call)) (diary : Diary) (start : holds diary) :
    holds (diary.after calls) := by
  induction calls generalizing diary with
  | nil => exact start
  | cons entry rest ih => exact ih _ (kept diary entry.1 entry.2 start)

/-- A replica holds what its history justifies and nothing else, has counted all votes, and is not
behind any proof. -/
structure Faithful (diary : Diary) : Prop where
  roster : diary.engine.replicas = diary.history.replicas
  place : diary.engine.self = diary.history.self
  kept : diary.engine.WellKept diary.history.evidence
  counted : ∀ sender view : Int, sender ∈ diary.history.voters view →
    diary.engine.Counts sender view
  followed : ∀ view : Int, diary.history.Proves view → view ≤ diary.engine.view

variable {diary : Diary} {after : Engine} {heard : List Envelope} {done : List Event}

theorem Faithful.roster_positive (faithful : diary.Faithful) : 0 < diary.history.replicas := by
  rw [← faithful.roster]
  exact diary.engine.roster_positive

theorem Faithful.knows_iff (faithful : diary.Faithful) {sender : Int} :
    diary.engine.knows sender = true ↔ 0 ≤ sender ∧ sender < diary.history.replicas := by
  simp [Engine.knows, faithful.roster]

variable (heard done) in
theorem Faithful.kept_extend (faithful : diary.Faithful) :
    diary.engine.WellKept (diary.history.extend heard done).evidence :=
  faithful.kept.mono (fun _ view voter => History.voters_subset_extend heard done view voter)
    fun _ _ proved => ⟨proved.1,
      proved.2.imp (fun proof => proof.extend heard done) (fun votes => votes.extend heard done)⟩

variable (heard done) in
theorem Faithful.electoral_extend (faithful : diary.Faithful) :
    (diary.history.extend heard done).evidence.Electoral diary.engine.replicas := by
  rw [faithful.roster]
  exact History.evidence_electoral faithful.roster_positive

/-- The replica's own vote is a vote as soon as it is broadcast. -/
theorem Faithful.own_vote (faithful : diary.Faithful) {view : Int}
    (broadcast : .broadcast (.viewChange view) ∈ done) :
    (diary.history.extend heard done).evidence.vote diary.engine.self view := by
  have seated := diary.engine.seated
  rw [faithful.roster] at seated
  exact History.mem_voters.2 ⟨seated, History.voted_extend.2 (.inr (.inr
    ⟨faithful.place, broadcast⟩))⟩

/-- A replica stays faithful when it is well kept, takes nothing back, and takes in the votes and
proofs that it hears as well as its own votes. -/
theorem Faithful.enter (faithful : diary.Faithful) (roster : after.replicas = diary.engine.replicas)
    (place : after.self = diary.engine.self)
    (wellKept : after.WellKept (diary.history.extend heard done).evidence)
    (onward : diary.engine.view ≤ after.view)
    (keeps : ∀ sender view : Int, diary.engine.Counts sender view → after.Counts sender view)
    (own : ∀ view : Int, .broadcast (.viewChange view) ∈ done →
      after.Counts diary.engine.self view)
    (votes : ∀ sender view : Int, ⟨sender, .viewChange view⟩ ∈ heard →
      diary.engine.knows sender = true → after.Counts sender view)
    (proofs : ∀ (sender view : Int) (attestations : List Attestation),
      ⟨sender, .viewProof view attestations⟩ ∈ heard → diary.engine.knows sender = true →
        Attestation.quorumFor view attestations diary.engine.replicas = true →
          view ≤ after.view) :
    (diary.enter after heard done).Faithful where
  roster := roster.trans faithful.roster
  place := place.trans faithful.place
  kept := wellKept
  counted sender view voter := by
    obtain ⟨seated, voted⟩ := History.mem_voters.1 voter
    rcases History.voted_extend.1 voted with earlier | newlyHeard | ⟨self, broadcast⟩
    · apply keeps sender view
      exact faithful.counted sender view (History.mem_voters.2 ⟨seated, earlier⟩)
    · exact votes sender view newlyHeard (faithful.knows_iff.2 seated)
    · rw [self, ← faithful.place]
      exact own view broadcast
  followed view proved := by
    have listed := @History.proves_iff (diary.history.extend heard done) view
      faithful.roster_positive
    obtain ⟨sender, attestations, present, seated, quorum⟩ := listed.1 proved
    rcases List.mem_append.1 present with earlier | newlyHeard
    · refine Int.le_trans (faithful.followed view ?_) onward
      exact (History.proves_iff faithful.roster_positive).2
        ⟨sender, attestations, earlier, seated, quorum⟩
    · apply proofs sender view attestations newlyHeard (faithful.knows_iff.2 seated)
      rw [faithful.roster]
      exact quorum

/-- Setting timers changes nothing that a history justifies. -/
theorem Faithful.retime (faithful : diary.Faithful) (timers : TimerPair)
    (silent : ∀ view : Int, .broadcast (.viewChange view) ∉ done) :
    (diary.enter { diary.engine with timers } [] done).Faithful :=
  faithful.enter rfl rfl ((faithful.kept_extend [] done).timers timers) (Int.le_refl _)
    (fun _ _ counted => counted) (fun view broadcast => absurd broadcast (silent view))
    (fun _ _ present => absurd present List.not_mem_nil)
    fun _ _ _ present => absurd present List.not_mem_nil

theorem Faithful.progressTimeout (faithful : diary.Faithful) (now : Int) :
    (diary.call now .progressTimeout).Faithful := by
  have calm := Cluster.neverHalts_calm
  have sameSeat := @Engine.progressTimeout_seat diary.engine neverHalts now calm
  obtain ⟨wellKept, -⟩ := (faithful.kept_extend []
    (diary.engine.progressTimeout neverHalts now).events).progressTimeout
      (faithful.electoral_extend _ _) calm fun _ broadcast => faithful.own_vote broadcast
  have onward : diary.engine.view ≤ (diary.engine.progressTimeout neverHalts now).engine.view := by
    rcases @Engine.view_progressTimeout diary.engine neverHalts now calm with same | next
    · exact Int.le_of_eq same.symm
    · omega
  exact faithful.enter (Engine.seat_replicas sameSeat) (Engine.seat_self sameSeat) wellKept onward
    (fun _ _ counted => counted.progressTimeout calm)
    (fun _ broadcast => Engine.counts_of_broadcast_progressTimeout calm broadcast)
    (fun _ _ present => absurd present List.not_mem_nil)
    fun _ _ _ present => absurd present List.not_mem_nil

theorem Faithful.receive (faithful : diary.Faithful) (now : Int) (envelope : Envelope) :
    (diary.call now (.receive envelope)).Faithful := by
  have calm := Cluster.neverHalts_calm
  have sameSeat := @Engine.receive_seat diary.engine neverHalts now calm envelope
  have admitted := @History.admits_of_heard
    (diary.history.extend [envelope] (diary.engine.receive neverHalts now envelope).events)
    faithful.roster_positive envelope (List.mem_append_right _ List.mem_cons_self)
  change Evidence.Admits _ diary.history.replicas _ at admitted
  rw [← faithful.roster] at admitted
  obtain ⟨wellKept, -⟩ := (faithful.kept_extend [envelope]
    (diary.engine.receive neverHalts now envelope).events).receive
      (faithful.electoral_extend _ _) calm admitted fun _ broadcast => faithful.own_vote broadcast
  refine faithful.enter (Engine.seat_replicas sameSeat) (Engine.seat_self sameSeat) wellKept
    (Engine.view_le_receive calm) (fun _ _ counted => counted.receive calm)
    (fun _ broadcast => Engine.counts_of_broadcast_receive calm broadcast) ?_ ?_
  · intro sender view present known
    rw [← List.mem_singleton.1 present]
    exact Engine.counts_receive faithful.kept calm known
  · intro sender view attestations present known quorum
    rw [← List.mem_singleton.1 present]
    exact @Engine.view_receive_proof diary.engine neverHalts now sender view attestations known
      quorum

theorem Faithful.call (faithful : diary.Faithful) (now : Int) (call : Call) :
    (diary.call now call).Faithful := by
  cases call with
  | start => exact faithful.retime _ fun _ => List.not_mem_nil
  | adjust timers => exact faithful.retime timers fun _ => List.not_mem_nil
  | progressTimeout => exact faithful.progressTimeout now
  | proofTimeout =>
      obtain ⟨timers, retimed⟩ := diary.engine.proofTimeout_retimes now
      have same : diary.call now .proofTimeout =
          diary.enter { diary.engine with timers } [] (diary.engine.proofTimeout now).events :=
        congrArg (diary.enter · [] (diary.engine.proofTimeout now).events) retimed
      rw [same]
      refine faithful.retime timers ?_
      intro view broadcast
      cases Engine.eq_of_mem_proofTimeout broadcast
  | receive envelope => exact faithful.receive now envelope

theorem faithful_opening {replicas : Nat} (position : Fin replicas) (timers : TimerPair) :
    (opening position timers).Faithful where
  roster := rfl
  place := rfl
  kept := Engine.WellKept.fresh (Engine.ofPosition position timers) timers
  counted sender view voter := by
    rcases (History.mem_voters.1 voter).2 with heard | ⟨-, done⟩
    · exact absurd heard List.not_mem_nil
    · exact absurd done List.not_mem_nil
  followed view proved := by
    obtain ⟨sender, attestations, heard, -⟩ := proved
    exact absurd heard List.not_mem_nil

theorem faithful_after {replicas : Nat} (position : Fin replicas) (timers : TimerPair)
    (calls : List (Int × Call)) : ((opening position timers).after calls).Faithful :=
  after_induction (fun _ now call faithful => faithful.call now call) calls _
    (faithful_opening position timers)

end Diary

end ViewSync
