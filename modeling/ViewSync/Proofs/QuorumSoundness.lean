import ViewSync.Proofs.Chronicle

/-!
Quorum soundness of a cluster that is left to itself.

In such a cluster a vote is evidence when it was really broadcast, and a certificate is evidence
when it is a bare quorum of such votes: exactly as many as a quorum takes, and no more. Replicas
hold nothing else, and no other proof is ever in flight. This survives loss, duplication and
reordering, and replicas that crash and forget what they installed, because it speaks of what was
broadcast at some time and not of what anybody remembers.
-/

namespace ViewSync

namespace Chronicle

open Cluster (Move neverHalts)

def Cast (chronicle : Chronicle) (sender view : Int) : Prop :=
  0 ≤ sender ∧ sender < chronicle.size ∧
    (sender.toNat, .broadcast (.viewChange view)) ∈ chronicle.seen

def evidence (chronicle : Chronicle) : Evidence where
  vote := chronicle.Cast
  proof view certificate :=
    certificate.IsBallot view (chronicle.Cast · view) ∧
      (certificate.voters.card : Int) = quorumSize chronicle.size

theorem evidence_congr {left right : Chronicle} (sameSize : left.size = right.size)
    (sameSeen : left.seen = right.seen) : left.evidence = right.evidence := by
  have sameCast : left.Cast = right.Cast := by
    funext sender view
    simp only [Cast, sameSize, sameSeen]
  simp only [evidence, sameCast, sameSize]

theorem evidence_electoral (chronicle : Chronicle) :
    chronicle.evidence.Electoral chronicle.size where
  seated _ _ cast := ⟨cast.1, cast.2.1⟩
  elects _ _ _ ballot quorum := ⟨ballot, quorum⟩

/-- A replica that may broadcast a message is right about it whoever receives it. -/
theorem admits_of_sanctions {chronicle : Chronicle} {sender : Int} {message : Message}
    (sanctioned : chronicle.evidence.Sanctions sender message) :
    chronicle.evidence.Admits chronicle.size ⟨sender, message⟩ :=
  sanctioned.admits (fun _ _ proved => proved.1.candidate) chronicle.size

structure Sound (chronicle : Chronicle) : Prop where
  seated : ∀ (position : Nat) (engine : Engine),
    chronicle.cluster.engines[position]? = some engine →
      engine.self = position ∧ engine.replicas = chronicle.size
  kept : ∀ (position : Nat) (engine : Engine),
    chronicle.cluster.engines[position]? = some engine → engine.WellKept chronicle.evidence
  inFlight : ∀ packet ∈ chronicle.cluster.queue,
    0 ≤ packet.sender ∧ packet.sender < chronicle.size ∧
      chronicle.evidence.Sanctions packet.sender packet.message

section Record

variable {chronicle : Chronicle} {position : Nat} {before after : Engine} {events : List Event}

theorem record_size : (chronicle.record position after events).size = chronicle.size := by
  simp [record, size, Cluster.record_eq]

theorem cast_record {sender view : Int} (cast : chronicle.Cast sender view) :
    (chronicle.record position after events).Cast sender view := by
  refine ⟨cast.1, ?_, List.mem_append_left _ cast.2.2⟩
  rw [record_size]
  exact cast.2.1

theorem proof_record {view : Int} {certificate : Certificate}
    (proved : chronicle.evidence.proof view certificate) :
    (chronicle.record position after events).evidence.proof view certificate := by
  refine ⟨proved.1.imp fun _ => cast_record, ?_⟩
  rw [record_size]
  exact proved.2

theorem sanctions_record {sender : Int} {message : Message}
    (sanctioned : chronicle.evidence.Sanctions sender message) :
    (chronicle.record position after events).evidence.Sanctions sender message := by
  cases message with
  | viewChange view => exact cast_record sanctioned
  | viewProof view attestations =>
      obtain ⟨certificate, proved, rfl⟩ := sanctioned
      exact ⟨certificate, proof_record proved, rfl⟩

theorem cast_of_broadcast {view : Int}
    (present : chronicle.cluster.engines[position]? = some before)
    (broadcast : .broadcast (.viewChange view) ∈ events) :
    (chronicle.record position after events).Cast position view := by
  refine ⟨Int.natCast_nonneg position, ?_, ?_⟩
  · rw [record_size]
    exact Int.ofNat_lt.2 (List.getElem?_eq_some_iff.1 present).1
  · exact List.mem_append_right _ (List.mem_map.2 ⟨_, broadcast, by simp⟩)

namespace Sound

/-- A step of one replica leaves a chronicle sound when it leaves that replica well kept and what
the replica broadcasts is sanctioned. -/
theorem record (sound : chronicle.Sound)
    (present : chronicle.cluster.engines[position]? = some before)
    (sameSeat : after.seat = before.seat)
    (wellKept : after.WellKept (chronicle.record position after events).evidence)
    (sanctioned : ∀ message, .broadcast message ∈ events →
      (chronicle.record position after events).evidence.Sanctions before.self message) :
    (chronicle.record position after events).Sound where
  seated other engine found := by
    rw [record_size]
    rcases stored_record found with ⟨rfl, rfl⟩ | ⟨-, earlier⟩
    · rw [Engine.seat_self sameSeat, Engine.seat_replicas sameSeat]
      exact sound.seated other before present
    · exact sound.seated other engine earlier
  kept other engine found := by
    rcases stored_record found with ⟨rfl, rfl⟩ | ⟨-, earlier⟩
    · exact wellKept
    · exact (sound.kept other engine earlier).mono (fun _ _ => cast_record)
        fun _ _ => proof_record
  inFlight packet inFlight := by
    rw [record_size]
    rcases mem_record_queue.1 inFlight with waiting | posted
    · obtain ⟨nonneg, below, supported⟩ := sound.inFlight packet waiting
      exact ⟨nonneg, below, sanctions_record supported⟩
    · obtain ⟨sent, broadcast, -⟩ := Cluster.mem_posted.1 posted
      have within : position < chronicle.size := (List.getElem?_eq_some_iff.1 present).1
      rw [sent]
      refine ⟨Int.natCast_nonneg position, Int.ofNat_lt.2 within, ?_⟩
      rw [← (sound.seated position before present).1]
      exact sanctioned packet.message broadcast

variable (after events) in
theorem kept_record (sound : chronicle.Sound)
    (present : chronicle.cluster.engines[position]? = some before) :
    before.WellKept (chronicle.record position after events).evidence :=
  (sound.kept position before present).mono (fun _ _ => cast_record) fun _ _ => proof_record

variable (after events) in
theorem electoral_record (sound : chronicle.Sound)
    (present : chronicle.cluster.engines[position]? = some before) :
    (chronicle.record position after events).evidence.Electoral before.replicas := by
  rw [(sound.seated position before present).2, ← record_size]
  exact evidence_electoral _

theorem fire (sound : chronicle.Sound)
    (present : chronicle.cluster.engines[position]? = some before) :
    (chronicle.record position (before.fireDue neverHalts true chronicle.cluster.now).engine
      (before.fireDue neverHalts true chronicle.cluster.now).events).Sound := by
  have place := sound.seated position before present
  obtain ⟨wellKept, sanctioned⟩ := (sound.kept_record _ _ present).fireDue
    (sound.electoral_record _ _ present) Cluster.neverHalts_calm
    fun proposed proposal => place.1 ▸ cast_of_broadcast present proposal
  exact sound.record present (Engine.fireDue_seat Cluster.neverHalts_calm) wellKept sanctioned

theorem hear (sound : chronicle.Sound) {packet : Packet}
    (inFlight : packet ∈ chronicle.cluster.queue)
    (present : chronicle.cluster.engines[position]? = some before) :
    (chronicle.record position
      (before.receive neverHalts chronicle.cluster.now ⟨packet.sender, packet.message⟩).engine
      (before.receive neverHalts chronicle.cluster.now
        ⟨packet.sender, packet.message⟩).events).Sound := by
  have place := sound.seated position before present
  obtain ⟨-, -, supported⟩ := sound.inFlight packet inFlight
  let step := before.receive neverHalts chronicle.cluster.now ⟨packet.sender, packet.message⟩
  have lasting : (chronicle.record position step.engine step.events).evidence.Sanctions
      packet.sender packet.message := sanctions_record supported
  have admitted := admits_of_sanctions lasting
  rw [record_size, ← place.2] at admitted
  obtain ⟨wellKept, sanctioned⟩ := (sound.kept_record _ _ present).receive
    (sound.electoral_record _ _ present) Cluster.neverHalts_calm admitted
    fun joined broadcast => place.1 ▸ cast_of_broadcast present broadcast
  exact sound.record present (Engine.receive_seat Cluster.neverHalts_calm _) wellKept sanctioned

end Sound

end Record

/-! ### Every run is sound -/

theorem opening_engine {timers : List TimerPair} {now : Int} {position : Nat} {engine : Engine}
    (present : (opening timers now).cluster.engines[position]? = some engine) :
    ∃ within : position < timers.length,
      engine = (Engine.ofPosition ⟨position, within⟩ timers[position]).start now := by
  change (Cluster.seats timers now)[position]? = some engine at present
  rw [Cluster.seats, List.getElem?_ofFn] at present
  split at present
  · next within => exact ⟨within, (Option.some.inj present).symm⟩
  · cases present

theorem opening_size (timers : List TimerPair) (now : Int) :
    (opening timers now).size = timers.length := by
  change (Cluster.seats timers now).length = timers.length
  rw [Cluster.seats, List.length_ofFn]

theorem sound_opening (timers : List TimerPair) (now : Int) : (opening timers now).Sound where
  seated position engine present := by
    obtain ⟨within, rfl⟩ := opening_engine present
    rw [opening_size]
    exact ⟨rfl, rfl⟩
  kept position engine present := by
    obtain ⟨within, rfl⟩ := opening_engine present
    exact Engine.WellKept.fresh (Engine.ofPosition ⟨position, within⟩ timers[position]) _
  inFlight packet inFlight := absurd inFlight List.not_mem_nil

theorem Sound.transit {before after : Chronicle} (carried : Transit before after)
    (sound : before.Sound) : after.Sound := by
  cases carried with
  | loss queue fewer =>
      exact ⟨sound.seated, sound.kept, fun packet left => sound.inFlight packet (fewer packet left)⟩
  | hear packet position engine inFlight addressed present => exact sound.hear inFlight present

theorem Sound.moment {before after : Chronicle} (moment : Moment before after)
    (sound : before.Sound) : after.Sound := by
  cases moment with
  | clock now => exact ⟨sound.seated, sound.kept, sound.inFlight⟩
  | outage crashed => exact ⟨sound.seated, sound.kept, sound.inFlight⟩
  | transit _ carried => exact sound.transit carried
  | fire position engine present => exact sound.fire present
  | renew position engine present =>
      have sameSize : Chronicle.size
          { before with
            cluster :=
              { before.cluster with
                engines := before.cluster.engines.set position
                  (engine.fresh.start before.cluster.now) } } = before.size := List.length_set
      refine ⟨?_, ?_, ?_⟩
      · intro other found stored
        rw [sameSize]
        rcases Cluster.stored_of_set stored with ⟨rfl, rfl⟩ | ⟨-, earlier⟩
        · exact sound.seated other engine present
        · exact sound.seated other found earlier
      · intro other found stored
        rw [evidence_congr sameSize rfl]
        rcases Cluster.stored_of_set stored with ⟨-, rfl⟩ | ⟨-, earlier⟩
        · exact Engine.WellKept.fresh engine _
        · exact sound.kept other found earlier
      · rw [evidence_congr sameSize rfl, sameSize]
        exact sound.inFlight

theorem sound_after (timers : List TimerPair) (now : Int) (moves : List Move) :
    ((opening timers now).after moves).Sound :=
  after_induction (fun _ _ => Sound.moment) moves _ (sound_opening timers now)

theorem Transit.size_eq {before after : Chronicle} (carried : Transit before after) :
    after.size = before.size := by
  cases carried with
  | loss queue fewer => rfl
  | hear packet position engine inFlight addressed present => exact record_size

theorem Moment.size_eq {before after : Chronicle} (moment : Moment before after) :
    after.size = before.size := by
  cases moment with
  | clock now => rfl
  | outage crashed => rfl
  | transit _ carried => exact carried.size_eq
  | fire position engine present => exact record_size
  | renew position engine present => exact List.length_set

theorem size_after (timers : List TimerPair) (now : Int) (moves : List Move) :
    ((opening timers now).after moves).size = timers.length :=
  @after_induction (fun chronicle => chronicle.size = timers.length)
    (fun _ _ moment same => moment.size_eq.trans same) moves _ (opening_size timers now)

/-! ### Bare quorums -/

/-- Attestations of exactly a quorum of different replicas, all for `view`, each of whom has
broadcast a view change for it. -/
structure BareQuorum (replicas : Nat) (seen : List (Nat × Event)) (view : Int)
    (attestations : List Attestation) : Prop where
  size : attestations.length = replicas / 2 + 1
  distinct : (attestations.map (·.sender)).Nodup
  forView : ∀ attestation ∈ attestations, attestation.view = view
  cast : ∀ attestation ∈ attestations,
    0 ≤ attestation.sender ∧ attestation.sender < replicas ∧
      (attestation.sender.toNat, .broadcast (.viewChange view)) ∈ seen

theorem bareQuorum_of_proof {chronicle : Chronicle} {view : Int} {certificate : Certificate}
    (proved : chronicle.evidence.proof view certificate) :
    BareQuorum chronicle.size chronicle.seen view certificate.attestations where
  size := by
    have quorum := proved.2
    rw [quorumSize_natCast, ← Certificate.length_attestations] at quorum
    exact Int.ofNat.inj quorum
  distinct := by
    rw [Certificate.attestations_senders]
    exact certificate.nodup_senders
  forView attestation listed :=
    proved.1.exact attestation.sender attestation.view (Certificate.mem_attestations.1 listed)
  cast attestation listed :=
    proved.1.cast attestation.sender
      (Certificate.mem_voters.2 ⟨_, Certificate.mem_attestations.1 listed⟩)

/-- In every run of a cluster that is left to itself, the certificate of every installed view and
the attestations of every proof in flight are a bare quorum of votes that were cast. -/
theorem certificates_are_bare_quorums (timers : List TimerPair) (now : Int)
    (moves : List Move) :
    let chronicle := (opening timers now).after moves
    (∀ (position : Nat) (engine : Engine),
      chronicle.cluster.engines[position]? = some engine → 0 < engine.view →
        engine.installed.view = engine.view ∧
          BareQuorum timers.length chronicle.seen engine.view engine.installed.attestations) ∧
    ∀ packet ∈ chronicle.cluster.queue, ∀ (view : Int) (attestations : List Attestation),
      packet.message = .viewProof view attestations →
        BareQuorum timers.length chronicle.seen view attestations := by
  intro chronicle
  have sound : chronicle.Sound := sound_after timers now moves
  have sameSize : chronicle.size = timers.length := size_after timers now moves
  rw [← sameSize]
  constructor
  · intro position engine present later
    rcases (sound.kept position engine present).justified with ⟨first, -⟩ | ⟨-, proved⟩
    · omega
    · exact ⟨proved.1.candidate, bareQuorum_of_proof proved⟩
  · intro packet inFlight view attestations carried
    obtain ⟨-, -, sanctioned⟩ := sound.inFlight packet inFlight
    rw [carried] at sanctioned
    obtain ⟨certificate, proved, rfl⟩ := sanctioned
    exact bareQuorum_of_proof proved

/-- Replica 1 installs view 1 with the vote of replica 0, which crashes and forgets it. -/
theorem certificates_are_bare_quorums_of_forgotten_vote :
    let chronicle := (opening (List.replicate 3 ⟨100, 30, by decide, by decide, {}, {}⟩) 0).after
      [.tick 100, .crash 0, .straggle 1, .restart 0]
    ∃ engine, chronicle.cluster.engines[1]? = some engine ∧ 0 < engine.view ∧
      engine.installed.view = engine.view ∧
        BareQuorum 3 chronicle.seen engine.view engine.installed.attestations := by
  intro chronicle
  have installed : chronicle.cluster.engines[1]?.map (·.view) = some 1 := by decide +kernel
  obtain ⟨engine, present, first⟩ := Option.map_eq_some_iff.1 installed
  have later : 0 < engine.view := by omega
  exact ⟨engine, present, later,
    (certificates_are_bare_quorums _ 0 _).1 1 engine present later⟩

end Chronicle

end ViewSync
