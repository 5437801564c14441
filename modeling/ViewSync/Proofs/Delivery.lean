import ViewSync.Proofs.Backing
import ViewSync.Proofs.Counting
import ViewSync.Proofs.QuorumSoundness

/-!
Rounds of timeouts and deliveries.

In a round some replicas take their progress timeouts, and then messages are delivered one at a
time until none is left. A delivery takes one message out of the queue; a message between replicas
that are not crashed is heard. So a vote that was broadcast is on its way to a replica until the
replica counts it.
-/

namespace ViewSync

namespace Chronicle

open Cluster (Move neverHalts)

def IsLive (chronicle : Chronicle) (position : Nat) : Prop :=
  position < chronicle.size ∧ chronicle.cluster.isDown position = false

instance (chronicle : Chronicle) (position : Nat) : Decidable (chronicle.IsLive position) :=
  inferInstanceAs (Decidable (_ ∧ _))

theorem IsLive.engine {chronicle : Chronicle} {position : Nat}
    (live : chronicle.IsLive position) :
    ∃ engine, chronicle.cluster.engines[position]? = some engine :=
  ⟨_, List.getElem?_eq_getElem live.1⟩

def withQueue (chronicle : Chronicle) (queue : List Packet) : Chronicle :=
  { chronicle with cluster := { chronicle.cluster with queue } }

section Record

variable {chronicle : Chronicle} {position : Nat} {after : Engine} {events : List Event}

theorem record_engine (within : position < chronicle.size) (other : Nat) :
    (chronicle.record position after events).cluster.engines[other]? =
      if other = position then some after else chronicle.cluster.engines[other]? := by
  simp only [record, Cluster.record_eq]
  rw [List.getElem?_set]
  by_cases same : position = other
  · rw [if_pos same, if_pos same.symm, if_pos (same ▸ within)]
  · rw [if_neg same, if_neg (Ne.symm same)]

theorem record_isDown (identifier : Int) :
    (chronicle.record position after events).cluster.isDown identifier =
      chronicle.cluster.isDown identifier := by
  simp only [record, Cluster.record_eq]
  rfl

theorem isLive_record {other : Nat} :
    (chronicle.record position after events).IsLive other ↔ chronicle.IsLive other := by
  unfold IsLive
  rw [record_size, record_isDown]

theorem posted_of_broadcast {message : Message} (broadcast : .broadcast message ∈ events)
    {receiver : Nat} (within : receiver < chronicle.size) :
    ⟨position, receiver, message⟩ ∈
      (chronicle.record position after events).cluster.queue := by
  rw [mem_record_queue]
  exact .inr (Cluster.mem_posted.2 ⟨rfl, broadcast, receiver, within, rfl⟩)

end Record

theorem fireAt_cases (chronicle : Chronicle) (position : Nat) :
    (chronicle.extend (chronicle.cluster.fireAt position) = chronicle ∧
      ¬ chronicle.IsLive position) ∨
    ∃ engine, chronicle.IsLive position ∧
      chronicle.cluster.engines[position]? = some engine ∧
        chronicle.extend (chronicle.cluster.fireAt position) =
          chronicle.record position (engine.fireDue neverHalts true chronicle.cluster.now).engine
            (engine.fireDue neverHalts true chronicle.cluster.now).events := by
  rcases extend_fireAt_cases chronicle position with ⟨same, unasked⟩ | ⟨engine, up, present, fired⟩
  · refine .inl ⟨same, ?_⟩
    intro live
    obtain ⟨engine, found⟩ := live.engine
    rcases unasked with down | absent
    · rw [live.2] at down
      cases down
    · rw [found] at absent
      cases absent
  · exact .inr ⟨engine, ⟨(List.getElem?_eq_some_iff.1 present).1, up⟩, present, fired⟩

/-! ### Deliveries -/

structure Taken (packet : Packet) (before after : List Packet) : Prop where
  waiting : packet ∈ before
  fewer : ∀ other ∈ after, other ∈ before
  others : ∀ other ∈ before, other = packet ∨ other ∈ after

theorem taken_eraseIdx {queue : List Packet} {index : Nat} {packet : Packet}
    (found : queue[index]? = some packet) : Taken packet queue (queue.eraseIdx index) where
  waiting := List.mem_of_getElem? found
  fewer _ := List.mem_of_mem_eraseIdx
  others other present := by
    obtain ⟨place, stored⟩ := List.mem_iff_getElem?.1 present
    by_cases same : place = index
    · rw [same, found, Option.some.injEq] at stored
      exact .inl stored.symm
    · exact .inr (List.mem_eraseIdx_iff_getElem?.2 ⟨place, same, stored⟩)

inductive Delivery (before : Chronicle) : Chronicle → Prop
  | missed (packet : Packet) (queue : List Packet)
      (taken : Taken packet before.cluster.queue queue)
      (cut : before.cluster.isDown packet.sender = true ∨
        before.cluster.isDown packet.receiver = true ∨
          before.cluster.engine? packet.receiver = none) :
      Delivery before (before.withQueue queue)
  | heard (packet : Packet) (queue : List Packet) (position : Nat) (engine : Engine)
      (taken : Taken packet before.cluster.queue queue)
      (senderUp : before.cluster.isDown packet.sender = false)
      (receiverUp : before.cluster.isDown packet.receiver = false)
      (addressed : packet.receiver = position)
      (present : before.cluster.engines[position]? = some engine) :
      Delivery before
        ((before.withQueue queue).record position
          (engine.receive neverHalts before.cluster.now
            ⟨packet.sender, packet.message⟩).engine
          (engine.receive neverHalts before.cluster.now
            ⟨packet.sender, packet.message⟩).events)

theorem delivery_deliver {chronicle : Chronicle} (busy : chronicle.cluster.queue ≠ [])
    (index : Int) :
    Delivery chronicle (chronicle.extend (chronicle.cluster.deliver index)) := by
  obtain ⟨position, packet, found, result⟩ := Cluster.deliver_cases busy index
  have taken := taken_eraseIdx found
  have nothingSeen : ∀ queue, chronicle.extend ({ chronicle.cluster with queue }, {}) =
      chronicle.withQueue queue := by
    intro queue
    simp [extend, withQueue]
  rcases result with ⟨down, lost⟩ | ⟨senderUp, receiverUp, handed⟩
  · rw [lost, nothingSeen]
    exact .missed packet _ taken (down.imp id .inl)
  · rw [handed]
    unfold Cluster.handOver
    split
    · next unseated =>
        rw [nothingSeen]
        exact .missed packet _ taken (.inr (.inr unseated))
    · next engine present =>
        obtain ⟨within, stored⟩ := Cluster.engine?_eq_some.1 present
        exact .heard packet _ packet.receiver.toNat engine taken senderUp receiverUp
          (Int.toNat_of_nonneg within).symm stored

/-- What every delivery keeps is kept by all deliveries, in whatever order. -/
theorem deliverAll_induction {holds : Chronicle → Prop}
    (kept : ∀ before after : Chronicle, Delivery before after → holds before → holds after)
    (choices : List Int) (chronicle : Chronicle) (start : holds chronicle) :
    holds (chronicle.deliverAll choices) := by
  induction choices generalizing chronicle with
  | nil => exact start
  | cons choice rest ih =>
      by_cases idle : chronicle.cluster.queue = []
      · rw [deliverAll_of_empty idle]
        exact start
      · rw [deliverAll_cons]
        exact ih _ (kept _ _ (delivery_deliver idle choice) start)

theorem Delivery.transits {before after : Chronicle} (delivery : Delivery before after) :
    Transits before after := by
  cases delivery with
  | missed packet queue taken cut => exact .single (.loss queue taken.fewer)
  | heard packet queue position engine taken senderUp receiverUp addressed present =>
      have hear : Transit before _ := .hear packet position engine taken.waiting addressed present
      refine .head hear (.single ?_)
      simp only [record, Cluster.record_eq, withQueue]
      refine .loss _ ?_
      intro other remains
      rcases List.mem_append.1 remains with left | posted
      · exact List.mem_append_left _ (taken.fewer other left)
      · exact List.mem_append_right _ posted

theorem Sound.transits {before after : Chronicle} (carried : Transits before after)
    (sound : before.Sound) : after.Sound := by
  induction carried with
  | refl => exact sound
  | tail _ transit ih => exact ih.transit transit

theorem Sound.withQueue {chronicle : Chronicle} {queue : List Packet} (sound : chronicle.Sound)
    (fewer : ∀ packet ∈ queue, packet ∈ chronicle.cluster.queue) :
    (chronicle.withQueue queue).Sound :=
  sound.transit (.loss queue fewer)

theorem Sound.delivery {before after : Chronicle} (delivery : Delivery before after)
    (sound : before.Sound) : after.Sound :=
  sound.transits delivery.transits

theorem Delivery.isDown_eq {before after : Chronicle} (delivery : Delivery before after)
    (identifier : Int) : after.cluster.isDown identifier = before.cluster.isDown identifier := by
  cases delivery with
  | missed packet queue taken cut => rfl
  | heard packet queue position engine taken senderUp receiverUp addressed present =>
      exact record_isDown identifier

theorem Delivery.size_eq {before after : Chronicle} (delivery : Delivery before after) :
    after.size = before.size := by
  cases delivery with
  | missed packet queue taken cut => rfl
  | heard packet queue position engine taken senderUp receiverUp addressed present =>
      exact record_size

theorem Delivery.isLive_iff {before after : Chronicle} (delivery : Delivery before after)
    {position : Nat} : after.IsLive position ↔ before.IsLive position := by
  unfold IsLive
  rw [delivery.size_eq, delivery.isDown_eq]

theorem Sound.knows {chronicle : Chronicle} (sound : chronicle.Sound) {packet : Packet}
    (inFlight : packet ∈ chronicle.cluster.queue) {position : Nat} {engine : Engine}
    (present : chronicle.cluster.engines[position]? = some engine) :
    engine.knows packet.sender = true := by
  obtain ⟨nonneg, below, -⟩ := sound.inFlight packet inFlight
  rw [← (sound.seated position engine present).2] at below
  simp [Engine.knows, nonneg, below]

/-- Nothing cuts off a message between replicas that are up. -/
theorem IsLive.not_cut {chronicle : Chronicle} {receiver : Nat}
    (live : chronicle.IsLive receiver) {packet : Packet}
    (senderUp : chronicle.cluster.isDown packet.sender = false)
    (addressed : packet.receiver = receiver) :
    ¬ (chronicle.cluster.isDown packet.sender = true ∨
      chronicle.cluster.isDown packet.receiver = true ∨
        chronicle.cluster.engine? packet.receiver = none) := by
  obtain ⟨engine, present⟩ := live.engine
  rw [addressed]
  rintro (senderDown | receiverDown | unseated)
  · rw [senderUp] at senderDown
    cases senderDown
  · rw [live.2] at receiverDown
    cases receiverDown
  · rw [Cluster.engine?_eq_some.2 ⟨Int.natCast_nonneg receiver, present⟩] at unseated
    cases unseated

/-! ### Timeouts -/

def timeOut (chronicle : Chronicle) (position : Nat) : Chronicle :=
  match chronicle.cluster.engines[position]? with
  | none => chronicle
  | some engine =>
      let step := engine.progressTimeout neverHalts chronicle.cluster.now
      chronicle.record position step.engine step.events

def timeOutAll (chronicle : Chronicle) (positions : List Nat) : Chronicle :=
  positions.foldl timeOut chronicle

theorem timeOut_eq {chronicle : Chronicle} {position : Nat} {engine : Engine}
    (present : chronicle.cluster.engines[position]? = some engine) :
    chronicle.timeOut position =
      chronicle.record position (engine.progressTimeout neverHalts chronicle.cluster.now).engine
        (engine.progressTimeout neverHalts chronicle.cluster.now).events := by
  rw [timeOut, present]

theorem timeOutAll_cons (chronicle : Chronicle) (position : Nat) (positions : List Nat) :
    chronicle.timeOutAll (position :: positions) =
      (chronicle.timeOut position).timeOutAll positions :=
  rfl

theorem Sound.timeOut {chronicle : Chronicle} (sound : chronicle.Sound) (position : Nat) :
    (chronicle.timeOut position).Sound := by
  cases present : chronicle.cluster.engines[position]? with
  | none =>
      rw [Chronicle.timeOut, present]
      exact sound
  | some engine =>
      have place := sound.seated position engine present
      obtain ⟨wellKept, sanctioned⟩ := (sound.kept_record _ _ present).progressTimeout
        (sound.electoral_record _ _ present) Cluster.neverHalts_calm
        fun proposed proposal => place.1 ▸ cast_of_broadcast present proposal
      rw [timeOut_eq present]
      exact sound.record present (Engine.progressTimeout_seat Cluster.neverHalts_calm) wellKept
        sanctioned

theorem Sound.timeOutAll (positions : List Nat) {chronicle : Chronicle}
    (sound : chronicle.Sound) : (chronicle.timeOutAll positions).Sound := by
  induction positions generalizing chronicle with
  | nil => exact sound
  | cons position rest ih => exact ih (sound.timeOut position)

theorem timeOut_size (chronicle : Chronicle) (position : Nat) :
    (chronicle.timeOut position).size = chronicle.size := by
  unfold timeOut
  split
  · rfl
  · exact record_size

theorem timeOutAll_size (positions : List Nat) (chronicle : Chronicle) :
    (chronicle.timeOutAll positions).size = chronicle.size := by
  induction positions generalizing chronicle with
  | nil => rfl
  | cons position rest ih =>
      rw [timeOutAll_cons, ih, timeOut_size]

theorem isLive_timeOut {chronicle : Chronicle} {position other : Nat} :
    (chronicle.timeOut position).IsLive other ↔ chronicle.IsLive other := by
  unfold timeOut
  split
  · exact Iff.rfl
  · exact isLive_record

theorem timeOut_engine {chronicle : Chronicle} {position other : Nat}
    (different : other ≠ position) :
    (chronicle.timeOut position).cluster.engines[other]? =
      chronicle.cluster.engines[other]? := by
  cases present : chronicle.cluster.engines[position]? with
  | none => rw [timeOut, present]
  | some engine =>
      rw [timeOut_eq present, record_engine (List.getElem?_eq_some_iff.1 present).1,
        if_neg different]

theorem timeOut_engine_of_nodup {chronicle : Chronicle} {first other : Nat} {rest : List Nat}
    (distinct : (first :: rest).Nodup) (later : other ∈ rest) :
    (chronicle.timeOut first).cluster.engines[other]? = chronicle.cluster.engines[other]? := by
  apply timeOut_engine
  rintro rfl
  exact (List.nodup_cons.1 distinct).1 later

/-! ### Votes on their way -/

/-- The vote of one replica for a view is on its way to another one, or is counted there. -/
def Conveys (chronicle : Chronicle) (view : Int) (sender receiver : Nat) : Prop :=
  ⟨sender, receiver, .viewChange view⟩ ∈ chronicle.cluster.queue ∨
    ∃ engine, chronicle.cluster.engines[receiver]? = some engine ∧ engine.Counts sender view

/-- With nothing in flight the vote has arrived. -/
theorem Conveys.arrived {chronicle : Chronicle} {view : Int} {sender receiver : Nat}
    (conveyed : chronicle.Conveys view sender receiver) (idle : chronicle.cluster.queue = [])
    {engine : Engine} (present : chronicle.cluster.engines[receiver]? = some engine) :
    engine.Counts sender view := by
  rcases conveyed with inFlight | ⟨other, found, counted⟩
  · rw [idle] at inFlight
    exact absurd inFlight List.not_mem_nil
  · rw [present, Option.some.injEq] at found
    rw [found]
    exact counted

theorem Conveys.record {chronicle : Chronicle} {view : Int} {sender receiver position : Nat}
    {before after : Engine} {events : List Event}
    (conveyed : chronicle.Conveys view sender receiver)
    (present : chronicle.cluster.engines[position]? = some before)
    (lasting : before.Counts sender view → after.Counts sender view) :
    (chronicle.record position after events).Conveys view sender receiver := by
  rcases conveyed with inFlight | ⟨engine, found, counted⟩
  · exact .inl (mem_record_queue.2 (.inl inFlight))
  · right
    rw [record_engine (List.getElem?_eq_some_iff.1 present).1]
    split
    · next same =>
        subst same
        rw [found, Option.some.injEq] at present
        exact ⟨after, rfl, lasting (present ▸ counted)⟩
    · exact ⟨engine, found, counted⟩

theorem Conveys.delivery {before after : Chronicle} (delivery : Delivery before after)
    (sound : before.Sound) {view : Int} {sender receiver : Nat} (senderLive : before.IsLive sender)
    (receiverLive : before.IsLive receiver) (conveyed : before.Conveys view sender receiver) :
    after.Conveys view sender receiver := by
  cases delivery with
  | missed packet queue taken cut =>
      rcases conveyed with inFlight | counted
      · rcases taken.others _ inFlight with rfl | left
        · exact absurd cut (receiverLive.not_cut senderLive.2 rfl)
        · exact .inl left
      · exact .inr counted
  | heard packet queue position engine taken senderUp receiverUp addressed present =>
      have lasting : engine.Counts sender view →
          (engine.receive neverHalts before.cluster.now
            ⟨packet.sender, packet.message⟩).engine.Counts sender view :=
        fun counted => counted.receive Cluster.neverHalts_calm
      rcases conveyed with inFlight | counted
      · rcases taken.others _ inFlight with rfl | left
        · have known := sound.knows taken.waiting present
          have same : receiver = position := Int.ofNat.inj addressed
          have within : position < (before.withQueue queue).size :=
            (List.getElem?_eq_some_iff.1 present).1
          right
          rw [record_engine within, if_pos same]
          exact ⟨_, rfl, Engine.counts_receive (sound.kept position engine present)
            Cluster.neverHalts_calm known⟩
        · exact .inl (mem_record_queue.2 (.inl left))
      · have waiting : (before.withQueue queue).Conveys view sender receiver := .inr counted
        exact waiting.record present lasting

theorem Conveys.timeOut {chronicle : Chronicle} {view : Int} {sender receiver : Nat}
    (conveyed : chronicle.Conveys view sender receiver) (position : Nat) :
    (chronicle.timeOut position).Conveys view sender receiver := by
  cases present : chronicle.cluster.engines[position]? with
  | none =>
      rw [Chronicle.timeOut, present]
      exact conveyed
  | some engine =>
      rw [timeOut_eq present]
      exact conveyed.record present fun counted => counted.progressTimeout Cluster.neverHalts_calm

theorem conveys_timeOut {chronicle : Chronicle} {position receiver : Nat} {engine : Engine}
    (present : chronicle.cluster.engines[position]? = some engine)
    (next : engine.view ≠ maxView) (within : receiver < chronicle.size) :
    (chronicle.timeOut position).Conveys (engine.view + 1) position receiver := by
  rw [timeOut_eq present]
  exact .inl (posted_of_broadcast
    (Engine.progressTimeout_broadcasts Cluster.neverHalts_calm next) within)

/-! ### Proofs on their way -/

def Told (chronicle : Chronicle) (view : Int) (receiver : Nat) : Prop :=
  ∃ sender attestations,
    ⟨sender, receiver, .viewProof view attestations⟩ ∈ chronicle.cluster.queue

def Announced (chronicle : Chronicle) (view : Int) (receiver : Nat) : Prop :=
  (∃ engine, chronicle.cluster.engines[receiver]? = some engine ∧ view ≤ engine.view) ∨
    chronicle.Told view receiver

/-- With nothing in flight the proof has arrived. -/
theorem Announced.arrived {chronicle : Chronicle} {view : Int} {receiver : Nat}
    (announced : chronicle.Announced view receiver) (idle : chronicle.cluster.queue = [])
    {engine : Engine} (present : chronicle.cluster.engines[receiver]? = some engine) :
    view ≤ engine.view := by
  rcases announced with ⟨other, found, reached⟩ | ⟨_, _, inFlight⟩
  · rw [present, Option.some.injEq] at found
    rw [found]
    exact reached
  · rw [idle] at inFlight
    exact absurd inFlight List.not_mem_nil

theorem told_of_broadcast {chronicle : Chronicle} {view : Int} {position receiver : Nat}
    {after : Engine} {events : List Event} {attestations : List Attestation}
    (broadcast : .broadcast (.viewProof view attestations) ∈ events)
    (within : receiver < chronicle.size) :
    (chronicle.record position after events).Told view receiver :=
  ⟨position, attestations, posted_of_broadcast broadcast within⟩

theorem Told.record {chronicle : Chronicle} {view : Int} {position receiver : Nat}
    {after : Engine} {events : List Event} (told : chronicle.Told view receiver) :
    (chronicle.record position after events).Told view receiver := by
  obtain ⟨sender, attestations, inFlight⟩ := told
  exact ⟨sender, attestations, mem_record_queue.2 (.inl inFlight)⟩

theorem Announced.record {chronicle : Chronicle} {view : Int} {position receiver : Nat}
    {before after : Engine} {events : List Event} (announced : chronicle.Announced view receiver)
    (present : chronicle.cluster.engines[position]? = some before)
    (forward : before.view ≤ after.view) :
    (chronicle.record position after events).Announced view receiver := by
  rcases announced with ⟨engine, found, reached⟩ | told
  · left
    rw [record_engine (List.getElem?_eq_some_iff.1 present).1]
    split
    · next same =>
        subst same
        rw [found, Option.some.injEq] at present
        subst present
        exact ⟨after, rfl, Int.le_trans reached forward⟩
    · exact ⟨engine, found, reached⟩
  · exact .inr told.record

/-- A proof in flight is accepted by whoever hears it. -/
theorem Sound.accepts {chronicle : Chronicle} (sound : chronicle.Sound) {packet : Packet}
    (inFlight : packet ∈ chronicle.cluster.queue) {view : Int} {attestations : List Attestation}
    (carried : packet.message = .viewProof view attestations) (later : 0 ≤ view)
    {position : Nat} {engine : Engine}
    (present : chronicle.cluster.engines[position]? = some engine) :
    Attestation.quorumFor view attestations engine.replicas = true := by
  obtain ⟨-, -, sanctioned⟩ := sound.inFlight packet inFlight
  rw [carried] at sanctioned
  obtain ⟨certificate, ⟨ballot, quorum⟩, rfl⟩ := sanctioned
  rw [← (sound.seated position engine present).2] at quorum
  have seated : ∀ sender, chronicle.Cast sender view → 0 ≤ sender ∧ sender < engine.replicas := by
    intro sender cast
    rw [(sound.seated position engine present).2]
    exact (evidence_electoral chronicle).seated sender view cast
  have valid := (ballot.isValid_iff seated engine.roster_positive).2 (Int.le_of_eq quorum.symm)
  rw [← ballot.candidate] at later ⊢
  exact Certificate.quorumFor_of_isValid valid later

theorem Announced.delivery {before after : Chronicle} (delivery : Delivery before after)
    (sound : before.Sound)
    (senders : ∀ packet ∈ before.cluster.queue, before.cluster.isDown packet.sender = false)
    {view : Int} (later : 0 ≤ view) {receiver : Nat} (live : before.IsLive receiver)
    (announced : before.Announced view receiver) : after.Announced view receiver := by
  cases delivery with
  | missed packet queue taken cut =>
      rcases announced with installed | ⟨sender, attestations, inFlight⟩
      · exact .inl installed
      · rcases taken.others _ inFlight with same | left
        · exact absurd cut (live.not_cut (senders packet taken.waiting) (same ▸ rfl))
        · exact .inr ⟨sender, attestations, left⟩
  | heard packet queue position engine taken senderUp receiverUp addressed present =>
      have within : position < (before.withQueue queue).size :=
        (List.getElem?_eq_some_iff.1 present).1
      have forward := @Engine.view_le_receive engine neverHalts before.cluster.now
        ⟨packet.sender, packet.message⟩ Cluster.neverHalts_calm
      rcases announced with installed | ⟨sender, attestations, inFlight⟩
      · have waiting : (before.withQueue queue).Announced view receiver := .inl installed
        exact waiting.record present forward
      · rcases taken.others _ inFlight with rfl | left
        · have same : receiver = position := Int.ofNat.inj addressed
          left
          rw [record_engine within, if_pos same]
          exact ⟨_, rfl, Engine.view_receive_proof (sound.knows taken.waiting present)
            (sound.accepts taken.waiting rfl later present)⟩
        · exact .inr ⟨sender, attestations, mem_record_queue.2 (.inl left)⟩

end Chronicle

end ViewSync
