import ViewSync.Proofs.EventLog
import ViewSync.Proofs.Vigil

/-!
What reaches a replica when only replicas speak.

Every datagram that a replica sends is the frame of what it broadcasts. The frames of different
envelopes are never taken for one another, even when they are cut on arrival, so out of a datagram
comes the envelope that went into it or nothing. Hence a replica that is reached by nothing but
frames of what was said hears nothing but what was said.
-/

namespace ViewSync

namespace Frame

structure Legible (envelope : Envelope) : Prop where
  inRange : InRange envelope
  countable : envelope.message.attestations.length < Word.count

theorem eq_of_heads {envelope : Envelope} {frame bytes : Bytes} {envelopes : List Envelope}
    (spells : Spells envelope frame) (begins : bytes <+: frame) (heads : Heads bytes envelopes) :
    ∀ other ∈ envelopes, other = envelope := by
  obtain ⟨run, ⟨canonical, joined⟩, -, rfl⟩ := heads
  cases run with
  | nil => exact fun _ listed => absurd listed List.not_mem_nil
  | cons first later =>
      obtain ⟨other, whole⟩ := first
      have whole_canonical : Canonical other whole := canonical _ List.mem_cons_self
      rw [List.flatMap_cons] at joined
      have fits := joined.trans begins
      obtain ⟨rfl, rfl⟩ :=
        whole_canonical.spells.eq_of_prefix spells ((List.prefix_append _ _).trans fits)
      have nothingElse : later = [] := by
        cases later with
        | nil => rfl
        | cons second rest =>
            have size := length_of_encode
              (canonical second (List.mem_cons_of_mem _ List.mem_cons_self)).written
            have short := fits.length_le
            rw [List.flatMap_cons, List.length_append, List.length_append, size] at short
            have positive : 0 < lengthSize := by decide
            dsimp only at short
            omega
      rw [nothingElse]
      exact fun found listed => List.mem_singleton.1 listed

end Frame

def Carries (said : Envelope → Prop) (payload : Bytes) : Prop :=
  ∃ envelope, said envelope ∧ Frame.encode envelope = .ok payload

theorem Carries.mono {said later : Envelope → Prop} {payload : Bytes}
    (carries : Carries said payload) (kept : ∀ envelope, said envelope → later envelope) :
    Carries later payload := by
  obtain ⟨envelope, spoken, written⟩ := carries
  exact ⟨envelope, kept envelope spoken, written⟩

theorem Carries.heads {said : Envelope → Prop} {payload bytes : Bytes}
    {envelopes : List Envelope} (carries : Carries said payload)
    (legible : ∀ envelope, said envelope → Frame.Legible envelope) (begins : bytes <+: payload)
    (heads : Frame.Heads bytes envelopes) : ∀ envelope ∈ envelopes, said envelope := by
  obtain ⟨envelope, spoken, written⟩ := carries
  obtain ⟨inRange, countable⟩ := legible envelope spoken
  intro other listed
  rw [Frame.eq_of_heads ⟨inRange, countable, written⟩ begins heads other listed]
  exact spoken

/-! ### Following events -/

theorem Machine.mem_placeArrival {arrival other : Arrival} {arrivals : List Arrival}
    (present : other ∈ placeArrival arrival arrivals) : other = arrival ∨ other ∈ arrivals := by
  induction arrivals with
  | nil => exact .inl (List.mem_singleton.1 present)
  | cons first rest ih =>
      rw [placeArrival] at present
      split at present
      · exact List.mem_cons.1 present
      · rcases List.mem_cons.1 present with same | later
        · exact .inr (List.mem_cons.2 (.inl same))
        · exact (ih later).imp id (List.mem_cons_of_mem _)

namespace Transport

theorem payload_sendEach (frame : Bytes) (peers : List (Option Address)) (machine : Machine) :
    ∀ sending ∈ (sendEach frame peers machine).1, sending.payload = frame := by
  induction peers generalizing machine with
  | nil => exact fun _ listed => absurd listed List.not_mem_nil
  | cons peer rest ih =>
      cases peer with
      | none => exact ih machine
      | some address =>
          intro sending listed
          rcases List.mem_cons.1 listed with rfl | later
          · rfl
          · exact ih _ sending later

/-- What a replica sends to itself is the only thing that sending makes arrive. -/
theorem arrivals_sendEach (frame : Bytes) (peers : List (Option Address)) (machine : Machine) :
    ∀ arrival ∈ (sendEach frame peers machine).2.arrivals,
      arrival ∈ machine.arrivals ∨ arrival.signal = .datagram frame := by
  induction peers generalizing machine with
  | nil => exact fun _ present => .inl present
  | cons peer rest ih =>
      cases peer with
      | none => exact ih machine
      | some address =>
          intro arrival present
          rcases ih _ arrival present with sent | same
          · split at sent
            · rcases Machine.mem_placeArrival sent with rfl | earlier
              · exact .inr rfl
              · exact .inl earlier
            · exact .inl sent
          · exact .inr same

end Transport

namespace Replica

section Follow

variable (replica : Replica) (engine : Engine) (events : List Event)

theorem follow_place :
    (replica.follow engine events).transport = replica.transport ∧
      (replica.follow engine events).scenario = replica.scenario := by
  refine replica.follow_induction engine events
    (fun after _ => after.transport = replica.transport ∧ after.scenario = replica.scenario)
    ⟨rfl, rfl⟩ ?_
  intro before earlier event same
  cases event <;> exact same

theorem follow_installs :
    (replica.follow engine events).installs.toList =
      replica.installs.toList ++ installations events := by
  refine replica.follow_induction engine events
    (fun after done => after.installs.toList = replica.installs.toList ++ installations done)
    (List.append_nil _).symm ?_
  intro before earlier event written
  rw [installations, List.filterMap_append, ← List.append_assoc]
  change _ = (replica.installs.toList ++ installations earlier) ++ _
  rw [← written]
  cases event with
  | broadcast message => exact (List.append_nil _).symm
  | quorumCollected view => exact (List.append_nil _).symm
  | viewInstalled view leader => exact Array.toList_push

theorem follow_finished :
    (replica.follow engine events).finished =
      (replica.finished || (installations events).any fun installation =>
        replica.scenario.isFinished installation.1 installation.2) := by
  refine (replica.follow_induction engine events
    (fun after done => after.scenario = replica.scenario ∧ after.finished =
      (replica.finished || (installations done).any fun installation =>
        replica.scenario.isFinished installation.1 installation.2))
    ⟨rfl, (Bool.or_false _).symm⟩ ?_).2
  rintro before earlier event ⟨same, finished⟩
  rw [installations, List.filterMap_append, List.any_append, ← Bool.or_assoc]
  change _ ∧ _ = ((replica.finished || (installations earlier).any _) || _)
  rw [← finished, ← same]
  cases event with
  | broadcast message => exact ⟨rfl, (Bool.or_false _).symm⟩
  | quorumCollected view => exact ⟨rfl, (Bool.or_false _).symm⟩
  | viewInstalled view leader => exact ⟨rfl, by simp [perform, Event.installation?]⟩

def Utters (self : Int) (events : List Event) (payload : Bytes) : Prop :=
  ∃ message, .broadcast message ∈ events ∧ Frame.encode ⟨self, message⟩ = .ok payload

theorem Utters.append {self : Int} {events : List Event} {payload : Bytes}
    (utters : Utters self events payload) (more : List Event) :
    Utters self (events ++ more) payload := by
  obtain ⟨message, told, written⟩ := utters
  exact ⟨message, List.mem_append_left _ told, written⟩

theorem follow_sendings :
    ∀ sending ∈ (replica.follow engine events).sendings.toList,
      sending ∈ replica.sendings.toList ∨
        Utters replica.transport.self events sending.payload := by
  refine (replica.follow_induction engine events
    (fun after done => after.transport = replica.transport ∧
      ∀ sending ∈ after.sendings.toList, sending ∈ replica.sendings.toList ∨
        Utters replica.transport.self done sending.payload)
    ⟨rfl, fun _ listed => .inl listed⟩ ?_).2
  rintro before earlier event ⟨same, sent⟩
  have still : ∀ sending ∈ before.sendings.toList, sending ∈ replica.sendings.toList ∨
      Utters replica.transport.self (earlier ++ [event]) sending.payload :=
    fun sending listed => (sent sending listed).imp id fun utters => utters.append _
  cases event with
  | broadcast message =>
      refine ⟨same, ?_⟩
      intro sending listed
      simp only [perform, Array.toList_appendList, List.mem_append] at listed
      rcases listed with former | fresh
      · exact still sending former
      · right
        unfold Transport.broadcast Transport.sendTo at fresh
        split at fresh
        · exact absurd fresh List.not_mem_nil
        · next frame written =>
            rw [Transport.payload_sendEach _ _ _ sending fresh]
            rw [same] at written
            exact ⟨message, List.mem_append_right _ List.mem_cons_self, written⟩
  | quorumCollected view => exact ⟨same, still⟩
  | viewInstalled view leader => exact ⟨same, still⟩

/-- Nothing is made to arrive by following events but what the replica sends to itself. -/
theorem follow_arrivals :
    ∀ arrival ∈ (replica.follow engine events).machine.arrivals,
      arrival ∈ replica.machine.arrivals ∨ ∃ payload,
        arrival.signal = .datagram payload ∧ Utters replica.transport.self events payload := by
  refine (replica.follow_induction engine events
    (fun after done => after.transport = replica.transport ∧
      ∀ arrival ∈ after.machine.arrivals, arrival ∈ replica.machine.arrivals ∨ ∃ payload,
        arrival.signal = .datagram payload ∧ Utters replica.transport.self done payload)
    ⟨rfl, fun _ present => .inl present⟩ ?_).2
  rintro before earlier event ⟨same, arrived⟩
  have still : ∀ arrival ∈ before.machine.arrivals, arrival ∈ replica.machine.arrivals ∨
      ∃ payload, arrival.signal = .datagram payload ∧
        Utters replica.transport.self (earlier ++ [event]) payload := by
    intro arrival present
    refine (arrived arrival present).imp id ?_
    rintro ⟨payload, signal, utters⟩
    exact ⟨payload, signal, utters.append _⟩
  cases event with
  | broadcast message =>
      refine ⟨same, ?_⟩
      intro arrival present
      simp only [perform, Transport.broadcast, Transport.sendTo] at present
      split at present
      · exact still arrival present
      · next frame written =>
          rcases Transport.arrivals_sendEach _ _ _ arrival present with former | signal
          · exact still arrival former
          · rw [same] at written
            exact .inr ⟨frame, signal, message, List.mem_append_right _ List.mem_cons_self,
              written⟩
  | quorumCollected view => exact ⟨same, still⟩
  | viewInstalled view leader => exact ⟨same, still⟩

theorem hear_self : replica.hear.2.transport.self = replica.transport.self := by
  have handOn_self : ∀ transport : Transport, transport.handOn.2.self = transport.self := by
    intro transport
    unfold Transport.handOn
    split <;> rfl
  unfold hear
  rw [Transport.receive_eq]
  cases replica.transport.request replica.patience with
  | none => exact handOn_self replica.transport
  | some timeout =>
      dsimp only
      cases (replica.machine.await timeout).1 with
      | datagram payload => exact handOn_self _
      | nothing => rfl
      | stopped => rfl

end Follow

/-! ### Replicas that hear what is said -/

/-- Nothing has reached the replica, or is about to, but what was said. -/
structure Tuned (said : Envelope → Prop) (replica : Replica) : Prop where
  stream : replica.transport.stream = {}
  received : ∀ envelope ∈ replica.transport.received, said envelope
  arrivals : ∀ arrival ∈ replica.machine.arrivals, ∀ payload,
    arrival.signal = .datagram payload → Carries said payload

section Tuned

variable {said later : Envelope → Prop} {replica : Replica}

theorem Tuned.follow (tuned : replica.Tuned said) (engine : Engine) {events : List Event}
    (kept : ∀ envelope, said envelope → later envelope)
    (spoken : ∀ message, .broadcast message ∈ events →
      later ⟨replica.transport.self, message⟩) :
    (replica.follow engine events).Tuned later where
  stream := by
    rw [(follow_place replica engine events).1]
    exact tuned.stream
  received := by
    rw [(follow_place replica engine events).1]
    exact fun envelope waiting => kept envelope (tuned.received envelope waiting)
  arrivals := by
    intro arrival present payload signal
    rcases follow_arrivals replica engine events arrival present with
      former | ⟨uttered, same, message, told, written⟩
    · exact (tuned.arrivals arrival former payload signal).mono kept
    · rw [signal] at same
      cases same
      exact ⟨_, spoken message told, written⟩

theorem Tuned.handOn {transport : Transport} (received : ∀ envelope ∈ transport.received,
    said envelope) :
    (∀ envelope ∈ transport.handOn.2.received, said envelope) ∧
      ∀ envelope, transport.handOn.1 = .envelope envelope → said envelope := by
  have all := transport.handOn_received
  constructor
  · intro envelope waiting
    apply received
    rw [← all]
    exact List.mem_append_right _ waiting
  · intro envelope handed
    apply received
    rw [← all, handed]
    exact List.mem_append_left _ List.mem_cons_self

/-- The next message of a tuned replica is something that was said. -/
theorem Tuned.hear (tuned : replica.Tuned said)
    (legible : ∀ envelope, said envelope → Frame.Legible envelope) :
    replica.hear.2.Tuned said ∧
      ∀ envelope, replica.hear.1 = .envelope envelope → said envelope := by
  cases waiting : replica.transport.received with
  | cons first rest =>
      have heard := Transport.receive_of_waiting waiting replica.machine replica.patience
      unfold Replica.hear
      rw [heard]
      refine ⟨⟨tuned.stream, ?_, tuned.arrivals⟩, ?_⟩
      · intro envelope listed
        apply tuned.received
        rw [waiting]
        exact List.mem_cons_of_mem _ listed
      · rintro envelope ⟨⟩
        apply tuned.received
        rw [waiting]
        exact List.mem_cons_self
  | nil =>
      have heard := Transport.receive_of_empty waiting replica.machine replica.patience
      unfold Replica.hear
      rw [heard]
      rcases replica.machine.await_cases (Transport.pollTimeout replica.patience) with
        stopped | ⟨waited, -⟩ | ⟨arrival, rest, first, taken, -⟩
      · rw [stopped]
        exact ⟨tuned, fun _ impossible => Transport.Received.noConfusion impossible⟩
      · rw [waited]
        exact ⟨⟨tuned.stream, tuned.received, tuned.arrivals⟩,
          fun _ impossible => Transport.Received.noConfusion impossible⟩
      · rw [taken]
        have present : arrival ∈ replica.machine.arrivals := first ▸ List.mem_cons_self
        have rest_carries : ∀ other ∈ rest, ∀ payload, other.signal = .datagram payload →
            Carries said payload :=
          fun other listed => tuned.arrivals other (first ▸ List.mem_cons_of_mem _ listed)
        cases signal : arrival.signal with
        | datagram payload =>
            obtain ⟨envelopes, heads, received⟩ := Transport.heads_absorb tuned.stream
              (payload.take Machine.maxDatagram)
            rw [waiting, List.nil_append] at received
            have spoken := (tuned.arrivals arrival present payload signal).heads legible
              (List.take_prefix _ _) heads
            rw [← received] at spoken
            have handed := Tuned.handOn spoken
            exact ⟨⟨Transport.handOn_stream _, handed.1, rest_carries⟩, handed.2⟩
        | readFailure =>
            exact ⟨⟨tuned.stream, tuned.received, rest_carries⟩,
              fun _ impossible => Transport.Received.noConfusion impossible⟩
        | waitFailure =>
            exact ⟨⟨tuned.stream, tuned.received, rest_carries⟩,
              fun _ impossible => Transport.Received.noConfusion impossible⟩

end Tuned

end Replica

end ViewSync
