import ViewSync.Proofs.Clock

/-!
A live leader of the highest view keeps every live replica from asking for another one.

The clock is moved on in steps, and all messages are delivered before it moves again. What carries
the argument is the distance between the leader's proof deadline and the progress deadlines of the
others: these are later by a step at least, unless a proof is on its way and is about to set them
anew. So the proof timer fires first, and whoever hears the proof is ahead by a step again. Only
proofs are ever in flight, and none of them is of a view after the leader's.
-/

namespace ViewSync

namespace Engine

section Transitions

variable {engine : Engine} {halts : Int → Bool} {now sender view : Int}
  {attestations : List Attestation}

theorem receive_proof_cases :
    (((engine.receive halts now ⟨sender, .viewProof view attestations⟩).engine = engine ∧
        (engine.receive halts now ⟨sender, .viewProof view attestations⟩).events = []) ∧
      (¬ engine.knows sender = true ∨
        ¬ Attestation.quorumFor view attestations engine.replicas = true ∨ view < engine.view)) ∨
    ((engine.receive halts now ⟨sender, .viewProof view attestations⟩).engine.timers.progress =
        .reset now (nanosOfMillis engine.timers.progressInterval) ∧
      (engine.receive halts now ⟨sender, .viewProof view attestations⟩).engine.view = view ∧
      (engine.view = view →
        (engine.receive halts now ⟨sender, .viewProof view attestations⟩).engine.timers.proof =
          engine.timers.proof) ∧
      engine.view ≤ view) := by
  simp only [receive]
  rcases @receiveViewProof_cases engine now sender view attestations with
    ignored | ⟨⟨after, -⟩, -, -, same⟩ | ⟨⟨after, -⟩, -, -, later⟩
  · exact .inl ignored
  · rw [after]
    exact .inr ⟨rfl, same, fun _ => rfl, Int.le_of_eq same⟩
  · rw [after]
    refine .inr ⟨install_progress _ _ _ _, install_view _ _ _ _, ?_, Int.le_of_lt later⟩
    intro same
    omega

theorem broadcast_of_receive_proof {message : Message}
    (answer : .broadcast message ∈
      (engine.receive halts now ⟨sender, .viewProof view attestations⟩).events) :
    ∃ listed, message = .viewProof view listed := by
  simp only [receive] at answer
  rcases @receiveViewProof_cases engine now sender view attestations with
    ⟨⟨-, events⟩, -⟩ | ⟨⟨-, events⟩, -⟩ | ⟨⟨-, events⟩, -⟩
  · rw [events] at answer
    exact absurd answer List.not_mem_nil
  · rw [events] at answer
    exact absurd answer List.not_mem_nil
  · rw [events, broadcast_mem_install] at answer
    exact ⟨_, answer.2⟩

/-- A replica whose progress timer is not due asks its proof timer only. It announces its view if
it leads it and the timer is due, and else it says nothing. -/
theorem fireDue_of_waiting (calm : ∀ view, halts view = false)
    (waiting : ¬ engine.timers.progress.isDue now = true) :
    ((engine.fireDue halts true now).engine = engine ∧
        (engine.fireDue halts true now).events = [] ∧
          ¬ engine.timers.proof.isDue now = true) ∨
    ((engine.fireDue halts true now).engine =
          { engine with timers := engine.timers.resetProof now } ∧
        (engine.fireDue halts true now).events =
          [.broadcast (.viewProof engine.view engine.installed.attestations)]) ∨
    ((engine.fireDue halts true now).engine =
          { engine with timers := engine.timers.disableProof } ∧
        (engine.fireDue halts true now).events = [] ∧
          ¬ (leaderOf engine.view engine.replicas = engine.self ∧
            engine.installed.isValid engine.replicas = true)) := by
  obtain ⟨asked, said⟩ := @fireDue_eq engine halts now calm true
  obtain ⟨unchanged, nothing, -⟩ := @fireProgress_of_not_due engine halts now waiting
  rw [unchanged] at asked said
  rw [nothing, List.nil_append] at said
  by_cases due : engine.timers.proof.isDue now = true
  · obtain ⟨fired, announced⟩ := fireProof_of_due due
    by_cases leads : leaderOf engine.view engine.replicas = engine.self ∧
        engine.installed.isValid engine.replicas = true
    · obtain ⟨after, events⟩ := @proofTimeout_of_leads engine now leads.1 leads.2
      exact .inr (.inl ⟨asked.trans (fired.trans after), said.trans (announced.trans events)⟩)
    · obtain ⟨after, events⟩ := @proofTimeout_of_silent engine now (not_and_or.1 leads)
      exact .inr (.inr
        ⟨asked.trans (fired.trans after), said.trans (announced.trans events), leads⟩)
  · obtain ⟨fired, announced⟩ := fireProof_of_not_due due
    exact .inl ⟨asked.trans fired, said.trans announced, due⟩

end Transitions

end Engine

namespace Chronicle

open Cluster (Move neverHalts)

/-! ### What goes on meanwhile -/

def Aligned (chronicle : Chronicle) (view : Int) : Prop :=
  ∀ (position : Nat) (engine : Engine), chronicle.IsLive position →
    chronicle.cluster.engines[position]? = some engine → view ≤ engine.view

def AllAnnounced (chronicle : Chronicle) (view : Int) : Prop :=
  ∀ position, chronicle.IsLive position → chronicle.Announced view position

structure Onward (before after : Chronicle) (view : Int) : Prop where
  seen : ∃ events, after.seen = before.seen ++ events ∧
    ∀ (position : Nat) (asked : Int), (position, .broadcast (.viewChange asked)) ∉ events
  announced : before.AllAnnounced view → after.AllAnnounced view
  aligned : before.Aligned view → after.Aligned view

theorem Onward.refl (chronicle : Chronicle) (view : Int) : Onward chronicle chronicle view where
  seen := ⟨[], (List.append_nil _).symm, fun _ _ => List.not_mem_nil⟩
  announced := id
  aligned := id

theorem Onward.trans {first second third : Chronicle} {view : Int}
    (earlier : Onward first second view) (later : Onward second third view) :
    Onward first third view where
  seen := by
    obtain ⟨early, earlySeen, earlyQuiet⟩ := earlier.seen
    obtain ⟨late, lateSeen, lateQuiet⟩ := later.seen
    refine ⟨early ++ late, ?_, ?_⟩
    · rw [lateSeen, earlySeen, List.append_assoc]
    · intro position asked listed
      rcases List.mem_append.1 listed with inEarly | inLate
      · exact earlyQuiet position asked inEarly
      · exact lateQuiet position asked inLate
  announced := later.announced ∘ earlier.announced
  aligned := later.aligned ∘ earlier.aligned

section Record

variable {chronicle : Chronicle} {view : Int} {position : Nat} {before after : Engine}
  {events : List Event}

/-- A step in which a replica only broadcasts proofs and does not go back. -/
theorem onward_record (present : chronicle.cluster.engines[position]? = some before)
    (forward : before.view ≤ after.view)
    (proofs : ∀ message, .broadcast message ∈ events →
      ∃ proved attestations, message = .viewProof proved attestations) :
    Onward chronicle (chronicle.record position after events) view where
  seen := by
    refine ⟨events.map (position, ·), rfl, ?_⟩
    intro other asked listed
    obtain ⟨event, happened, same⟩ := List.mem_map.1 listed
    cases same
    obtain ⟨proved, attestations, proof⟩ := proofs _ happened
    cases proof
  announced all receiver live :=
    (all receiver (isLive_record.1 live)).record present forward
  aligned all other engine live found := by
    rw [isLive_record] at live
    rcases stored_record found with ⟨rfl, rfl⟩ | ⟨-, earlier⟩
    · exact Int.le_trans (all other before live present) forward
    · exact all other engine live earlier

end Record

/-! ### The leader's cluster -/

/-- A live replica leads the highest view of all live ones, every live replica waits for longer
than the leader's pace and a step, and only proofs are in flight. -/
structure Led (chronicle : Chronicle) (view pace step : Int) (leader : Nat) : Prop where
  sound : chronicle.Sound
  fits : chronicle.Fits chronicle.cluster.now
  live : chronicle.IsLive leader
  later : 0 < view
  leads : leaderOf view chronicle.size = leader
  most : ∀ (position : Nat) (engine : Engine), chronicle.IsLive position →
    chronicle.cluster.engines[position]? = some engine → engine.view ≤ view
  patient : ∀ (position : Nat) (engine : Engine), chronicle.IsLive position →
    chronicle.cluster.engines[position]? = some engine →
      pace + step ≤ engine.timers.progressInterval
  proofs : ∀ packet ∈ chronicle.cluster.queue,
    chronicle.cluster.isDown packet.sender = false ∧
      ∃ proved attestations, packet.message = .viewProof proved attestations ∧ proved ≤ view

variable {chronicle : Chronicle} {view pace step : Int} {leader : Nat}

theorem Led.record (led : chronicle.Led view pace step leader) {position : Nat}
    {before after : Engine} {events : List Event}
    (present : chronicle.cluster.engines[position]? = some before)
    (sound : (chronicle.record position after events).Sound)
    (sameSeat : after.seat = before.seat)
    (up : chronicle.cluster.isDown position = false)
    (most : after.view ≤ view)
    (proofs : ∀ message, .broadcast message ∈ events →
      ∃ proved attestations, message = .viewProof proved attestations ∧ proved ≤ view) :
    (chronicle.record position after events).Led view pace step leader where
  sound := sound
  fits := by
    rw [record_now]
    exact led.fits.record present sameSeat
  live := isLive_record.2 led.live
  later := led.later
  leads := by
    rw [record_size]
    exact led.leads
  most other engine live found := by
    rw [isLive_record] at live
    rcases stored_record found with ⟨-, rfl⟩ | ⟨-, earlier⟩
    · exact most
    · exact led.most other engine live earlier
  patient other engine live found := by
    rw [isLive_record] at live
    rcases stored_record found with ⟨rfl, rfl⟩ | ⟨-, earlier⟩
    · rw [Engine.seat_progressInterval sameSeat]
      exact led.patient other before live present
    · exact led.patient other engine live earlier
  proofs packet inFlight := by
    rw [record_isDown]
    rcases mem_record_queue.1 inFlight with waiting | posted
    · exact led.proofs packet waiting
    · obtain ⟨sent, broadcast, -⟩ := Cluster.mem_posted.1 posted
      rw [sent]
      exact ⟨up, proofs packet.message broadcast⟩

theorem Led.withQueue (led : chronicle.Led view pace step leader) {queue : List Packet}
    (fewer : ∀ packet ∈ queue, packet ∈ chronicle.cluster.queue) :
    (chronicle.withQueue queue).Led view pace step leader where
  sound := led.sound.withQueue fewer
  fits := led.fits
  live := led.live
  later := led.later
  leads := led.leads
  most := led.most
  patient := led.patient
  proofs packet left := led.proofs packet (fewer packet left)

theorem Sound.installed_valid (sound : chronicle.Sound) {position : Nat} {engine : Engine}
    (present : chronicle.cluster.engines[position]? = some engine) (later : 0 < engine.view) :
    engine.installed.isValid engine.replicas = true := by
  rcases (sound.kept position engine present).justified with ⟨first, -⟩ | ⟨-, ballot, quorum⟩
  · omega
  · rw [← (sound.seated position engine present).2] at quorum
    have seated : ∀ sender, chronicle.Cast sender engine.view →
        0 ≤ sender ∧ sender < engine.replicas := by
      intro sender cast
      rw [(sound.seated position engine present).2]
      exact (evidence_electoral chronicle).seated sender engine.view cast
    rw [ballot.isValid_iff seated engine.roster_positive]
    exact Int.le_of_eq quorum.symm

/-- The leader announces its view by `deadline`, and every live replica waits for a step longer
than that, unless a proof is on its way to it. -/
structure Guarded (chronicle : Chronicle) (view pace step : Int) (leader : Nat) (deadline : Int) :
    Prop extends chronicle.Led view pace step leader where
  leading : ∃ engine, chronicle.cluster.engines[leader]? = some engine ∧ engine.view = view ∧
    engine.timers.proofInterval = pace ∧ engine.timers.proof = ⟨true, deadline⟩
  ahead : chronicle.cluster.now < deadline
  near : deadline ≤ chronicle.cluster.now + pace * nanosPerMilli
  waiting : ∀ (position : Nat) (engine : Engine), chronicle.IsLive position →
    chronicle.cluster.engines[position]? = some engine →
      engine.timers.progress.armed = true →
        deadline + step * nanosPerMilli ≤ engine.timers.progress.deadline ∨
          chronicle.Told view position

/-! ### Deliveries -/

section Deliver

variable {later : Chronicle} {deadline : Int}

theorem Told.withQueue {packet : Packet} {queue : List Packet}
    (taken : Taken packet chronicle.cluster.queue queue) {receiver : Nat}
    (told : chronicle.Told view receiver)
    (elsewhere : packet.receiver = receiver →
      ∀ attestations, packet.message ≠ .viewProof view attestations) :
    (chronicle.withQueue queue).Told view receiver := by
  obtain ⟨sender, attestations, inFlight⟩ := told
  rcases taken.others _ inFlight with same | left
  · exact absurd (same ▸ rfl) (elsewhere (same ▸ rfl) attestations)
  · exact ⟨sender, attestations, left⟩

theorem Led.answers (led : chronicle.Led view pace step leader) {packet : Packet}
    (inFlight : packet ∈ chronicle.cluster.queue) (engine : Engine) {message : Message}
    (answer : .broadcast message ∈ (engine.receive neverHalts chronicle.cluster.now
      ⟨packet.sender, packet.message⟩).events) :
    ∃ proved attestations, message = .viewProof proved attestations ∧ proved ≤ view := by
  obtain ⟨-, proved, attestations, carried, earlier⟩ := led.proofs packet inFlight
  rw [carried] at answer
  obtain ⟨listed, proof⟩ := Engine.broadcast_of_receive_proof answer
  exact ⟨proved, listed, proof, earlier⟩

theorem Led.patience (led : chronicle.Led view pace step leader)
    (near : deadline ≤ chronicle.cluster.now + pace * nanosPerMilli) {position : Nat}
    {engine : Engine} (live : chronicle.IsLive position)
    (present : chronicle.cluster.engines[position]? = some engine) :
    deadline + step * nanosPerMilli ≤
      (Countdown.reset chronicle.cluster.now
        (nanosOfMillis engine.timers.progressInterval)).deadline := by
  have set : (Countdown.reset chronicle.cluster.now
      (nanosOfMillis engine.timers.progressInterval)).deadline =
        chronicle.cluster.now + engine.timers.progressInterval * nanosPerMilli :=
    wrap64_add_nanos (led.fits.2 engine (List.mem_of_getElem? present)).1
  have patient := led.patient position engine live present
  rw [set]
  unfold nanosPerMilli at near ⊢
  omega

/-- Hearing a message takes no replica beyond the leader's view and leaves the leader's proof timer
alone. A proof of the leader's view always sets the progress timer anew. -/
theorem Led.hear (led : chronicle.Led view pace step leader) {packet : Packet}
    (inFlight : packet ∈ chronicle.cluster.queue) {position : Nat} {engine : Engine}
    (live : chronicle.IsLive position)
    (present : chronicle.cluster.engines[position]? = some engine) :
    let hearing := engine.receive neverHalts chronicle.cluster.now
      ⟨packet.sender, packet.message⟩
    hearing.engine.view ≤ view ∧
      (engine.view = view →
        hearing.engine.view = view ∧ hearing.engine.timers.proof = engine.timers.proof) ∧
      ((hearing.engine.timers.progress = engine.timers.progress ∧
          ∀ attestations, packet.message ≠ .viewProof view attestations) ∨
        hearing.engine.timers.progress =
          .reset chronicle.cluster.now (nanosOfMillis engine.timers.progressInterval)) := by
  intro hearing
  obtain ⟨-, proved, attestations, carried, earlier⟩ := led.proofs packet inFlight
  have most := led.most position engine live present
  have heard := @Engine.receive_proof_cases engine neverHalts chronicle.cluster.now
    packet.sender proved attestations
  rw [← carried] at heard
  rcases heard with ⟨⟨same, -⟩, ignored⟩ | ⟨set, moved, kept, behind⟩
  · rw [show hearing.engine = engine from same]
    refine ⟨most, fun atView => ⟨atView, rfl⟩, .inl ⟨rfl, ?_⟩⟩
    -- a replica that is not beyond the leader's view does not ignore its proof
    intro _ proof
    rw [carried] at proof
    cases proof
    rcases ignored with unknown | invalid | stale
    · exact unknown (led.sound.knows inFlight present)
    · exact invalid (led.sound.accepts inFlight carried (Int.le_of_lt led.later) present)
    · omega
  · refine ⟨?_, ?_, .inr set⟩
    · rw [show hearing.engine.view = proved from moved]
      exact earlier
    · intro atView
      have sameView : engine.view = proved := by omega
      exact ⟨moved.trans (sameView.symm.trans atView), kept sameView⟩

theorem Guarded.delivery (guarded : chronicle.Guarded view pace step leader deadline)
    (delivery : Delivery chronicle later) : later.Guarded view pace step leader deadline := by
  have led := guarded.toLed
  have soundLater := led.sound.delivery delivery
  cases delivery with
  | missed packet queue taken cut =>
      refine ⟨led.withQueue taken.fewer, guarded.leading, guarded.ahead, guarded.near, ?_⟩
      intro position engine live found armed
      apply (guarded.waiting position engine live found armed).imp_right
      intro told
      apply told.withQueue taken
      intro addressed
      exact absurd cut (live.not_cut (led.proofs packet taken.waiting).1 addressed)
  | heard packet queue position engine taken senderUp receiverUp addressed present =>
      have within : position < (chronicle.withQueue queue).size :=
        (List.getElem?_eq_some_iff.1 present).1
      have live : chronicle.IsLive position := ⟨within, addressed ▸ receiverUp⟩
      have sameSeat := @Engine.receive_seat engine neverHalts chronicle.cluster.now
        Cluster.neverHalts_calm ⟨packet.sender, packet.message⟩
      obtain ⟨most, unset, hears⟩ := led.hear taken.waiting live present
      refine ⟨?_, ?_, ?_, ?_, ?_⟩
      · exact (led.withQueue taken.fewer).record present soundLater sameSeat live.2 most
          fun _ => led.answers taken.waiting engine
      · obtain ⟨leading, found, atView, paced, set⟩ := guarded.leading
        rw [record_engine within]
        split
        · next same =>
            subst same
            have alike : leading = engine := Option.some.inj (found.symm.trans present)
            subst alike
            obtain ⟨still, left⟩ := unset atView
            refine ⟨_, rfl, still, ?_, left.trans set⟩
            rw [Engine.seat_proofInterval sameSeat]
            exact paced
        · exact ⟨leading, found, atView, paced, set⟩
      · rw [record_now]
        exact guarded.ahead
      · rw [record_now]
        exact guarded.near
      · intro other found otherLive stored armed
        rw [isLive_record] at otherLive
        rcases stored_record stored with ⟨rfl, rfl⟩ | ⟨different, earlier⟩
        · rcases hears with ⟨same, another⟩ | set
          · rw [same] at armed ⊢
            apply (guarded.waiting other engine live present armed).imp_right
            exact fun told => (told.withQueue taken fun _ => another).record
          · rw [set]
            exact .inl (led.patience guarded.near live present)
        · apply (guarded.waiting other found otherLive earlier armed).imp_right
          intro told
          refine (told.withQueue taken ?_).record
          intro elsewhere
          rw [addressed] at elsewhere
          exact absurd (Int.ofNat.inj elsewhere).symm different

theorem Guarded.onward_delivery (guarded : chronicle.Guarded view pace step leader deadline)
    (delivery : Delivery chronicle later) : Onward chronicle later view := by
  have led := guarded.toLed
  have announced : chronicle.AllAnnounced view → later.AllAnnounced view := by
    intro all position live
    rw [delivery.isLive_iff] at live
    exact (all position live).delivery delivery led.sound
      (fun packet inFlight => (led.proofs packet inFlight).1) (Int.le_of_lt led.later) live
  cases delivery with
  | missed packet queue taken cut =>
      exact ⟨⟨[], (List.append_nil _).symm, fun _ _ => List.not_mem_nil⟩, announced, id⟩
  | heard packet queue position engine taken senderUp receiverUp addressed present =>
      have forward := @Engine.view_le_receive engine neverHalts chronicle.cluster.now
        ⟨packet.sender, packet.message⟩ Cluster.neverHalts_calm
      have proofs : ∀ message, .broadcast message ∈
          (engine.receive neverHalts chronicle.cluster.now
            ⟨packet.sender, packet.message⟩).events →
          ∃ proved attestations, message = .viewProof proved attestations := by
        intro message answer
        obtain ⟨proved, attestations, proof, -⟩ := led.answers taken.waiting engine answer
        exact ⟨proved, attestations, proof⟩
      have step := @onward_record (chronicle.withQueue queue) view position engine _ _ present
        forward proofs
      exact ⟨step.seen, announced, step.aligned⟩

end Deliver

/-! ### Timers -/

/-- Timers are being asked, and those at `positions` are yet to be. The leader had its proof timer
set to `start`, which is not long past, and has announced its view if it was due. -/
structure Ticking (chronicle : Chronicle) (view pace step : Int) (leader : Nat) (start : Int)
    (positions : List Nat) : Prop extends chronicle.Led view pace step leader where
  leading : ∃ engine, chronicle.cluster.engines[leader]? = some engine ∧ engine.view = view ∧
    engine.timers.proofInterval = pace ∧
      ((engine.timers.proof = ⟨true, start⟩ ∧
          (leader ∈ positions ∨ chronicle.cluster.now < start)) ∨
        (engine.timers.proof = ⟨true, chronicle.cluster.now + pace * nanosPerMilli⟩ ∧
          ∀ position, chronicle.IsLive position → chronicle.Told view position))
  recent : chronicle.cluster.now < start + step * nanosPerMilli
  near : start ≤ chronicle.cluster.now + pace * nanosPerMilli
  waiting : ∀ (position : Nat) (engine : Engine), chronicle.IsLive position →
    chronicle.cluster.engines[position]? = some engine →
      engine.timers.progress.armed = true →
        start + step * nanosPerMilli ≤ engine.timers.progress.deadline

section Tick

variable {start : Int} {position : Nat} {rest : List Nat}

theorem Ticking.not_due {positions : List Nat}
    (ticking : chronicle.Ticking view pace step leader start positions) {engine : Engine}
    (live : chronicle.IsLive position)
    (present : chronicle.cluster.engines[position]? = some engine) :
    ¬ engine.timers.progress.isDue chronicle.cluster.now = true := by
  intro due
  rw [Countdown.isDue, Bool.and_eq_true, decide_eq_true_eq] at due
  have waits := ticking.waiting position engine live present due.1
  have recent := ticking.recent
  omega

theorem Ticking.asked {positions : List Nat}
    (ticking : chronicle.Ticking view pace step leader start positions) {engine : Engine}
    (live : chronicle.IsLive position)
    (present : chronicle.cluster.engines[position]? = some engine) :
    (engine.fireDue neverHalts true chronicle.cluster.now).engine.view = engine.view ∧
      (engine.fireDue neverHalts true chronicle.cluster.now).engine.timers.progress =
        engine.timers.progress ∧
      ∀ message, .broadcast message ∈
          (engine.fireDue neverHalts true chronicle.cluster.now).events →
        ∃ proved attestations, message = .viewProof proved attestations ∧ proved ≤ view := by
  rcases Engine.fireDue_of_waiting Cluster.neverHalts_calm (ticking.not_due live present) with
    ⟨after, events, -⟩ | ⟨after, events⟩ | ⟨after, events, -⟩
  · rw [after, events]
    exact ⟨rfl, rfl, fun _ broadcast => absurd broadcast List.not_mem_nil⟩
  · rw [after, events]
    refine ⟨rfl, rfl, ?_⟩
    intro message broadcast
    rw [List.mem_singleton] at broadcast
    cases broadcast
    exact ⟨_, _, rfl, ticking.most position engine live present⟩
  · rw [after, events]
    exact ⟨rfl, rfl, fun _ broadcast => absurd broadcast List.not_mem_nil⟩

theorem Ticking.leader_asked
    (ticking : chronicle.Ticking view pace step leader start (leader :: rest)) {engine : Engine}
    (present : chronicle.cluster.engines[leader]? = some engine) :
    let firing := engine.fireDue neverHalts true chronicle.cluster.now
    (firing.engine.timers.proof = ⟨true, start⟩ ∧ chronicle.cluster.now < start) ∨
      (firing.engine.timers.proof =
          ⟨true, chronicle.cluster.now + pace * nanosPerMilli⟩ ∧
        ∀ position, chronicle.IsLive position →
          (chronicle.record leader firing.engine firing.events).Told view position) := by
  intro firing
  obtain ⟨leading, found, atView, paced, set⟩ := ticking.leading
  have alike : leading = engine := Option.some.inj (found.symm.trans present)
  subst alike
  obtain ⟨place, roster⟩ := ticking.sound.seated leader leading present
  have leads : leaderOf leading.view leading.replicas = leading.self := by
    rw [atView, roster, place]
    exact ticking.leads
  have valid : leading.installed.isValid leading.replicas = true :=
    ticking.sound.installed_valid present (atView ▸ ticking.later)
  rcases Engine.fireDue_of_waiting Cluster.neverHalts_calm (ticking.not_due ticking.live present) with
    ⟨after, events, waiting⟩ | ⟨after, events⟩ | ⟨-, -, silent⟩
  · rw [show firing.engine = leading from after]
    rcases set with ⟨earlier, -⟩ | ⟨anew, told⟩
    · left
      rw [earlier, Countdown.isDue, Bool.true_and, decide_eq_true_eq, Int.not_le] at waiting
      exact ⟨earlier, waiting⟩
    · exact .inr ⟨anew, fun position live => (told position live).record⟩
  · right
    have fits := ticking.fits.2 leading (List.mem_of_getElem? present)
    have deadline : wrap64 (chronicle.cluster.now +
        nanosOfMillis leading.timers.proofInterval) =
          chronicle.cluster.now + leading.timers.proofInterval * nanosPerMilli :=
      wrap64_add_nanos fits.2
    constructor
    · rw [show firing.engine = _ from after, ← paced, ← deadline]
      rfl
    · intro position live
      have broadcast : .broadcast (.viewProof view leading.installed.attestations) ∈
          firing.events := by
        rw [show firing.events = _ from events, atView]
        exact List.mem_singleton_self _
      exact told_of_broadcast broadcast live.1
  · exact absurd ⟨leads, valid⟩ silent

theorem Ticking.fireAt
    (ticking : chronicle.Ticking view pace step leader start (position :: rest)) :
    (chronicle.extend (chronicle.cluster.fireAt position)).Ticking view pace step leader start
        rest ∧
      Onward chronicle (chronicle.extend (chronicle.cluster.fireAt position)) view := by
  rcases fireAt_cases chronicle position with ⟨same, unasked⟩ | ⟨engine, live, present, fired⟩
  · have notLeader : leader ≠ position := by
      rintro rfl
      exact unasked ticking.live
    rw [same]
    refine ⟨⟨ticking.toLed, ?_, ticking.recent, ticking.near, ticking.waiting⟩, .refl _ _⟩
    obtain ⟨leading, found, atView, paced, set⟩ := ticking.leading
    refine ⟨leading, found, atView, paced, set.imp_left ?_⟩
    exact fun ⟨earlier, due⟩ => ⟨earlier, due.imp_left (List.mem_of_ne_of_mem notLeader)⟩
  · have sameSeat := @Engine.fireDue_seat engine neverHalts chronicle.cluster.now
      Cluster.neverHalts_calm
    obtain ⟨sameView, sameProgress, proofs⟩ := ticking.asked live present
    have sound := ticking.sound.fire present
    rw [fired]
    refine ⟨⟨?_, ?_, ?_, ?_, ?_⟩, ?_⟩
    · refine ticking.toLed.record present sound sameSeat live.2 ?_ proofs
      rw [sameView]
      exact ticking.most position engine live present
    · obtain ⟨leading, found, atView, paced, set⟩ := ticking.leading
      rw [record_engine live.1, record_now]
      split
      · next here =>
          subst here
          have alike : leading = engine := Option.some.inj (found.symm.trans present)
          subst alike
          refine ⟨_, rfl, sameView.trans atView, ?_, ?_⟩
          · rw [Engine.seat_proofInterval sameSeat]
            exact paced
          · apply (ticking.leader_asked present).imp
            · exact fun ⟨earlier, ahead⟩ => ⟨earlier, .inr ahead⟩
            · exact fun ⟨anew, told⟩ =>
                ⟨anew, fun other otherLive => told other (isLive_record.1 otherLive)⟩
      · next elsewhere =>
          refine ⟨leading, found, atView, paced, set.imp ?_ ?_⟩
          · exact fun ⟨earlier, due⟩ =>
              ⟨earlier, due.imp_left (List.mem_of_ne_of_mem elsewhere)⟩
          · exact fun ⟨anew, told⟩ =>
              ⟨anew, fun other otherLive => (told other (isLive_record.1 otherLive)).record⟩
    · rw [record_now]
      exact ticking.recent
    · rw [record_now]
      exact ticking.near
    · intro other found otherLive stored armed
      rw [isLive_record] at otherLive
      rcases stored_record stored with ⟨-, rfl⟩ | ⟨-, earlier⟩
      · rw [sameProgress] at armed ⊢
        exact ticking.waiting position engine live present armed
      · exact ticking.waiting other found otherLive earlier armed
    · apply onward_record present (Int.le_of_eq sameView.symm)
      intro message broadcast
      obtain ⟨proved, attestations, proof, -⟩ := proofs message broadcast
      exact ⟨proved, attestations, proof⟩

/-- When all timers have been asked the leader has a step before everyone again. Its proof timer is
set as it was, unless it has announced its view. -/
theorem Ticking.guarded (ticking : chronicle.Ticking view pace step leader start []) :
    ∃ deadline, chronicle.Guarded view pace step leader deadline ∧
      (deadline = start ∨ chronicle.AllAnnounced view) := by
  obtain ⟨leading, found, atView, paced, ⟨earlier, due⟩ | ⟨anew, told⟩⟩ := ticking.leading
  · have ahead := due.resolve_left List.not_mem_nil
    refine ⟨start, ?_, .inl rfl⟩
    exact ⟨ticking.toLed, ⟨leading, found, atView, paced, earlier⟩, ahead, ticking.near,
      fun position engine live present armed =>
        .inl (ticking.waiting position engine live present armed)⟩
  · have positive := Engine.nanos_positive leading.timers.proof_positive
    rw [paced] at positive
    refine ⟨chronicle.cluster.now + pace * nanosPerMilli, ?_,
      .inr fun position live => .inr (told position live)⟩
    exact ⟨ticking.toLed, ⟨leading, found, atView, paced, anew⟩, by omega, Int.le_refl _,
      fun position engine live _ _ => .inr (told position live)⟩

theorem Ticking.fireFrom (positions : List Nat)
    (ticking : chronicle.Ticking view pace step leader start positions) :
    (∃ deadline, (chronicle.extend (chronicle.cluster.fireFrom positions)).Guarded view pace step
        leader deadline ∧
      (deadline = start ∨
        (chronicle.extend (chronicle.cluster.fireFrom positions)).AllAnnounced view)) ∧
      Onward chronicle (chronicle.extend (chronicle.cluster.fireFrom positions)) view := by
  induction positions generalizing chronicle with
  | nil =>
      rw [Cluster.fireFrom_nil, extend_nothing]
      exact ⟨ticking.guarded, .refl _ _⟩
  | cons position rest ih =>
      obtain ⟨next, first⟩ := ticking.fireAt
      obtain ⟨guarded, later⟩ := ih next
      rw [extend_fireFrom_cons]
      exact ⟨guarded, first.trans later⟩

theorem Guarded.tick {deadline millis : Int}
    (guarded : chronicle.Guarded view pace step leader deadline)
    (idle : chronicle.cluster.queue = []) (forward : 0 ≤ millis) (most : millis ≤ step)
    (fits : chronicle.Fits (chronicle.cluster.now + millis * nanosPerMilli)) :
    (∃ later, (chronicle.move (.tick millis)).Guarded view pace step leader later ∧
        (later = deadline ∨ (chronicle.move (.tick millis)).AllAnnounced view)) ∧
      Onward chronicle (chronicle.move (.tick millis)) view := by
  have led := guarded.toLed
  have now := clocked_now fits.1
  have ahead := guarded.ahead
  have near := guarded.near
  have ticking : (chronicle.clocked millis).Ticking view pace step leader deadline
      (List.range chronicle.size) := by
    refine ⟨⟨led.sound.moment (.clock _), ?_, led.live, led.later, led.leads, led.most,
      led.patient, led.proofs⟩, ?_, ?_, ?_, ?_⟩
    · rw [now]
      exact fits
    · obtain ⟨leading, found, atView, paced, set⟩ := guarded.leading
      exact ⟨leading, found, atView, paced, .inl ⟨set, .inl (List.mem_range.2 led.live.1)⟩⟩
    · rw [now]
      unfold nanosPerMilli
      omega
    · rw [now]
      have onward := nanos_nonneg forward
      omega
    · intro position engine live present armed
      rcases guarded.waiting position engine live present armed with waits | ⟨_, _, inFlight⟩
      · exact waits
      · rw [idle] at inFlight
        exact absurd inFlight List.not_mem_nil
  have clockOnly : Onward chronicle (chronicle.clocked millis) view :=
    ⟨(Onward.refl chronicle view).seen, id, id⟩
  obtain ⟨after, later⟩ := ticking.fireFrom
  rw [move_tick]
  exact ⟨after, clockOnly.trans later⟩

end Tick

/-! ### Rounds -/

/-- Runs in rounds: when nothing is in flight the clock moves on by at most `step` milliseconds and
timers are asked, and then messages are delivered one at a time, in any order. -/
inductive Paced (step : Int) (start : Chronicle) : Chronicle → Prop
  | refl : Paced step start start
  | tick {before : Chronicle} (millis : Int) (run : Paced step start before)
      (idle : before.cluster.queue = []) (forward : 0 ≤ millis) (most : millis ≤ step)
      (fits : before.Fits (before.cluster.now + millis * nanosPerMilli)) :
      Paced step start (before.move (.tick millis))
  | deliver {before : Chronicle} (index : Int) (run : Paced step start before) :
      Paced step start (before.move (.deliver index))

theorem Paced.deliverAll (choices : List Int) {start before : Chronicle}
    (run : Paced step start before) : Paced step start (before.deliverAll choices) := by
  induction choices generalizing before with
  | nil => exact run
  | cons choice rest ih => exact ih (.deliver choice run)

theorem Paced.guarded {later : Chronicle} {deadline : Int}
    (guarded : chronicle.Guarded view pace step leader deadline)
    (paced : Paced step chronicle later) :
    (∃ next, later.Guarded view pace step leader next ∧
      (next = deadline ∨ later.AllAnnounced view)) ∧ Onward chronicle later view := by
  induction paced with
  | refl => exact ⟨⟨deadline, guarded, .inl rfl⟩, .refl _ _⟩
  | tick millis run idle forward most fits ih =>
      obtain ⟨⟨current, kept, announced⟩, earlier⟩ := ih
      obtain ⟨⟨next, keptAfter, announces⟩, onward⟩ := kept.tick idle forward most fits
      refine ⟨⟨next, keptAfter, ?_⟩, earlier.trans onward⟩
      rcases announces with rfl | all
      · exact announced.imp_right onward.announced
      · exact .inr all
  | @deliver before index run ih =>
      obtain ⟨⟨current, kept, announced⟩, earlier⟩ := ih
      by_cases idle : before.cluster.queue = []
      · have nothing : before.move (.deliver index) = before := by
          rw [move_eq_extend]
          simp only [Cluster.undergo, Cluster.act, Cluster.deliver_of_empty idle, extend_nothing]
        rw [nothing]
        exact ⟨⟨current, kept, announced⟩, earlier⟩
      · have delivery : Delivery before (before.move (.deliver index)) :=
          delivery_deliver idle index
        have onward := kept.onward_delivery delivery
        exact ⟨⟨current, kept.delivery delivery, announced.imp_right onward.announced⟩,
          earlier.trans onward⟩

theorem aligned_of_allAnnounced (announced : chronicle.AllAnnounced view)
    (idle : chronicle.cluster.queue = []) : chronicle.Aligned view :=
  fun position _ live present => (announced position live).arrived idle present

/-- In a timely state with nothing in flight, let a live replica lead the highest view of the live
ones with its proof timer armed. Let every live replica wait for longer than the leader's proof
interval and a step, and let its progress timer be due a step after the leader's proof timer at the
earliest. Then in all rounds to come nobody asks for another view and no live replica goes beyond
the leader's. From the end of the round in which the leader's proof timer is due all live replicas
stay at it. Every round comes to an end. -/
theorem live_leader_keeps_view {later : Chronicle} {leading : Engine}
    (timely : chronicle.Timely) (idle : chronicle.cluster.queue = [])
    (live : chronicle.IsLive leader)
    (present : chronicle.cluster.engines[leader]? = some leading) (positive : 0 < leading.view)
    (leads : leaderOf leading.view chronicle.size = leader)
    (highest : ∀ (position : Nat) (engine : Engine), chronicle.IsLive position →
      chronicle.cluster.engines[position]? = some engine → engine.view ≤ leading.view)
    (armed : leading.timers.proof.armed = true)
    (patient : ∀ (position : Nat) (engine : Engine), chronicle.IsLive position →
      chronicle.cluster.engines[position]? = some engine →
        leading.timers.proofInterval + step ≤ engine.timers.progressInterval)
    (waiting : ∀ (position : Nat) (engine : Engine), chronicle.IsLive position →
      chronicle.cluster.engines[position]? = some engine →
        engine.timers.progress.armed = true →
          leading.timers.proof.deadline + step * nanosPerMilli ≤
            engine.timers.progress.deadline)
    (paced : Paced step chronicle later) :
    (∃ events, later.seen = chronicle.seen ++ events ∧
      ∀ (position : Nat) (asked : Int), (position, .broadcast (.viewChange asked)) ∉ events) ∧
    (∀ (position : Nat) (engine : Engine), later.IsLive position →
      later.cluster.engines[position]? = some engine → engine.view ≤ leading.view) ∧
    (∀ middle : Chronicle, Paced step chronicle middle →
      leading.timers.proof.deadline ≤ middle.cluster.now → middle.cluster.queue = [] →
      Paced step middle later →
        ∀ (position : Nat) (engine : Engine), later.IsLive position →
          later.cluster.engines[position]? = some engine → engine.view = leading.view) ∧
    ∃ bound : Nat, ∀ choices : List Int, bound ≤ choices.length →
      (later.deliverAll choices).cluster.queue = [] := by
  have punctual := timely.punctual
  obtain ⟨ahead, near⟩ := punctual.onTime leader leading live present armed
  have noPacket : ∀ packet, packet ∉ chronicle.cluster.queue := by
    intro packet
    rw [idle]
    exact List.not_mem_nil
  have set : leading.timers.proof = ⟨true, leading.timers.proof.deadline⟩ := by
    rw [← armed]
  have guarded : chronicle.Guarded leading.view leading.timers.proofInterval step leader
      leading.timers.proof.deadline :=
    { sound := timely.sound
      fits := punctual.fits
      live
      later := positive
      leads
      most := highest
      patient
      proofs := fun packet inFlight => absurd inFlight (noPacket packet)
      leading := ⟨leading, present, rfl, rfl, set⟩
      ahead
      near
      waiting := fun position engine alive found running =>
        .inl (waiting position engine alive found running) }
  obtain ⟨⟨next, kept, -⟩, onward⟩ := paced.guarded guarded
  refine ⟨onward.seen, kept.most, ?_, ?_⟩
  · intro middle early fired settled late position engine alive found
    obtain ⟨⟨current, guardedThen, announced⟩, -⟩ := early.guarded guarded
    -- the timer is never left due, so it has been set anew
    have anew : current ≠ leading.timers.proof.deadline := by
      have ahead := guardedThen.ahead
      omega
    have aligned := aligned_of_allAnnounced (announced.resolve_left anew) settled
    have alignedAfter := (late.guarded guardedThen).2.aligned aligned
    exact Int.le_antisymm (kept.most position engine alive found)
      (alignedAfter position engine alive found)
  · exact ⟨later.cluster.burden later.cluster.viewsInFlight, fun choices enough =>
      queue_deliverAll choices later (Cluster.isAbout_viewsInFlight _) enough⟩

/-- The leader of view 1 has installed it and both others have missed that. One round of 50
milliseconds brings them along. -/
theorem live_leader_brings_laggards_along :
    let start := opening (List.replicate 3 ⟨100, 30, by decide, by decide, {}, {}⟩) 0
    let chronicle := (start.move (.tick 100)).after (.deliver 1 :: List.replicate 11 (.lose 0))
    let later := (chronicle.move (.tick 50)).deliverAll [0, 0, 0]
    chronicle.cluster.engines.map (·.view) = [0, 1, 0] ∧
      ∀ (position : Nat) (engine : Engine), later.IsLive position →
        later.cluster.engines[position]? = some engine → engine.view = 1 := by
  intro start chronicle later
  refine ⟨by decide +kernel, ?_⟩
  have leading : chronicle.cluster.engines[1]?.map
      (fun engine => (engine.view, engine.timers.proof, engine.timers.proofInterval)) =
        some (1, ⟨true, 130000000⟩, 30) := by decide +kernel
  obtain ⟨leader, present, facts⟩ := Option.map_eq_some_iff.1 leading
  simp only [Prod.mk.injEq] at facts
  obtain ⟨atView, proof, pace⟩ := facts
  have others : ∀ engine ∈ chronicle.cluster.engines, engine.view ≤ 1 ∧
      30 + 50 ≤ engine.timers.progressInterval ∧
        180000000 ≤ engine.timers.progress.deadline := by decide +kernel
  have opened : start.Timely := .opening _ 0 (by decide +kernel)
  have ticked : (start.move (.tick 100)).Timely :=
    .tick 100 opened (by decide) (by decide +kernel)
  have timely : chronicle.Timely := ticked.after _ (by simp)
  have moved : Paced 50 chronicle (chronicle.move (.tick 50)) :=
    .tick 50 .refl (by decide +kernel) (by decide) (by decide) (by decide +kernel)
  have paced : Paced 50 chronicle later := moved.deliverAll [0, 0, 0]
  have fired : 130000000 ≤ later.cluster.now := by decide +kernel
  obtain ⟨-, -, settled, -⟩ := @live_leader_keeps_view chronicle 50 1 later leader timely
    (by decide +kernel) (by decide +kernel) present (by omega) (by rw [atView]; decide +kernel)
    (fun position engine _ found => by
      rw [atView]
      exact (others engine (List.mem_of_getElem? found)).1)
    (by rw [proof])
    (fun position engine _ found => by
      rw [pace]
      exact (others engine (List.mem_of_getElem? found)).2.1)
    (fun position engine _ found _ => by
      rw [proof]
      exact (others engine (List.mem_of_getElem? found)).2.2)
    paced
  intro position engine live found
  rw [← atView]
  exact settled later paced (by rw [proof]; exact fired) (by decide +kernel) .refl position engine
    live found

/-- Without a limit to the intervals the leader may lose its followers. An interval of 2^58
milliseconds and ten more is set as ten milliseconds, and a single replica, which has its timers as
required and only ever hears itself, asks for view 2 in the third round of seven milliseconds. -/
theorem live_leader_loses_view_beyond_clock :
    let timers : List TimerPair := [⟨288230376151711754, 30, by decide, by decide, {}, {}⟩]
    let chronicle := (opening timers 0).after
      [.tick 10, .deliver 0, .tick 9, .duplicate 0, .tick 9, .duplicate 0, .tick 9, .deliver 0]
    let first := chronicle.after [.tick 7, .deliver 0]
    let second := first.move (.tick 7)
    let third := second.move (.tick 7)
    (chronicle.cluster.queue = [] ∧ chronicle.IsLive 0 ∧
      chronicle.cluster.engines.map
          (fun engine => (engine.view, engine.timers.proof, engine.timers.progress)) =
        [(1, ⟨true, 40000000⟩, ⟨true, 47000000⟩)] ∧
      (30 : Int) + 7 ≤ 288230376151711754 ∧ 40000000 + 7 * nanosPerMilli ≤ 47000000) ∧
    first.cluster.queue = [] ∧ second.cluster.queue = [] ∧
      (0, .broadcast (.viewChange 2)) ∉ second.seen ∧
      (0, .broadcast (.viewChange 2)) ∈ third.seen ∧
        third.cluster.engines.map (·.view) = [2] := by
  decide +kernel

end Chronicle

end ViewSync
