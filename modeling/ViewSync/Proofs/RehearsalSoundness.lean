import ViewSync.Proofs.Broadcasts
import ViewSync.Proofs.Rehearsal

/-!
Soundness of rehearsals.

Replicas hear only what was said, they say and install only what votes justify, and their books
agree with what they have done. Every passage of every turn keeps it so, and what every passage of a
sound rehearsal keeps is kept by every run.
-/

namespace ViewSync

open Cluster (neverHalts)
open ViewSync.Frame (Writable)

namespace Rehearsal

/-! ### What votes justify -/

def Voted (rehearsal : Rehearsal) (sender view : Int) : Prop :=
  (0 ≤ sender ∧ sender < rehearsal.roster.size) ∧ Writable view ∧
    (sender.toNat, .broadcast (.viewChange view)) ∈ rehearsal.seen

def evidence (rehearsal : Rehearsal) : Evidence where
  vote := rehearsal.Voted
  proof view certificate :=
    0 < view ∧ certificate.IsBallot view (rehearsal.Voted · view) ∧
      (certificate.voters.card : Int) = quorumSize rehearsal.roster.size

theorem evidence_electoral (rehearsal : Rehearsal) :
    rehearsal.evidence.Electoral rehearsal.roster.size where
  seated _ _ voted := voted.1
  elects _ _ later ballot quorum := ⟨later, ballot, quorum⟩

structure Sound (rehearsal : Rehearsal) : Prop where
  /-- Identifiers have a word. -/
  small : rehearsal.roster.size ≤ Frame.maxWord
  periodic : rehearsal.testCase ≠ .fullRotation
  placed : ∀ (position : Nat) (player : Player),
    rehearsal.players[position]? = some player →
      position < rehearsal.roster.size ∧ player.replica.transport.self = position ∧
        player.replica.scenario =
          ⟨some rehearsal.testCase, position, rehearsal.roster.size⟩
  seated : ∀ (position : Nat) (replica : Replica),
    rehearsal.players[position]? = some ⟨replica, none⟩ →
      replica.engine.self = position ∧ replica.engine.replicas = rehearsal.roster.size
  kept : ∀ (position : Nat) (replica : Replica),
    rehearsal.players[position]? = some ⟨replica, none⟩ →
      replica.engine.WellKept rehearsal.evidence
  tuned : ∀ (position : Nat) (replica : Replica),
    rehearsal.players[position]? = some ⟨replica, none⟩ → replica.Tuned rehearsal.Said
  sanctioned : ∀ (position : Nat) (message : Message),
    (position, .broadcast message) ∈ rehearsal.seen →
      position < rehearsal.roster.size ∧ rehearsal.evidence.Sanctions position message
  elected : ∀ (position : Nat) (view leader : Int),
    (position, .viewInstalled view leader) ∈ rehearsal.seen →
      ∃ certificate, rehearsal.evidence.proof view certificate
  /-- Whatever a replica has sent is the frame of something that it has broadcast. -/
  sent : ∀ (position : Nat) (player : Player),
    rehearsal.players[position]? = some player →
      ∀ sending ∈ player.replica.sendings.toList, ∃ message,
        (position, .broadcast message) ∈ rehearsal.seen ∧
          Frame.encode ⟨position, message⟩ = .ok sending.payload
  booked : ∀ (position : Nat) (player : Player),
    rehearsal.players[position]? = some player → ∀ view leader : Int,
      (view, leader) ∈ player.replica.installs.toList ↔
        (position, .viewInstalled view leader) ∈ rehearsal.seen
  ended : ∀ (position : Nat) (player : Player),
    rehearsal.players[position]? = some player →
      (player.ending = some .finished ↔ player.replica.finished = true) ∧
        player.replica.finished = player.replica.installs.toList.any fun installation =>
          player.replica.scenario.isFinished installation.1 installation.2

section Passages

variable {rehearsal : Rehearsal} {position : Nat} {replica : Replica} {player : Player}
  {events : List Event}

theorem Voted.note {sender view : Int} (voted : rehearsal.Voted sender view) (position : Nat)
    (player : Player) (events : List Event) :
    (rehearsal.note position player events).Voted sender view :=
  ⟨voted.1, voted.2.1, List.mem_append_left _ voted.2.2⟩

theorem proof_note {view : Int} {certificate : Certificate}
    (proved : rehearsal.evidence.proof view certificate) (position : Nat) (player : Player)
    (events : List Event) :
    (rehearsal.note position player events).evidence.proof view certificate :=
  ⟨proved.1, proved.2.1.imp fun _ voted => voted.note position player events, proved.2.2⟩

theorem sanctions_note {sender : Int} {message : Message}
    (sanctioned : rehearsal.evidence.Sanctions sender message) (position : Nat) (player : Player)
    (events : List Event) :
    (rehearsal.note position player events).evidence.Sanctions sender message := by
  cases message with
  | viewChange view => exact Voted.note sanctioned position player events
  | viewProof view attestations =>
      obtain ⟨certificate, proved, rfl⟩ := sanctioned
      exact ⟨certificate, proof_note proved position player events, rfl⟩

theorem writable_of_proof {view : Int} {certificate : Certificate}
    (proved : rehearsal.evidence.proof view certificate) : Writable view := by
  obtain ⟨-, ballot, quorum⟩ := proved
  have positive := quorumSize_positive (show (0 : Int) < rehearsal.roster.size from
    Int.natCast_pos.2 (List.length_pos_iff.2 rehearsal.roster.entries_ne_nil))
  obtain ⟨voter, voted⟩ := Finset.card_pos.1 (show 0 < certificate.voters.card by omega)
  exact (ballot.cast voter voted).2.1

theorem Sound.writable_sender (sound : rehearsal.Sound) {sender : Int}
    (seated : 0 ≤ sender ∧ sender < rehearsal.roster.size) : Writable sender := by
  have small := sound.small
  exact ⟨seated.1, by omega⟩

/-- The loop of a replica ends of itself when the replica has installed a view that ends the case,
and in no other way. -/
theorem Sound.finished_iff (sound : rehearsal.Sound)
    (present : rehearsal.players[position]? = some player) :
    player.ending = some .finished ↔ ∃ view leader,
      (view, leader) ∈ player.replica.installs.toList ∧
        Scenario.endsWith rehearsal.testCase view leader = true := by
  obtain ⟨ended, finished⟩ := sound.ended position player present
  rw [ended, finished, (sound.placed position player present).2.2, List.any_eq_true]
  constructor
  · rintro ⟨⟨view, leader⟩, listed, last⟩
    exact ⟨view, leader, listed, last⟩
  · rintro ⟨view, leader, listed, last⟩
    exact ⟨(view, leader), listed, last⟩

theorem Sound.legible (sound : rehearsal.Sound) {envelope : Envelope}
    (said : rehearsal.Said envelope) : Frame.Legible envelope := by
  obtain ⟨sender, message⟩ := envelope
  obtain ⟨position, same, told⟩ := said
  change sender = position at same
  obtain ⟨below, sanctioned⟩ := sound.sanctioned position message told
  have known : Writable sender := sound.writable_sender (by omega)
  cases message with
  | viewChange view =>
      exact ⟨Frame.inRange_viewChange.2 ⟨known, sanctioned.2.1⟩, (by decide : 0 < Word.count)⟩
  | viewProof view attestations =>
      obtain ⟨certificate, proved, rfl⟩ := sanctioned
      have writable := writable_of_proof proved
      obtain ⟨-, ballot, quorum⟩ := proved
      refine ⟨Frame.inRange_viewProof.2 ⟨known, writable, ?_⟩, ?_⟩
      · intro attestation listed
        have stored := Certificate.mem_attestations.1 listed
        have voted := ballot.cast _ (Certificate.mem_voters.2 ⟨_, stored⟩)
        rw [ballot.exact _ _ stored]
        exact ⟨sound.writable_sender voted.1, writable⟩
      · change certificate.attestations.length < Word.count
        have small := sound.small
        rw [Certificate.length_attestations]
        rw [quorumSize_natCast] at quorum
        unfold Frame.maxWord at small
        unfold Word.count
        omega

/-- What is noted of a replica leaves a rehearsal sound when it leaves the replica well kept and
tuned, if it is still at work, and what it has said and installed is justified. -/
theorem Sound.note_of (sound : rehearsal.Sound)
    (present : rehearsal.players[position]? = some ⟨replica, none⟩)
    (place : player.replica.transport.self = replica.transport.self ∧
      player.replica.scenario = replica.scenario)
    (live : ∀ next, player = ⟨next, none⟩ → next.engine.seat = replica.engine.seat ∧
      next.engine.WellKept (rehearsal.note position player events).evidence ∧
        next.Tuned (rehearsal.note position player events).Said)
    (sanctioned : ∀ message, .broadcast message ∈ events →
      (rehearsal.note position player events).evidence.Sanctions position message)
    (elected : ∀ view leader, .viewInstalled view leader ∈ events →
      ∃ certificate, (rehearsal.note position player events).evidence.proof view certificate)
    (sent : ∀ sending ∈ player.replica.sendings.toList, sending ∈ replica.sendings.toList ∨
      Replica.Utters replica.transport.self events sending.payload)
    (booked : player.replica.installs.toList =
      replica.installs.toList ++ installations events)
    (finished : player.replica.finished =
      (replica.finished || (installations events).any fun installation =>
        replica.scenario.isFinished installation.1 installation.2))
    (ended : player.ending = some .finished ↔ player.replica.finished = true) :
    (rehearsal.note position player events).Sound where
  small := sound.small
  periodic := sound.periodic
  placed other found stored := by
    rcases player_note stored with ⟨rfl, rfl⟩ | ⟨-, earlier⟩
    · rw [place.1, place.2]
      exact sound.placed other _ present
    · exact sound.placed other found earlier
  seated other found stored := by
    rcases player_note stored with ⟨rfl, same⟩ | ⟨-, earlier⟩
    · have seat := (live found same.symm).1
      rw [Engine.seat_self seat, Engine.seat_replicas seat]
      exact sound.seated other replica present
    · exact sound.seated other found earlier
  kept other found stored := by
    rcases player_note stored with ⟨rfl, same⟩ | ⟨-, earlier⟩
    · exact (live found same.symm).2.1
    · exact (sound.kept other found earlier).mono (fun _ _ voted => voted.note _ _ _)
        fun _ _ proved => proof_note proved _ _ _
  tuned other found stored := by
    rcases player_note stored with ⟨rfl, same⟩ | ⟨-, earlier⟩
    · exact (live found same.symm).2.2
    · have tuned := sound.tuned other found earlier
      exact ⟨tuned.stream, fun envelope waiting => (tuned.received envelope waiting).note _ _ _,
        fun arrival coming payload signal =>
          (tuned.arrivals arrival coming payload signal).mono fun _ said => said.note _ _ _⟩
  sanctioned other message told := by
    rcases mem_seen_note.1 told with earlier | ⟨rfl, happened⟩
    · have before := sound.sanctioned other message earlier
      exact ⟨before.1, sanctions_note before.2 _ _ _⟩
    · exact ⟨(sound.placed other _ present).1, sanctioned message happened⟩
  elected other view leader told := by
    rcases mem_seen_note.1 told with earlier | ⟨rfl, happened⟩
    · obtain ⟨certificate, proved⟩ := sound.elected other view leader earlier
      exact ⟨certificate, proof_note proved _ _ _⟩
    · exact elected view leader happened
  sent other found stored sending listed := by
    rcases player_note stored with ⟨rfl, rfl⟩ | ⟨-, earlier⟩
    · rcases sent sending listed with former | ⟨message, told, written⟩
      · obtain ⟨message, told, written⟩ := sound.sent other _ present sending former
        exact ⟨message, mem_seen_note.2 (.inl told), written⟩
      · rw [(sound.placed other _ present).2.1] at written
        exact ⟨message, mem_seen_note.2 (.inr ⟨rfl, told⟩), written⟩
    · obtain ⟨message, told, written⟩ := sound.sent other found earlier sending listed
      exact ⟨message, mem_seen_note.2 (.inl told), written⟩
  booked other found stored view leader := by
    rcases player_note stored with ⟨rfl, rfl⟩ | ⟨different, earlier⟩
    · rw [booked, List.mem_append, mem_seen_note, mem_installations,
        sound.booked other _ present view leader]
      simp
    · rw [mem_seen_note, sound.booked other found earlier view leader]
      simp [different]
  ended other found stored := by
    rcases player_note stored with ⟨rfl, rfl⟩ | ⟨-, earlier⟩
    · refine ⟨ended, ?_⟩
      rw [finished, booked, List.any_append, place.2, (sound.ended other _ present).2]
    · exact sound.ended other found earlier

theorem Sound.unfinished (sound : rehearsal.Sound)
    (present : rehearsal.players[position]? = some ⟨replica, none⟩) :
    replica.finished = false := by
  have ended := (sound.ended position _ present).1
  simpa using ended

/-- Nobody votes for a view that has no word. -/
theorem Sound.writable_vote (sound : rehearsal.Sound)
    (present : rehearsal.players[position]? = some ⟨replica, none⟩) {act : Engine.Act}
    (heard : ∀ now envelope, act = .hear now envelope → rehearsal.Said envelope) {view : Int}
    (voted : .broadcast (.viewChange view) ∈ (replica.engine.enact neverHalts act).events) :
    Writable view := by
  have kept := sound.kept position replica present
  have target := (replica.engine.towards_enact act).reaches _ voted view (.voted view)
  cases act with
  | fire now =>
      have last := Engine.view_ne_last_of_proposal voted
      have known : replica.engine.view ≤ maxView := by
        rcases kept.justified with ⟨first, -⟩ | ⟨-, proved⟩
        · rw [first]
          decide
        · exact (writable_of_proof proved).2
      have started := kept.started
      change view = replica.engine.view + 1 at target
      refine ⟨by omega, ?_⟩
      change view ≤ maxView
      omega
  | hear now envelope =>
      rw [target]
      exact (sound.legible (heard now envelope rfl)).inRange.view_writable

theorem Sound.wait (sound : rehearsal.Sound)
    (present : rehearsal.players[position]? = some ⟨replica, none⟩) (transport : Transport)
    (machine : Machine) {ending : Option Ending}
    (self : transport.self = replica.transport.self)
    (tuned : Replica.Tuned rehearsal.Said { replica with transport, machine })
    (unfinished : ending ≠ some .finished) :
    (rehearsal.note position ⟨{ replica with transport, machine }, ending⟩ []).Sound := by
  have same : (rehearsal.note position ⟨{ replica with transport, machine }, ending⟩ []).seen =
      rehearsal.seen := List.append_nil _
  apply sound.note_of present ⟨self, rfl⟩
  · rintro next ⟨⟩
    refine ⟨rfl, ?_, ?_⟩
    · exact (sound.kept position replica present).mono (fun _ _ voted => voted.note _ _ _)
        fun _ _ proved => proof_note proved _ _ _
    · unfold Said
      rw [same]
      exact tuned
  · exact fun _ told => absurd told List.not_mem_nil
  · exact fun _ _ told => absurd told List.not_mem_nil
  · exact fun _ listed => .inl listed
  · exact (List.append_nil _).symm
  · exact (Bool.or_false _).symm
  · have still := sound.unfinished present
    simp [unfinished, still]

theorem Sound.voted_note (sound : rehearsal.Sound)
    (present : rehearsal.players[position]? = some ⟨replica, none⟩) {act : Engine.Act}
    (heard : ∀ now envelope, act = .hear now envelope → rehearsal.Said envelope)
    (begins : events <+: (replica.engine.enact neverHalts act).events) (player : Player)
    {view : Int} (told : .broadcast (.viewChange view) ∈ events) :
    (rehearsal.note position player events).Voted position view := by
  have below := (sound.placed position _ present).1
  have within : (0 : Int) ≤ position ∧ (position : Int) < rehearsal.roster.size := by omega
  exact ⟨within, sound.writable_vote present heard (begins.subset told),
    mem_seen_note.2 (.inr ⟨Int.toNat_natCast position, told⟩)⟩

theorem Sound.note_follow (sound : rehearsal.Sound)
    (present : rehearsal.players[position]? = some ⟨replica, none⟩) (transport : Transport)
    (machine : Machine) (self : transport.self = replica.transport.self) {engine : Engine}
    {events : List Event} {moved : Replica} {ending : Option Ending}
    (follows : moved = Replica.follow { replica with transport, machine } engine events)
    (live : ending = none → engine.seat = replica.engine.seat ∧
      engine.WellKept (rehearsal.note position ⟨moved, ending⟩ events).evidence ∧
        moved.Tuned (rehearsal.note position ⟨moved, ending⟩ events).Said)
    (sanctioned : ∀ message, .broadcast message ∈ events →
      (rehearsal.note position ⟨moved, ending⟩ events).evidence.Sanctions position message)
    (elected : ∀ view leader, .viewInstalled view leader ∈ events → ∃ certificate,
      (rehearsal.note position ⟨moved, ending⟩ events).evidence.proof view certificate)
    (ended : ending = some .finished ↔ moved.finished = true) :
    (rehearsal.note position ⟨moved, ending⟩ events).Sound := by
  obtain ⟨sameTransport, sameScenario⟩ :=
    Replica.follow_place { replica with transport, machine } engine events
  rw [← follows] at sameTransport sameScenario
  have place : moved.transport.self = replica.transport.self ∧
      moved.scenario = replica.scenario :=
    ⟨(congrArg Transport.self sameTransport).trans self, sameScenario⟩
  apply sound.note_of present place ?_ sanctioned elected ?_ ?_ ?_ ended
  · rintro next ⟨⟩
    rw [show moved.engine = engine by rw [follows, Replica.follow_engine]]
    exact live rfl
  · intro sending listed
    rw [← self]
    exact Replica.follow_sendings { replica with transport, machine } engine events sending
      (follows ▸ listed)
  · change moved.installs.toList = _
    rw [follows]
    exact Replica.follow_installs { replica with transport, machine } engine events
  · change moved.finished = _
    rw [follows]
    exact Replica.follow_finished { replica with transport, machine } engine events

/-- A replica that is not halted does what it would do if nobody watched. -/
theorem Sound.act_passed (sound : rehearsal.Sound)
    (present : rehearsal.players[position]? = some ⟨replica, none⟩) (transport : Transport)
    (machine : Machine) (self : transport.self = replica.transport.self)
    (tuned : Replica.Tuned rehearsal.Said { replica with transport, machine })
    (act : Engine.Act)
    (heard : ∀ now envelope, act = .hear now envelope → rehearsal.Said envelope) {moved : Replica}
    (follows : moved = Replica.follow { replica with transport, machine }
      (replica.engine.enact neverHalts act).engine (replica.engine.enact neverHalts act).events) :
    (rehearsal.note position ⟨moved, moved.endingAfter none⟩
      (replica.engine.enact neverHalts act).events).Sound := by
  obtain ⟨seatSelf, seatRoster⟩ := sound.seated position replica present
  have kept := sound.kept position replica present
  obtain ⟨wellKept, sanctioned⟩ := @Engine.WellKept.enact _ act
    (rehearsal.note position ⟨moved, moved.endingAfter none⟩
      (replica.engine.enact neverHalts act).events).evidence
    (by rw [seatRoster]; exact evidence_electoral _)
    (kept.mono (fun _ _ voted => voted.note _ _ _) fun _ _ proved => proof_note proved _ _ _)
    (by
      rintro now ⟨sender, message⟩ same
      obtain ⟨speaker, spoken, told⟩ := heard now _ same
      change sender = speaker at spoken
      have before := (sound.sanctioned speaker message told).2
      rw [spoken]
      exact (sanctions_note before _ _ _).admits (fun _ _ proved => proved.2.1.candidate) _)
    (by
      intro view told
      rw [seatSelf]
      exact sound.voted_note present heard (List.prefix_refl _) _ told)
  rw [seatSelf] at sanctioned
  apply sound.note_follow present transport machine self follows ?_ sanctioned
  · intro view leader installed
    obtain ⟨later, reached, -⟩ := Engine.enact_installs kept.started installed
    rcases wellKept.justified with ⟨first, -⟩ | ⟨-, proved⟩
    · have started := kept.started
      omega
    · rw [reached] at proved
      exact ⟨_, proved⟩
  · unfold Replica.endingAfter
    dsimp only
    split
    · next reached => exact iff_of_true rfl reached
    · next going => exact iff_of_false (by simp) going
  · intro _
    refine ⟨replica.engine.enact_seat act, wellKept, ?_⟩
    rw [follows]
    apply tuned.follow _ (fun _ said => said.note _ _ _)
    intro message told
    refine ⟨position, ?_, mem_seen_note.2 (.inr ⟨rfl, told⟩)⟩
    exact self.trans (sound.placed position _ present).2.1

/-- A replica that is halted has done nothing but vote. -/
theorem Sound.act_halted (sound : rehearsal.Sound)
    (present : rehearsal.players[position]? = some ⟨replica, none⟩) (transport : Transport)
    (machine : Machine) (self : transport.self = replica.transport.self) {act : Engine.Act}
    (heard : ∀ now envelope, act = .hear now envelope → rehearsal.Said envelope) {engine : Engine}
    (begins : events <+: (replica.engine.enact neverHalts act).events)
    (quiet : Engine.Quiet events) {moved : Replica}
    (follows : moved = Replica.follow { replica with transport, machine } engine events)
    (view : Int) :
    (rehearsal.note position ⟨moved, some (.crashed view)⟩ events).Sound := by
  apply sound.note_follow present transport machine self follows
  · rintro ⟨⟩
  · intro message told
    cases message with
    | viewChange view => exact sound.voted_note present heard begins _ told
    | viewProof view attestations => exact absurd told (quiet.not_announced _ _)
  · exact fun view leader installed => absurd installed (quiet.not_installed _ _)
  · have before := sound.unfinished present
    have going : moved.finished = false := by
      rw [follows, Replica.follow_finished, quiet.installations_eq_nil]
      exact (Bool.or_false _).trans before
    simp [going]

theorem Sound.act (sound : rehearsal.Sound)
    (present : rehearsal.players[position]? = some ⟨replica, none⟩) (transport : Transport)
    (machine : Machine) (self : transport.self = replica.transport.self)
    (tuned : Replica.Tuned rehearsal.Said { replica with transport, machine })
    (act : Engine.Act)
    (heard : ∀ now envelope, act = .hear now envelope → rehearsal.Said envelope) {step : Step}
    (watched : Engine.Watched replica.scenario.crashesOnQuorum
      (replica.engine.enact neverHalts act) step) :
    (rehearsal.note position
      ⟨Replica.follow { replica with transport, machine } step.engine step.events,
        (Replica.follow { replica with transport, machine } step.engine
          step.events).endingAfter step.outcome.halt?⟩ step.events).Sound := by
  cases watched with
  | passed sameEngine sameEvents settled content =>
      rw [settled, sameEngine, sameEvents]
      exact sound.act_passed present transport machine self tuned act heard rfl
  | halted outcome halting begins quiet last =>
      rw [outcome]
      exact sound.act_halted present transport machine self heard begins quiet rfl _

theorem Sound.passage (sound : rehearsal.Sound)
    (present : rehearsal.players[position]? = some ⟨replica, none⟩)
    (passage : replica.Passage rehearsal.Said player events) :
    (rehearsal.note position player events).Sound := by
  cases passage with
  | wait transport machine self tuned unfinished =>
      exact sound.wait present transport machine self tuned unfinished
  | act transport machine self tuned act heard watched =>
      exact sound.act present transport machine self tuned act heard watched

end Passages

/-! ### Runs -/

theorem Sound.carries (sound : Sound rehearsal) {position : Nat} {delivery : Delivery}
    {payload : Bytes} (carried : rehearsal.carried? position delivery = some payload) :
    Carries rehearsal.Said payload := by
  unfold carried? at carried
  obtain ⟨entry, -, rest⟩ := Option.bind_eq_some_iff.1 carried
  obtain ⟨player, present, rest⟩ := Option.bind_eq_some_iff.1 rest
  obtain ⟨sending, sent, rest⟩ := Option.bind_eq_some_iff.1 rest
  dsimp only at rest
  split at rest
  · cases rest
    have listed : sending ∈ player.replica.sendings.toList :=
      Array.mem_toList_iff.2 (Array.mem_of_getElem? sent)
    obtain ⟨message, told, written⟩ := sound.sent delivery.sender player present sending listed
    exact ⟨⟨delivery.sender, message⟩, ⟨delivery.sender, rfl, told⟩, written⟩
  · cases rest

section Runs

variable {rehearsal : Rehearsal}

theorem Sound.supplied (sound : rehearsal.Sound) {cue : Cue} {replica : Replica}
    (present : rehearsal.players[cue.position]? = some ⟨replica, none⟩) :
    Replica.Tuned rehearsal.Said
      { replica with
        machine :=
          { replica.machine.sleep cue.delay with arrivals := rehearsal.arrivals cue } } := by
  have before := sound.tuned cue.position replica present
  refine ⟨before.stream, before.received, ?_⟩
  intro arrival coming payload signal
  change arrival ∈ rehearsal.arrivals cue at coming
  unfold arrivals at coming
  split at coming
  · exact absurd coming List.not_mem_nil
  · split at coming
    · exact absurd coming List.not_mem_nil
    · next carried =>
        rw [List.mem_singleton.1 coming] at signal
        cases signal
        exact sound.carries carried

def Kept (holds : Rehearsal → Prop) : Prop :=
  ∀ (rehearsal : Rehearsal) (position : Nat) (replica : Replica) (player : Player)
    (events : List Event), rehearsal.Sound → holds rehearsal →
      rehearsal.players[position]? = some ⟨replica, none⟩ →
        replica.Passage rehearsal.Said player events →
          holds (rehearsal.note position player events)

/-- What every passage of a sound rehearsal keeps is kept by a turn. A turn is three passages: the
machine supplies the replica, the timers are asked, and a message is heard unless that was the
end. -/
theorem play_induction {holds : Rehearsal → Prop} (kept : Kept holds) (cue : Cue)
    (sound : rehearsal.Sound) (start : holds rehearsal) :
    (rehearsal.play cue).Sound ∧ holds (rehearsal.play cue) := by
  unfold play
  split
  · next replica present =>
      have step : ∀ (before : Rehearsal) (replica : Replica) (player : Player)
          (events : List Event), before.Sound ∧ holds before →
          before.players[cue.position]? = some ⟨replica, none⟩ →
            replica.Passage before.Said player events →
              (before.note cue.position player events).Sound ∧
                holds (before.note cue.position player events) :=
        fun before replica player events both present passage =>
          ⟨both.1.passage present passage, kept _ _ _ _ _ both.1 both.2 present passage⟩
      let ready : Replica :=
        { replica with
          machine := { replica.machine.sleep cue.delay with arrivals := rehearsal.arrivals cue } }
      have first := step rehearsal replica ⟨ready, none⟩ [] ⟨sound, start⟩ present
        (.wait ready.transport ready.machine rfl (sound.supplied present) (by simp))
      have atWork := player_note_self present ⟨ready, none⟩ []
      have periodic : ready.scenario.periodicProofs = true := by
        rw [(first.1.placed cue.position _ atWork).2.2]
        simpa [Scenario.periodicProofs] using first.1.periodic
      have second := step _ ready ⟨ready.fireDue.1, ready.fireDue.2⟩ ready.firing.events first
        atWork (Replica.passage_fire (first.1.tuned cue.position ready atWork) periodic)
      have fired := player_note_self atWork ⟨ready.fireDue.1, ready.fireDue.2⟩ ready.firing.events
      change (rehearsal.note cue.position ⟨ready.turn.1, ready.turn.2⟩ ready.deeds).Sound ∧
        holds (rehearsal.note cue.position ⟨ready.turn.1, ready.turn.2⟩ ready.deeds)
      cases ended : ready.fireDue.2 with
      | some ending =>
          have done : ready.deeds = ready.firing.events := by
            rw [Replica.deeds, ended]
            exact List.append_nil _
          rw [note_note] at second
          rw [Replica.turn_of_ended ended, done]
          exact second
      | none =>
          rw [ended] at second fired
          have third := step _ ready.fireDue.1
            ⟨ready.fireDue.1.listen.1, ready.fireDue.1.listen.2⟩ ready.fireDue.1.replies second
            fired (Replica.passage_listen (second.1.tuned cue.position _ fired)
              fun _ said => second.1.legible said)
          have done : ready.deeds = ready.firing.events ++ ready.fireDue.1.replies := by
            rw [Replica.deeds, ended]
            rfl
          rw [note_note, note_note] at third
          rw [Replica.turn_of_going ended, done]
          exact third
  · exact ⟨sound, start⟩

theorem after_induction {holds : Rehearsal → Prop} (kept : Kept holds) (cues : List Cue)
    (sound : rehearsal.Sound) (start : holds rehearsal) :
    (rehearsal.after cues).Sound ∧ holds (rehearsal.after cues) := by
  induction cues generalizing rehearsal with
  | nil => exact ⟨sound, start⟩
  | cons cue rest ih =>
      obtain ⟨soundNext, holdsNext⟩ := play_induction kept cue sound start
      exact ih soundNext holdsNext

end Runs

theorem sound_opening {roster : Roster} {testCase : TestCase}
    {station : Fin roster.size → Station} {opening : Rehearsal}
    (opened : opening? roster testCase station = some opening)
    (small : roster.size ≤ Frame.maxWord) (periodic : testCase ≠ .fullRotation) :
    opening.Sound := by
  obtain ⟨rfl, rfl, unseen⟩ := opening_cast opened
  constructor
  · exact small
  · exact periodic
  · intro position player present
    obtain ⟨within, timers, now, -, -, scenario, self, -⟩ := opening_player opened present
    exact ⟨within, self, scenario⟩
  · intro position replica present
    obtain ⟨within, timers, now, -, engine, -⟩ := opening_player opened present
    change replica.engine = _ at engine
    rw [engine]
    exact ⟨rfl, rfl⟩
  · intro position replica present
    obtain ⟨within, timers, now, -, engine, -⟩ := opening_player opened present
    change replica.engine = _ at engine
    rw [engine]
    exact Engine.WellKept.fresh (Engine.ofPosition _ timers) _
  · intro position replica present
    obtain ⟨-, -, -, -, -, -, -, ⟨stream, received, arrivals⟩, -⟩ :=
      opening_player opened present
    refine ⟨stream, ?_, ?_⟩
    · exact fun envelope waiting => absurd (received ▸ waiting) List.not_mem_nil
    · exact fun arrival coming => absurd (arrivals ▸ coming) List.not_mem_nil
  · rw [unseen]
    exact fun _ _ told => absurd told List.not_mem_nil
  · rw [unseen]
    exact fun _ _ _ told => absurd told List.not_mem_nil
  · intro position player present sending listed
    obtain ⟨-, -, -, -, -, -, -, -, -, none, -⟩ := opening_player opened present
    rw [none] at listed
    exact absurd listed List.not_mem_nil
  · intro position player present view leader
    obtain ⟨-, -, -, -, -, -, -, -, -, -, none⟩ := opening_player opened present
    rw [none, unseen]
    simp
  · intro position player present
    obtain ⟨-, -, -, going, -, -, -, -, unfinished, -, none⟩ := opening_player opened present
    rw [going, unfinished, none]
    simp

end Rehearsal

end ViewSync
