import ViewSync.Proofs.RehearsalSoundness

/-!
A doomed replica never leads.

A replica that dies with a quorum for one of its own views in hand is halted before anything else of
the installation happens, so it neither announces nor installs such a view on votes. Nor does it
hear of one from others: a view is announced by its leader alone, once he has installed it. That
nobody has announced a view that a doomed replica leads is kept by every passage of a rehearsal, and
a doomed replica at work is never in such a view.
-/

namespace ViewSync

open Cluster (neverHalts)

namespace Rehearsal

/-- Whoever has announced a view leads it and is not the doomed replica, and the doomed replica has
not installed any view that it leads. -/
structure Barren (rehearsal : Rehearsal) (doomed : Nat) : Prop where
  dooms : Scenario.dooms rehearsal.testCase doomed = true
  announced : ∀ (position : Nat) (view : Int) (attestations : List Attestation),
    (position, .broadcast (.viewProof view attestations)) ∈ rehearsal.seen →
      leaderOf view rehearsal.roster.size = position ∧ position ≠ doomed
  installed : ∀ view leader : Int, (doomed, .viewInstalled view leader) ∈ rehearsal.seen →
    leaderOf view rehearsal.roster.size ≠ doomed
  standing : ∀ replica : Replica, rehearsal.players[doomed]? = some ⟨replica, none⟩ →
    leaderOf replica.engine.view rehearsal.roster.size ≠ doomed

section Passages

variable {rehearsal : Rehearsal} {doomed position : Nat} {replica : Replica} {player : Player}
  {events : List Event}

/-- What becomes of one replica leaves everything barren if it announces only what it leads, and if,
being the doomed one, it installs and holds only what it does not lead. -/
theorem Barren.note (barren : rehearsal.Barren doomed)
    (announced : ∀ view attestations, .broadcast (.viewProof view attestations) ∈ events →
      leaderOf view rehearsal.roster.size = position ∧ position ≠ doomed)
    (installed : position = doomed → ∀ view leader, .viewInstalled view leader ∈ events →
      leaderOf view rehearsal.roster.size ≠ doomed)
    (standing : position = doomed → ∀ next, player = ⟨next, none⟩ →
      leaderOf next.engine.view rehearsal.roster.size ≠ doomed) :
    (rehearsal.note position player events).Barren doomed where
  dooms := barren.dooms
  announced other view attestations told := by
    rcases mem_seen_note.1 told with earlier | ⟨rfl, now⟩
    · exact barren.announced other view attestations earlier
    · exact announced view attestations now
  installed view leader told := by
    rcases mem_seen_note.1 told with earlier | ⟨same, now⟩
    · exact barren.installed view leader earlier
    · exact installed same.symm view leader now
  standing next stored := by
    rcases player_note stored with ⟨same, found⟩ | ⟨-, earlier⟩
    · exact standing same.symm next found.symm
    · exact barren.standing next earlier

/-- A view that a doomed replica installs is led by somebody else: he has announced it, or a quorum
for it would have been the end. -/
theorem Barren.follows (barren : rehearsal.Barren doomed) (sound : rehearsal.Sound)
    (present : rehearsal.players[doomed]? = some ⟨replica, none⟩) {act : Engine.Act}
    (heard : ∀ now envelope, act = .hear now envelope → rehearsal.Said envelope)
    (content : ∀ view,
      .quorumCollected view ∈ (replica.engine.enact neverHalts act).events →
        replica.scenario.crashesOnQuorum view = false) {view leader : Int}
    (installs : .viewInstalled view leader ∈ (replica.engine.enact neverHalts act).events) :
    leaderOf view rehearsal.roster.size ≠ doomed := by
  intro leads
  obtain ⟨-, -, collected | ⟨now, sender, attestations, hears⟩⟩ :=
    Engine.enact_installs (sound.kept doomed replica present).started installs
  · have survived := content view collected
    rw [(sound.placed doomed _ present).2.2] at survived
    simp [Scenario.crashesOnQuorum, leads, barren.dooms] at survived
  · obtain ⟨speaker, -, told⟩ := heard now _ hears
    obtain ⟨speaks, other⟩ := barren.announced speaker view attestations told
    exact other (Int.natCast_inj.1 (speaks.symm.trans leads))

theorem Barren.passage (barren : rehearsal.Barren doomed) (sound : rehearsal.Sound)
    (present : rehearsal.players[position]? = some ⟨replica, none⟩)
    (passage : replica.Passage rehearsal.Said player events) :
    (rehearsal.note position player events).Barren doomed := by
  cases passage with
  | wait transport machine self tuned unfinished =>
      apply barren.note
      · exact fun _ _ told => absurd told List.not_mem_nil
      · exact fun _ _ _ told => absurd told List.not_mem_nil
      · rintro rfl next same
        cases same
        exact barren.standing replica present
  | @act transport machine self tuned act heard step watched =>
      cases watched with
      | halted outcome halting begins quiet last =>
          apply barren.note
          · exact fun view attestations told => absurd told (quiet.not_announced view attestations)
          · exact fun _ view leader told => absurd told (quiet.not_installed view leader)
          · intro _ next same
            rw [outcome] at same
            cases same
      | passed sameEngine sameEvents settled content =>
          obtain ⟨seatSelf, seatRoster⟩ := sound.seated position replica present
          have started := (sound.kept position replica present).started
          rw [sameEvents] at content
          rw [sameEngine, sameEvents]
          have installs : position = doomed → ∀ view leader,
              .viewInstalled view leader ∈ (replica.engine.enact neverHalts act).events →
                leaderOf view rehearsal.roster.size ≠ doomed := by
            rintro rfl view leader installed
            exact barren.follows sound present heard content installed
          have holds : position = doomed →
              leaderOf (replica.engine.enact neverHalts act).engine.view rehearsal.roster.size ≠
                doomed := by
            intro same
            by_cases moved :
                (replica.engine.enact neverHalts act).engine.view = replica.engine.view
            · subst same
              rw [moved]
              exact barren.standing replica present
            · obtain ⟨leader, installed⟩ := Engine.enact_moves started moved
              exact installs same _ leader installed
          refine barren.note ?_ installs ?_
          · intro view attestations announced
            obtain ⟨leads, reached⟩ := Engine.enact_announces started announced
            rw [seatSelf, seatRoster] at leads
            refine ⟨leads, ?_⟩
            intro same
            have follows := holds same
            rw [reached, leads, same] at follows
            exact follows rfl
          · intro same next found
            have engine : next.engine = (replica.engine.enact neverHalts act).engine :=
              (congrArg (·.replica.engine) found.symm).trans (Replica.follow_engine _ _ _)
            rw [engine]
            exact holds same

theorem kept_barren (doomed : Nat) : Kept (Barren · doomed) :=
  fun _ _ _ _ _ sound barren present passage => barren.passage sound present passage

end Passages

theorem barren_opening {roster : Roster} {testCase : TestCase}
    {station : Fin roster.size → Station} {opening : Rehearsal}
    (opened : opening? roster testCase station = some opening) {doomed : Nat} (later : 0 < doomed)
    (dooms : Scenario.dooms testCase doomed = true) : opening.Barren doomed := by
  obtain ⟨rfl, rfl, unseen⟩ := opening_cast opened
  constructor
  · exact dooms
  · rw [unseen]
    exact fun _ _ _ told => absurd told List.not_mem_nil
  · rw [unseen]
    exact fun _ _ told => absurd told List.not_mem_nil
  · intro replica present
    obtain ⟨within, timers, now, -, engine, -⟩ := opening_player opened present
    change replica.engine = _ at engine
    rw [engine]
    change leaderOf 0 _ ≠ _
    rw [leaderOf_eq_emod (Int.le_refl 0), Int.zero_emod]
    omega

/-! ### Every run -/

theorem Sound.decode?_vote {rehearsal : Rehearsal} (sound : rehearsal.Sound) {position : Nat}
    {view : Int} {frame : Bytes}
    (told : (position, .broadcast (.viewChange view)) ∈ rehearsal.seen)
    (written : Frame.encode ⟨position, .viewChange view⟩ = .ok frame) :
    Frame.decode? frame = some ⟨⟨position, .viewChange view⟩, frame.length⟩ := by
  have legible : Frame.Legible ⟨position, .viewChange view⟩ :=
    sound.legible ⟨position, rfl, told⟩
  have read := Frame.Spells.decode?_eq ⟨legible.inRange, legible.countable, written⟩
  exact read.trans (if_pos (Nat.zero_le _))

/-- However a rehearsal goes, a replica that the test case dooms installs no view that it leads,
announces nothing, and sends only votes. Every position of the roster has a word on the wire. -/
theorem doomed_never_leads {roster : Roster} {testCase : TestCase}
    {station : Fin roster.size → Station} {opening : Rehearsal}
    (opened : opening? roster testCase station = some opening)
    (small : roster.size ≤ Frame.maxWord) {doomed : Nat}
    (listed : (testCase, doomed) ∈ [(.singleCrash, 1), (.twoCrashes, 1), (.twoCrashes, 2),
      (.threeCrashes, 1), (.threeCrashes, 2), (.threeCrashes, 3)])
    (cues : List Cue) {player : Player}
    (present : (opening.after cues).players[doomed]? = some player) :
    (∀ view leader, (view, leader) ∈ player.replica.installs.toList →
      0 < view ∧ view % roster.size ≠ doomed) ∧
    (∀ view attestations,
      (doomed, .broadcast (.viewProof view attestations)) ∉ (opening.after cues).seen) ∧
    ∀ sending ∈ player.replica.sendings.toList, ∃ view,
      Frame.decode? sending.payload =
        some ⟨⟨doomed, .viewChange view⟩, sending.payload.length⟩ := by
  obtain ⟨later, dooms⟩ : 0 < doomed ∧ Scenario.dooms testCase doomed = true := by
    have table : ∀ pair ∈ [(TestCase.singleCrash, 1), (.twoCrashes, 1), (.twoCrashes, 2),
        (.threeCrashes, 1), (.threeCrashes, 2), (.threeCrashes, 3)],
        0 < pair.2 ∧ Scenario.dooms pair.1 (pair.2 : Nat) = true := by decide
    exact table _ listed
  have periodic : testCase ≠ .fullRotation := by
    rintro rfl
    cases dooms
  obtain ⟨sound, barren⟩ := after_induction (kept_barren doomed) cues
    (sound_opening opened small periodic) (barren_opening opened later dooms)
  have cast : (opening.after cues).roster = roster :=
    (after_cast opening cues).1.trans (opening_cast opened).1
  have silent : ∀ view attestations,
      (doomed, .broadcast (.viewProof view attestations)) ∉ (opening.after cues).seen :=
    fun view attestations told => (barren.announced doomed view attestations told).2 rfl
  refine ⟨?_, silent, ?_⟩
  · intro view leader installed
    have told := (sound.booked doomed player present view leader).1 installed
    obtain ⟨certificate, positive, -⟩ := sound.elected doomed view leader told
    have follows := barren.installed view leader told
    rw [leaderOf_eq_emod (Int.le_of_lt positive), cast] at follows
    exact ⟨positive, follows⟩
  · intro sending sent
    obtain ⟨message, told, written⟩ := sound.sent doomed player present sending sent
    cases message with
    | viewChange view => exact ⟨view, sound.decode?_vote told written⟩
    | viewProof view attestations => exact absurd told (silent view attestations)

/-- Replica 1 of three proposes view 1 twice and dies of the second vote, after replica 0 has
installed the view. -/
theorem doomed_never_leads_of_crash :
    let roster : Roster :=
      ⟨[⟨[97], ⟨[97], 5000⟩⟩, ⟨[98], ⟨[98], 5000⟩⟩, ⟨[99], ⟨[99], 5000⟩⟩], by decide, by decide⟩
    let cues : List Cue :=
      [⟨1, 100, none⟩, ⟨0, 50, some ⟨50, 1, 0⟩⟩, ⟨1, 10, some ⟨110, 0, 1⟩⟩]
    ∃ opening player,
      opening? roster .singleCrash (fun _ => { progressInterval := 100, proofInterval := 30 }) =
        some opening ∧
      (opening.after cues).players[1]? = some player ∧ player.ending = some (.crashed 1) ∧
      (0, .viewInstalled 1 1) ∈ (opening.after cues).seen ∧
      player.replica.sendings.size = 6 ∧
      ∀ sending ∈ player.replica.sendings.toList, ∃ view,
        Frame.decode? sending.payload = some ⟨⟨1, .viewChange view⟩, sending.payload.length⟩ := by
  intro roster cues
  have ran : (opening? roster .singleCrash
      fun _ => { progressInterval := 100, proofInterval := 30 }).any (fun opening =>
        (opening.after cues).players[1]?.any fun player =>
          player.ending = some (.crashed 1) ∧ (0, .viewInstalled 1 1) ∈ (opening.after cues).seen ∧
            player.replica.sendings.size = 6) = true := by
    decide +kernel
  obtain ⟨opening, opened, ran⟩ := (Option.any_eq_true _ _).1 ran
  obtain ⟨player, present, ran⟩ := (Option.any_eq_true _ _).1 ran
  obtain ⟨ending, installed, sent⟩ := of_decide_eq_true ran
  have votes := (doomed_never_leads opened (by decide) (by decide) cues present).2.2
  exact ⟨opening, player, opened, present, ending, installed, sent, votes⟩

end Rehearsal

end ViewSync
