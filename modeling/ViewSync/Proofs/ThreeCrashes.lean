import ViewSync.Proofs.RehearsalSoundness

/-!
Five replicas of which three are doomed.

Two of five replicas are no quorum, so view 4, with which the case of three crashes ends, needs the
vote of a doomed replica. The quorum that kills a replica is the last thing that it does, so this
replica has voted before it has collected a quorum for any view of its own. It may never collect
one: when the votes that it needs are lost on their way to it, the other two go from view to view
with its votes, and the rehearsal comes to its end.
-/

namespace ViewSync

open Cluster (neverHalts)

namespace Rehearsal

def Fatal (rehearsal : Rehearsal) (position : Nat) (view : Int) : Prop :=
  Scenario.crashesOnQuorum ⟨some rehearsal.testCase, position, rehearsal.roster.size⟩ view = true

/-- Nobody at work has collected a quorum that kills him, and nobody has done anything after one. -/
structure Mortal (rehearsal : Rehearsal) : Prop where
  spared : ∀ (position : Nat) (replica : Replica),
    rehearsal.players[position]? = some ⟨replica, none⟩ → ∀ view,
      (position, .quorumCollected view) ∈ rehearsal.seen → ¬ rehearsal.Fatal position view
  last : rehearsal.seen.Pairwise fun earlier later => earlier.1 = later.1 →
    ∀ view, earlier.2 = .quorumCollected view → ¬ rehearsal.Fatal earlier.1 view

theorem pairwise_of_dropLast {α : Type} {relates : α → α → Prop} {items : List α}
    (early : ∀ item ∈ items.dropLast, ∀ other, relates item other) : items.Pairwise relates := by
  rcases List.eq_nil_or_concat' items with rfl | ⟨first, last, rfl⟩
  · exact List.Pairwise.nil
  · rw [List.dropLast_concat] at early
    refine List.pairwise_append.2 ⟨?_, List.pairwise_singleton _ _, ?_⟩
    · exact List.pairwise_of_forall_mem_list fun item listed other _ => early item listed other
    · exact fun item listed other _ => early item listed other

section Passages

variable {rehearsal : Rehearsal} {position : Nat} {replica : Replica} {player : Player}
  {events : List Event}

theorem Mortal.note (mortal : rehearsal.Mortal)
    (present : rehearsal.players[position]? = some ⟨replica, none⟩)
    (spared : ∀ next, player = ⟨next, none⟩ → ∀ view, .quorumCollected view ∈ events →
      ¬ rehearsal.Fatal position view)
    (last : ∀ view, .quorumCollected view ∈ events.dropLast → ¬ rehearsal.Fatal position view) :
    (rehearsal.note position player events).Mortal where
  spared other next stored view collected := by
    rcases player_note stored with ⟨rfl, found⟩ | ⟨different, earlier⟩
    · rcases mem_seen_note.1 collected with before | ⟨-, now⟩
      · exact mortal.spared other replica present view before
      · exact spared next found.symm view now
    · rcases mem_seen_note.1 collected with before | ⟨same, -⟩
      · exact mortal.spared other next earlier view before
      · exact absurd same different
  last := by
    refine List.pairwise_append.2 ⟨mortal.last, ?_, ?_⟩
    · apply List.pairwise_map.2 (pairwise_of_dropLast _)
      rintro _ early _ - view rfl
      exact last view early
    · rintro ⟨earlier, event⟩ before ⟨later, other⟩ now same view collected
      obtain ⟨_, -, tagged⟩ := List.mem_map.1 now
      cases tagged
      subst same collected
      exact mortal.spared _ replica present view before

theorem Mortal.passage (mortal : rehearsal.Mortal) (sound : rehearsal.Sound)
    (present : rehearsal.players[position]? = some ⟨replica, none⟩)
    (passage : replica.Passage rehearsal.Said player events) :
    (rehearsal.note position player events).Mortal := by
  cases passage with
  | wait transport machine self tuned unfinished =>
      exact mortal.note present (fun _ _ _ told => absurd told List.not_mem_nil)
        fun _ told => absurd told List.not_mem_nil
  | @act transport machine self tuned act heard step watched =>
      cases watched with
      | passed sameEngine sameEvents settled content =>
          have harmless : ∀ view, .quorumCollected view ∈ step.events →
              ¬ rehearsal.Fatal position view := by
            intro view collected fatal
            have survived := content view collected
            rw [(sound.placed position _ present).2.2, fatal] at survived
            cases survived
          exact mortal.note present (fun _ _ => harmless)
            fun view early => harmless view (List.mem_of_mem_dropLast early)
      | halted outcome halting begins quiet last =>
          obtain ⟨first, same, before⟩ := last
          apply mortal.note present
          · intro next ended
            rw [outcome] at ended
            cases ended
          · rw [same, List.dropLast_concat]
            exact fun view early => absurd early (before view)

theorem kept_mortal : Kept Mortal :=
  fun _ _ _ _ _ sound mortal present passage => mortal.passage sound present passage

end Passages

theorem mortal_opening {roster : Roster} {testCase : TestCase}
    {station : Fin roster.size → Station} {opening : Rehearsal}
    (opened : opening? roster testCase station = some opening) : opening.Mortal := by
  obtain ⟨-, -, unseen⟩ := opening_cast opened
  constructor
  · rw [unseen]
    exact fun _ _ _ _ told => absurd told List.not_mem_nil
  · rw [unseen]
    exact List.Pairwise.nil

/-! ### View 4 -/

/-- Of three voters among five one is doomed. -/
theorem exists_doomed_voter {voters : Finset Int} (three : voters.card = 3)
    (seated : ∀ voter ∈ voters, 0 ≤ voter ∧ voter < 5) :
    ∃ doomed ∈ voters, 1 ≤ doomed ∧ doomed ≤ 3 := by
  by_contra spared
  have few : voters ⊆ {0, 4} := by
    intro voter voted
    have within := seated voter voted
    have between : ¬ (1 ≤ voter ∧ voter ≤ 3) := fun doomed => spared ⟨voter, voted, doomed⟩
    rw [Finset.mem_insert, Finset.mem_singleton]
    omega
  have bound := Finset.card_le_card few
  rw [three] at bound
  exact absurd bound (by decide)

theorem Fatal.of_threeCrashes {rehearsal : Rehearsal}
    (case : rehearsal.testCase = .threeCrashes) (five : rehearsal.roster.size = 5) {doomed : Nat}
    (listed : 1 ≤ doomed ∧ doomed ≤ 3) {view : Int} (later : 0 < view) (own : view % 5 = doomed) :
    rehearsal.Fatal doomed view := by
  have leads : leaderOf view 5 = doomed := by
    rw [leaderOf_eq_emod (Int.le_of_lt later), own]
  have dooms : Scenario.dooms .threeCrashes doomed = true :=
    Bool.and_eq_true_iff.2 ⟨decide_eq_true (by omega), decide_eq_true (by omega)⟩
  unfold Fatal
  rw [case, five]
  exact Bool.and_eq_true_iff.2 ⟨decide_eq_true leads, dooms⟩

/-- A replica at work ends the case when it installs view 4, and in no other way. The case does not
come to its end unless a doomed replica votes for view 4, which it does before it has collected a
quorum for any view of its own. -/
theorem ends_only_on_doomed_vote {roster : Roster} {station : Fin roster.size → Station}
    {opening : Rehearsal} (opened : opening? roster .threeCrashes station = some opening)
    (five : roster.size = 5) (cues : List Cue) {position : Nat} {player : Player}
    (present : (opening.after cues).players[position]? = some player) :
    (player.ending = some .finished ↔ ∃ leader, (4, leader) ∈ player.replica.installs.toList) ∧
    (player.ending = some .finished → ∃ (doomed : Nat) (before after : List (Nat × Event)),
      (1 ≤ doomed ∧ doomed ≤ 3) ∧
      (opening.after cues).seen = before ++ (doomed, .broadcast (.viewChange 4)) :: after ∧
      ∀ view : Int, 0 < view → view % 5 = doomed → (doomed, .quorumCollected view) ∉ before) := by
  have small : roster.size ≤ Frame.maxWord := by
    rw [five]
    decide
  obtain ⟨sound, mortal⟩ := after_induction kept_mortal cues
    (sound_opening opened small (by decide)) (mortal_opening opened)
  obtain ⟨openingRoster, openingCase, -⟩ := opening_cast opened
  obtain ⟨sameRoster, sameCase⟩ := after_cast opening cues
  have case : (opening.after cues).testCase = .threeCrashes := sameCase.trans openingCase
  have size : (opening.after cues).roster.size = 5 := by
    rw [sameRoster, openingRoster, five]
  have ends : player.ending = some .finished ↔
      ∃ leader, (4, leader) ∈ player.replica.installs.toList := by
    rw [sound.finished_iff present, case]
    constructor
    · rintro ⟨view, leader, listed, last⟩
      have reached : view = 4 := of_decide_eq_true last
      exact ⟨leader, reached ▸ listed⟩
    · rintro ⟨leader, listed⟩
      exact ⟨4, leader, listed, rfl⟩
  refine ⟨ends, ?_⟩
  intro finished
  obtain ⟨leader, installed⟩ := ends.1 finished
  have told := (sound.booked position player present 4 leader).1 installed
  obtain ⟨certificate, -, ballot, quorum⟩ := sound.elected position 4 leader told
  have three : certificate.voters.card = 3 := by
    rw [size] at quorum
    exact Int.natCast_inj.1 (quorum.trans (by decide))
  obtain ⟨doomed, voted, listed⟩ := exists_doomed_voter three fun voter voted => by
    have within := (ballot.cast voter voted).1
    rw [size] at within
    exact within
  obtain ⟨before, after, split⟩ := List.append_of_mem (ballot.cast doomed voted).2.2
  have named : 1 ≤ doomed.toNat ∧ doomed.toNat ≤ 3 := by omega
  refine ⟨doomed.toNat, before, after, named, split, ?_⟩
  intro view later own collected
  have order := mortal.last
  rw [split] at order
  exact (List.pairwise_append.1 order).2.2 _ collected _ List.mem_cons_self rfl view rfl
    (Fatal.of_threeCrashes case size named later own)

/-! ### A run that comes to its end -/

def quintet : Roster :=
  ⟨[⟨[97], ⟨[97], 5000⟩⟩, ⟨[98], ⟨[98], 5000⟩⟩, ⟨[99], ⟨[99], 5000⟩⟩, ⟨[100], ⟨[100], 5000⟩⟩,
    ⟨[101], ⟨[101], 5000⟩⟩], by decide, by decide⟩

/-- Replica 1 proposes view 1 and joins in later views, and its votes reach replicas 0 and 4. But it
hears of no vote for view 1 and of just one for each later view. Nothing reaches replicas 2 and
3. -/
def bereft : List Cue :=
  [⟨1, 100, none⟩, ⟨0, 100, some ⟨101, 1, 0⟩⟩, ⟨4, 100, some ⟨101, 0, 4⟩⟩,
    ⟨4, 0, some ⟨102, 1, 4⟩⟩, ⟨0, 0, some ⟨102, 4, 0⟩⟩,
    ⟨0, 100, some ⟨203, 4, 0⟩⟩, ⟨1, 0, some ⟨203, 0, 6⟩⟩, ⟨4, 100, some ⟨203, 0, 9⟩⟩,
    ⟨4, 0, some ⟨204, 1, 14⟩⟩, ⟨0, 0, some ⟨204, 1, 10⟩⟩, ⟨0, 0, some ⟨205, 4, 5⟩⟩,
    ⟨0, 100, some ⟨306, 4, 0⟩⟩, ⟨1, 97, some ⟨306, 0, 11⟩⟩, ⟨4, 100, some ⟨306, 0, 14⟩⟩,
    ⟨4, 0, some ⟨307, 1, 24⟩⟩, ⟨0, 0, some ⟨307, 1, 20⟩⟩, ⟨0, 0, some ⟨308, 4, 10⟩⟩,
    ⟨0, 100, some ⟨409, 4, 0⟩⟩, ⟨1, 94, some ⟨409, 0, 16⟩⟩, ⟨4, 100, some ⟨409, 0, 19⟩⟩,
    ⟨4, 0, some ⟨410, 1, 34⟩⟩, ⟨0, 0, some ⟨410, 1, 30⟩⟩, ⟨0, 0, some ⟨411, 4, 15⟩⟩]

theorem after_bereft : ∃ opening player,
    opening? quintet .threeCrashes (fun _ => { progressInterval := 100, proofInterval := 30 }) =
      some opening ∧
    (opening.after bereft).players[0]? = some player ∧
    player.replica.installs.toList = [(1, 1), (2, 2), (3, 3), (4, 4)] ∧
    player.ending = some .finished := by
  have ran : (opening? quintet .threeCrashes
      fun _ => { progressInterval := 100, proofInterval := 30 }).any (fun opening =>
        (opening.after bereft).players[0]?.any fun player =>
          player.replica.installs.toList = [(1, 1), (2, 2), (3, 3), (4, 4)] ∧
            player.ending = some .finished) = true := by
    decide +kernel
  obtain ⟨opening, opened, ran⟩ := (Option.any_eq_true _ _).1 ran
  obtain ⟨player, present, ran⟩ := (Option.any_eq_true _ _).1 ran
  exact ⟨opening, player, opened, present, of_decide_eq_true ran⟩

theorem ends_only_on_doomed_vote_of_bereft : ∃ opening player,
    opening? quintet .threeCrashes (fun _ => { progressInterval := 100, proofInterval := 30 }) =
      some opening ∧
    (opening.after bereft).players[0]? = some player ∧
    (∃ leader, (4, leader) ∈ player.replica.installs.toList) ∧
    ∃ (doomed : Nat) (before after : List (Nat × Event)),
      (1 ≤ doomed ∧ doomed ≤ 3) ∧
      (opening.after bereft).seen = before ++ (doomed, .broadcast (.viewChange 4)) :: after ∧
      ∀ view : Int, 0 < view → view % 5 = doomed → (doomed, .quorumCollected view) ∉ before := by
  obtain ⟨opening, player, opened, present, -, finished⟩ := after_bereft
  obtain ⟨ends, needs⟩ := ends_only_on_doomed_vote opened (by decide) bereft present
  exact ⟨opening, player, opened, present, ends.1 finished, needs finished⟩

/-- Five replicas of the case can come to its end. -/
theorem five_can_end :
    ¬ ∀ (roster : Roster) (station : Fin roster.size → Station) (opening : Rehearsal)
      (cues : List Cue), roster.size = 5 →
        opening? roster .threeCrashes station = some opening →
          ∀ player ∈ (opening.after cues).players, player.ending ≠ some .finished ∧
            ∀ leader, (4, leader) ∉ player.replica.installs.toList := by
  intro never
  obtain ⟨opening, player, opened, present, -, finished⟩ := after_bereft
  exact (never quintet _ opening bereft (by decide) opened player
    (List.mem_of_getElem? present)).1 finished

end Rehearsal

end ViewSync
