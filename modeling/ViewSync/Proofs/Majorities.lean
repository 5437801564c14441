import ViewSync.Proofs.Diary

/-!
Two ways to count, and what any two majorities have in common.

A list of attestations is counted as it comes in, a sender at the first attestation that counts;
a certificate keeps the highest view of every sender and is counted when it is complete. Both count
the backers of the view, so that what is let in and what is kept and announced again are judged
alike. And because a majority is more than half of the roster, any two of them share a backer,
whatever else their lists say.
-/

namespace ViewSync

theorem card_rosterOf (replicas : Int) : (rosterOf replicas).card = replicas.toNat := by
  have distinct : Function.Injective fun position : Nat => (position : Int) :=
    fun _ _ same => Int.ofNat.inj same
  rw [rosterOf, Finset.card_image_of_injective _ distinct, Finset.card_range]

namespace Attestation

variable {view replicas : Int} {attestations : List Attestation}

theorem backers_subset_rosterOf (view replicas : Int) (attestations : List Attestation) :
    backers view replicas attestations ⊆ rosterOf replicas :=
  Finset.filter_subset _ _

theorem quorumFor_iff_majority :
    quorumFor view attestations replicas = true ↔
      0 ≤ view ∧ 0 < replicas ∧
        replicas / 2 + 1 ≤ (backers view replicas attestations).card := by
  rw [quorumFor_iff]
  refine and_congr_right fun _ => and_congr_right fun roster => ?_
  rw [History.quorumSize_eq roster]

end Attestation

namespace Certificate

variable {view replicas : Int} {attestations : List Attestation}

theorem isValid_ofList_iff :
    (ofList view attestations).isValid replicas = true ↔
      0 < replicas ∧ replicas / 2 + 1 ≤ (Attestation.backers view replicas attestations).card := by
  rw [isValid, support_ofList, Bool.and_eq_true, decide_eq_true_eq, decide_eq_true_eq]
  refine and_congr_right fun roster => ?_
  rw [History.quorumSize_eq roster]

/-- A certificate that is sent on has the backers of the list that it was gathered from. -/
theorem backers_attestations_ofList (view replicas : Int) (attestations : List Attestation) :
    Attestation.backers view replicas (ofList view attestations).attestations =
      Attestation.backers view replicas attestations := by
  ext sender
  rw [Attestation.mem_backers, Attestation.mem_backers, ← attests_ofList view attestations]
  refine and_congr_right fun _ => ⟨?_, ?_⟩
  · rintro ⟨⟨sender, attested⟩, listed, rfl, later⟩
    exact ⟨attested, mem_attestations.1 listed, later⟩
  · rintro ⟨attested, stored, later⟩
    exact ⟨⟨sender, attested⟩, mem_attestations.2 stored, rfl, later⟩

end Certificate

namespace Attestation

/-- The check of a received list and the certificate gathered from it agree, for every list, and so
does the check when the certificate is sent on: each asks for a majority of backers. -/
theorem check_agrees_with_certificate (view replicas : Int) (attestations : List Attestation) :
    let certificate := Certificate.ofList view attestations
    (quorumFor view attestations replicas = true ↔
        0 ≤ view ∧ certificate.isValid replicas = true) ∧
      (quorumFor view attestations replicas = true ↔
        0 ≤ view ∧ 0 < replicas ∧
          replicas / 2 + 1 ≤ (backers view replicas attestations).card) ∧
      (certificate.isValid replicas = true ↔
        0 < replicas ∧ replicas / 2 + 1 ≤ (backers view replicas attestations).card) ∧
      quorumFor view certificate.attestations replicas =
        quorumFor view attestations replicas := by
  intro certificate
  refine ⟨?_, quorumFor_iff_majority, Certificate.isValid_ofList_iff, ?_⟩
  · rw [quorumFor_iff_majority, Certificate.isValid_ofList_iff]
  · rw [Bool.eq_iff_iff, quorumFor_iff_majority, quorumFor_iff_majority,
      Certificate.backers_attestations_ofList]

/-- Replica 1 attests low first and high later, replica 0 twice, and strangers do not count. -/
example :
    let list : List Attestation := [⟨1, 2⟩, ⟨0, 5⟩, ⟨-1, 9⟩, ⟨0, 4⟩, ⟨3, 9⟩, ⟨1, 7⟩]
    quorumFor 4 list 3 = true ∧ quorumFor 6 list 3 = false ∧
      (Certificate.ofList 4 list).attestations = [⟨-1, 9⟩, ⟨0, 5⟩, ⟨1, 7⟩, ⟨3, 9⟩] := by
  decide +kernel

/-- Any two majorities share a backer. -/
theorem exists_common_backer {first second replicas : Int} {list other : List Attestation}
    (one : quorumFor first list replicas = true) (two : quorumFor second other replicas = true) :
    ∃ sender, (0 ≤ sender ∧ sender < replicas) ∧
      (∃ attestation ∈ list, attestation.sender = sender ∧ first ≤ attestation.view) ∧
      ∃ attestation ∈ other, attestation.sender = sender ∧ second ≤ attestation.view := by
  obtain ⟨-, roster, half⟩ := quorumFor_iff_majority.1 one
  obtain ⟨-, -, otherHalf⟩ := quorumFor_iff_majority.1 two
  have crowded : (rosterOf replicas).card <
      (backers first replicas list).card + (backers second replicas other).card := by
    rw [card_rosterOf]
    omega
  obtain ⟨sender, common⟩ := Finset.inter_nonempty_of_card_lt_card_add_card
    (backers_subset_rosterOf first replicas list)
    (backers_subset_rosterOf second replicas other) crowded
  obtain ⟨backsFirst, backsSecond⟩ := Finset.mem_inter.1 common
  obtain ⟨seated, attested⟩ := mem_backers.1 backsFirst
  exact ⟨sender, seated, attested, (mem_backers.1 backsSecond).2⟩

/-- Of four replicas three are a majority. The two here have replicas 1 and 2 in common, and only
replica 1 stands behind the later view. -/
theorem exists_common_backer_of_four :
    let list : List Attestation := [⟨0, 3⟩, ⟨9, 3⟩, ⟨1, 3⟩, ⟨1, 3⟩, ⟨2, 5⟩]
    let other : List Attestation := [⟨2, 7⟩, ⟨3, 8⟩, ⟨1, 2⟩, ⟨0, 6⟩, ⟨1, 9⟩]
    quorumFor 3 list 4 = true ∧ quorumFor 7 other 4 = true ∧
      ∃ sender, (0 ≤ sender ∧ sender < 4) ∧
        (∃ attestation ∈ list, attestation.sender = sender ∧ 3 ≤ attestation.view) ∧
        ∃ attestation ∈ other, attestation.sender = sender ∧ 7 ≤ attestation.view := by
  intro list other
  have one : quorumFor 3 list 4 = true := by decide +kernel
  have two : quorumFor 7 other 4 = true := by decide +kernel
  exact ⟨one, two, exists_common_backer one two⟩

end Attestation

end ViewSync
