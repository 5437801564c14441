import Mathlib.Data.Finset.Card
import ViewSync.Certificate

/-!
Certificates as sets of voters.

A replica gathers a certificate one attestation at a time. What decides whether it is a quorum is
the set of those who have attested, and for a ballot, in which every attestation is for the
candidate view itself, nothing else is in it. The wire form of a certificate is gathered into the
same certificate again.
-/

namespace ViewSync

theorem quorumSize_natCast (replicas : Nat) :
    quorumSize (replicas : Int) = ((replicas / 2 + 1 : Nat) : Int) := by
  rw [quorumSize, Int.tdiv_eq_ediv_of_nonneg (Int.natCast_nonneg replicas)]
  omega

theorem quorumSize_positive {replicas : Int} (roster : 0 < replicas) :
    0 < quorumSize replicas := by
  have half : 0 ≤ Int.tdiv replicas 2 := Int.tdiv_nonneg (Int.le_of_lt roster) (by omega)
  unfold quorumSize
  omega

theorem two_le_quorumSize {replicas : Int} (several : 1 < replicas) :
    2 ≤ quorumSize replicas := by
  have half : 1 ≤ Int.tdiv replicas 2 := by
    rw [Int.tdiv_eq_ediv_of_nonneg (by omega)]
    omega
  unfold quorumSize
  omega

namespace Table

/-- A key that is stored again holds only what was stored last. -/
theorem insert_insert {α : Type} (table : Table α) (key : Int) (first second : α) :
    (table.insert key first).insert key second = table.insert key second := by
  apply Std.ExtTreeMap.ext_getElem?
  intro other
  rw [getElem?_insert, getElem?_insert, getElem?_insert]
  split <;> rfl

end Table

namespace Certificate

def voters (certificate : Certificate) : Finset Int :=
  (certificate.attested.toList.map Prod.fst).toFinset

theorem mem_voters {certificate : Certificate} {sender : Int} :
    sender ∈ certificate.voters ↔
      ∃ view, certificate.attested[sender]? = some view := by
  rw [voters, List.mem_toFinset, List.mem_map]
  constructor
  · rintro ⟨⟨key, view⟩, listed, rfl⟩
    exact ⟨view, Table.mem_toList.1 listed⟩
  · rintro ⟨view, stored⟩
    exact ⟨(sender, view), Table.mem_toList.2 stored, rfl⟩

theorem nodup_senders (certificate : Certificate) :
    (certificate.attested.toList.map Prod.fst).Nodup := by
  rw [List.nodup_iff_pairwise_ne, List.pairwise_map]
  exact (Table.toList_increasing certificate.attested).imp Int.ne_of_lt

theorem card_voters (certificate : Certificate) :
    certificate.voters.card = certificate.attested.toList.length := by
  rw [voters, List.toFinset_card_of_nodup certificate.nodup_senders, List.length_map]

theorem voters_blank (view : Int) : (blank view).voters = ∅ := by
  apply Finset.eq_empty_of_forall_notMem
  intro sender present
  obtain ⟨attested, stored⟩ := mem_voters.1 present
  simp [blank] at stored

theorem add_view (certificate : Certificate) (attestation : Attestation) :
    (certificate.add attestation).view = certificate.view := by
  unfold add
  split <;> rfl

theorem voters_add (certificate : Certificate) (attestation : Attestation) :
    (certificate.add attestation).voters = insert attestation.sender certificate.voters := by
  ext sender
  rw [Finset.mem_insert]
  cases learns : certificate.learnsFrom attestation with
  | true =>
      rw [add, if_pos learns, mem_voters, mem_voters]
      simp only [Table.getElem?_insert]
      by_cases same : sender = attestation.sender
      · simp [same]
      · simp [same]
  | false =>
      rw [add, if_neg (by simp [learns])]
      constructor
      · exact Or.inr
      · rintro (rfl | known)
        · unfold learnsFrom at learns
          rw [mem_voters]
          cases stored : certificate.attested[attestation.sender]? with
          | none => rw [stored] at learns; cases learns
          | some view => exact ⟨view, rfl⟩
        · exact known

theorem voters_add_vote (certificate : Certificate) (sender view : Int) :
    (certificate.add ⟨sender, view⟩).voters = insert sender certificate.voters :=
  voters_add certificate ⟨sender, view⟩

/-! ### Ballots -/

/-- Every attestation is for the candidate view itself, and `vote` holds of every sender. -/
structure IsBallot (certificate : Certificate) (view : Int) (vote : Int → Prop) : Prop where
  candidate : certificate.view = view
  exact : ∀ sender attested : Int,
    certificate.attested[sender]? = some attested → attested = view
  cast : ∀ sender ∈ certificate.voters, vote sender

theorem IsBallot.imp {certificate : Certificate} {view : Int} {vote later : Int → Prop}
    (ballot : certificate.IsBallot view vote)
    (implied : ∀ sender, vote sender → later sender) : certificate.IsBallot view later :=
  ⟨ballot.candidate, ballot.exact, fun sender voted => implied sender (ballot.cast sender voted)⟩

theorem isBallot_blank (view : Int) (vote : Int → Prop) : (blank view).IsBallot view vote where
  candidate := rfl
  exact sender attested stored := by simp [blank] at stored
  cast sender voted := by simp [voters_blank] at voted

theorem IsBallot.add {certificate : Certificate} {view sender : Int} {vote : Int → Prop}
    (ballot : certificate.IsBallot view vote) (voted : vote sender) :
    (certificate.add ⟨sender, view⟩).IsBallot view vote where
  candidate := (add_view _ _).trans ballot.candidate
  exact other attested stored := by
    unfold Certificate.add at stored
    split at stored
    · rw [Table.getElem?_insert] at stored
      split at stored
      · exact (Option.some.inj stored).symm
      · exact ballot.exact other attested stored
    · exact ballot.exact other attested stored
  cast other present := by
    rw [voters_add_vote, Finset.mem_insert] at present
    rcases present with rfl | earlier
    · exact voted
    · exact ballot.cast other earlier

/-- A ballot learns from those who are not among its voters. -/
theorem IsBallot.learnsFrom_iff {certificate : Certificate} {view sender : Int}
    {vote : Int → Prop} (ballot : certificate.IsBallot view vote) :
    certificate.learnsFrom ⟨sender, view⟩ = true ↔ sender ∉ certificate.voters := by
  rw [mem_voters]
  unfold learnsFrom
  cases stored : certificate.attested[sender]? with
  | none => simp
  | some attested =>
      have same := ballot.exact sender attested stored
      simp [same]

theorem IsBallot.add_of_mem {certificate : Certificate} {view sender : Int}
    {vote : Int → Prop} (ballot : certificate.IsBallot view vote)
    (voted : sender ∈ certificate.voters) : certificate.add ⟨sender, view⟩ = certificate := by
  have nothingNew : ¬ certificate.learnsFrom ⟨sender, view⟩ = true := by
    rw [ballot.learnsFrom_iff]
    exact not_not_intro voted
  rw [Certificate.add, if_neg nothingNew]

/-- On a roster that has all its voters, the support of a ballot is the number of voters. -/
theorem IsBallot.support_eq {certificate : Certificate} {view replicas : Int}
    {vote : Int → Prop} (ballot : certificate.IsBallot view vote)
    (seated : ∀ sender, vote sender → 0 ≤ sender ∧ sender < replicas) :
    certificate.support replicas = certificate.voters.card := by
  rw [support, card_voters, List.countP_eq_length]
  rintro ⟨sender, attested⟩ listed
  have stored := Table.mem_toList.1 listed
  have attestedEq := ballot.exact sender attested stored
  have place := seated sender (ballot.cast sender (mem_voters.2 ⟨attested, stored⟩))
  simp [place, attestedEq, ballot.candidate]

theorem IsBallot.isValid_iff {certificate : Certificate} {view replicas : Int}
    {vote : Int → Prop} (ballot : certificate.IsBallot view vote)
    (seated : ∀ sender, vote sender → 0 ≤ sender ∧ sender < replicas)
    (roster : 0 < replicas) :
    certificate.isValid replicas = true ↔
      quorumSize replicas ≤ certificate.voters.card := by
  simp [isValid, ballot.support_eq seated, roster]

/-! ### The wire form -/

theorem mem_attestations {certificate : Certificate} {attestation : Attestation} :
    attestation ∈ certificate.attestations ↔
      certificate.attested[attestation.sender]? = some attestation.view := by
  rw [attestations, List.mem_map, ← Table.mem_toList]
  constructor
  · rintro ⟨entry, listed, rfl⟩
    exact listed
  · intro listed
    exact ⟨(attestation.sender, attestation.view), listed, rfl⟩

theorem attestations_senders (certificate : Certificate) :
    certificate.attestations.map (·.sender) = certificate.attested.toList.map Prod.fst := by
  rw [attestations, List.map_map]
  rfl

theorem length_attestations (certificate : Certificate) :
    certificate.attestations.length = certificate.voters.card := by
  rw [attestations, List.length_map, card_voters]

theorem foldl_add_view (attestations : List Attestation) (certificate : Certificate) :
    (attestations.foldl add certificate).view = certificate.view := by
  induction attestations generalizing certificate with
  | nil => rfl
  | cons attestation rest ih =>
      rw [List.foldl_cons, ih, add_view]

theorem foldl_add_attested (attestations : List Attestation) (certificate : Certificate)
    (distinct : (attestations.map (·.sender)).Nodup)
    (unknown : ∀ attestation ∈ attestations,
      certificate.attested[attestation.sender]? = none) (sender view : Int) :
    (attestations.foldl add certificate).attested[sender]? = some view ↔
      ⟨sender, view⟩ ∈ attestations ∨ certificate.attested[sender]? = some view := by
  induction attestations generalizing certificate with
  | nil => simp
  | cons first rest ih =>
      rw [List.map_cons, List.nodup_cons] at distinct
      have firstUnknown := unknown first List.mem_cons_self
      have learns : certificate.learnsFrom first = true := by
        simp [learnsFrom, firstUnknown]
      have restUnknown : ∀ attestation ∈ rest,
          (certificate.add first).attested[attestation.sender]? = none := by
        intro attestation later
        have different : attestation.sender ≠ first.sender := by
          intro same
          exact distinct.1 (List.mem_map.2 ⟨attestation, later, same⟩)
        rw [add, if_pos learns, Table.getElem?_insert, if_neg different]
        exact unknown attestation (List.mem_cons_of_mem first later)
      rw [List.foldl_cons, ih _ distinct.2 restUnknown, add, if_pos learns,
        Table.getElem?_insert, List.mem_cons]
      by_cases same : sender = first.sender
      · subst same
        have notLater : ⟨first.sender, view⟩ ∉ rest := by
          intro later
          exact distinct.1 (List.mem_map.2 ⟨_, later, rfl⟩)
        rw [if_pos rfl, firstUnknown]
        cases first
        simp [notLater, eq_comm]
      · have notFirst : (⟨sender, view⟩ : Attestation) ≠ first := by
          rintro rfl
          exact same rfl
        rw [if_neg same]
        simp [notFirst]

theorem ofList_attestations (certificate : Certificate) :
    ofList certificate.view certificate.attestations = certificate := by
  have sameView : (ofList certificate.view certificate.attestations).view = certificate.view :=
    foldl_add_view certificate.attestations (blank certificate.view)
  have sameAttested :
      (ofList certificate.view certificate.attestations).attested = certificate.attested := by
    apply Std.ExtTreeMap.ext_getElem?
    intro sender
    apply Option.ext
    intro view
    rw [ofList, foldl_add_attested, mem_attestations]
    · simp [blank]
    · rw [attestations_senders]
      exact certificate.nodup_senders
    · intro attestation listed
      simp [blank]
  calc ofList certificate.view certificate.attestations
      = ⟨(ofList certificate.view certificate.attestations).view,
          (ofList certificate.view certificate.attestations).attested⟩ := rfl
    _ = ⟨certificate.view, certificate.attested⟩ := by rw [sameView, sameAttested]
    _ = certificate := rfl

theorem blank_not_valid (view : Int) {replicas : Int} (roster : 0 < replicas) :
    ¬ (blank view).isValid replicas = true := by
  have positive := quorumSize_positive roster
  have supported : (blank view).support replicas = 0 := by
    rw [(isBallot_blank view fun _ => False).support_eq fun _ impossible => impossible.elim,
      voters_blank, Finset.card_empty]
  simp [isValid, supported, positive]

end Certificate

end ViewSync
