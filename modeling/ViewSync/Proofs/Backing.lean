import ViewSync.Proofs.Ballot

/-!
Lists of attestations as sets of backers.

A list that arrives in a message may name a sender twice, with different views, and may speak of
strangers. Only the set of those on the roster counts who attest the view or a later one. The check
of received lists asks whether this set is a quorum, and the certificate gathered from the list
has it as its support; so what passes the check is gathered into a valid certificate. In turn the
list in which a valid certificate is sent on passes the check. It says nothing that was not in the
list that was gathered.
-/

namespace ViewSync

def rosterOf (replicas : Int) : Finset Int :=
  (Finset.range replicas.toNat).image fun position : Nat => (position : Int)

theorem mem_rosterOf {replicas sender : Int} :
    sender ∈ rosterOf replicas ↔ 0 ≤ sender ∧ sender < replicas := by
  rw [rosterOf, Finset.mem_image]
  constructor
  · rintro ⟨position, within, rfl⟩
    have below := Finset.mem_range.1 within
    omega
  · rintro ⟨nonneg, below⟩
    exact ⟨sender.toNat, Finset.mem_range.2 (by omega), Int.toNat_of_nonneg nonneg⟩

namespace Attestation

def backers (view replicas : Int) (attestations : List Attestation) : Finset Int :=
  (rosterOf replicas).filter fun sender =>
    ∃ attestation ∈ attestations, attestation.sender = sender ∧ view ≤ attestation.view

variable {view replicas sender : Int} {attestations : List Attestation}

theorem mem_backers :
    sender ∈ backers view replicas attestations ↔
      (0 ≤ sender ∧ sender < replicas) ∧
        ∃ attestation ∈ attestations, attestation.sender = sender ∧ view ≤ attestation.view := by
  rw [backers, Finset.mem_filter, mem_rosterOf]

theorem mem_senders_iff_mem_backers :
    sender ∈ senders view replicas attestations ↔
      sender ∈ backers view replicas attestations := by
  rw [mem_senders, mem_backers]
  constructor
  · rintro ⟨attestation, listed, counts, rfl⟩
    simp only [countsFor, Bool.and_eq_true, decide_eq_true_eq] at counts
    exact ⟨counts.1, attestation, listed, rfl, counts.2⟩
  · rintro ⟨seated, attestation, listed, rfl, later⟩
    refine ⟨attestation, listed, ?_, rfl⟩
    simp [countsFor, seated, later]

theorem size_senders :
    (senders view replicas attestations).size = (backers view replicas attestations).card := by
  have distinct : (senders view replicas attestations).toList.Nodup := by
    rw [List.nodup_iff_pairwise_ne]
    exact Std.ExtTreeSet.ordered_toList.imp fun less => Int.ne_of_lt (Int.compare_eq_lt.1 less)
  have same : (senders view replicas attestations).toList.toFinset =
      backers view replicas attestations := by
    ext sender
    rw [List.mem_toFinset, Std.ExtTreeSet.mem_toList]
    exact mem_senders_iff_mem_backers
  rw [← same, List.toFinset_card_of_nodup distinct, Std.ExtTreeSet.length_toList]

/-- The check of received lists counts backers. -/
theorem quorumFor_iff :
    quorumFor view attestations replicas = true ↔
      0 ≤ view ∧ 0 < replicas ∧
        quorumSize replicas ≤ (backers view replicas attestations).card := by
  simp only [quorumFor, size_senders, Bool.and_eq_true, decide_eq_true_eq, and_assoc]

end Attestation

namespace Certificate

def Attests (certificate : Certificate) (sender view : Int) : Prop :=
  ∃ attested, certificate.attested[sender]? = some attested ∧ view ≤ attested

theorem not_attests_blank (candidate sender view : Int) :
    ¬ (blank candidate).Attests sender view := by
  rintro ⟨attested, stored, -⟩
  simp [blank] at stored

theorem attests_add (certificate : Certificate) (attestation : Attestation) (sender view : Int) :
    (certificate.add attestation).Attests sender view ↔
      (attestation.sender = sender ∧ view ≤ attestation.view) ∨
        certificate.Attests sender view := by
  cases learns : certificate.learnsFrom attestation with
  | true =>
      rw [add, if_pos learns, Attests, Table.getElem?_insert]
      by_cases same : sender = attestation.sender
      · subst same
        rw [if_pos rfl]
        constructor
        · rintro ⟨attested, stored, later⟩
          cases stored
          exact .inl ⟨rfl, later⟩
        · rintro (⟨-, later⟩ | ⟨attested, stored, later⟩)
          · exact ⟨_, rfl, later⟩
          · -- what was known before is lower than what is learned
            simp only [learnsFrom, stored, decide_eq_true_eq] at learns
            exact ⟨_, rfl, Int.le_trans later (Int.le_of_lt learns)⟩
      · rw [if_neg same]
        constructor
        · exact Or.inr
        · rintro (⟨rfl, -⟩ | known)
          · exact absurd rfl same
          · exact known
  | false =>
      rw [add, if_neg (by simp [learns])]
      constructor
      · exact Or.inr
      · rintro (⟨rfl, later⟩ | known)
        · unfold learnsFrom at learns
          cases stored : certificate.attested[attestation.sender]? with
          | none => simp [stored] at learns
          | some attested =>
              simp only [stored, decide_eq_false_iff_not, Int.not_lt] at learns
              exact ⟨attested, stored, Int.le_trans later learns⟩
        · exact known

theorem attests_foldl_add (attestations : List Attestation) (certificate : Certificate)
    (sender view : Int) :
    (attestations.foldl add certificate).Attests sender view ↔
      (∃ attestation ∈ attestations, attestation.sender = sender ∧ view ≤ attestation.view) ∨
        certificate.Attests sender view := by
  induction attestations generalizing certificate with
  | nil => simp
  | cons first rest ih =>
      rw [List.foldl_cons, ih, attests_add, List.exists_mem_cons_iff, or_left_comm, or_assoc]

theorem ofList_view (view : Int) (attestations : List Attestation) :
    (ofList view attestations).view = view :=
  foldl_add_view attestations (blank view)

theorem attests_ofList (view : Int) (attestations : List Attestation) (sender later : Int) :
    (ofList view attestations).Attests sender later ↔
      ∃ attestation ∈ attestations, attestation.sender = sender ∧ later ≤ attestation.view := by
  rw [ofList, attests_foldl_add]
  exact or_iff_left (not_attests_blank view sender later)

/-- The support of a certificate is the number of those on the roster who attest its view. -/
theorem support_eq_card (certificate : Certificate) (replicas : Int) (supporters : Finset Int)
    (exact : ∀ sender, sender ∈ supporters ↔
      (0 ≤ sender ∧ sender < replicas) ∧ certificate.Attests sender certificate.view) :
    certificate.support replicas = supporters.card := by
  let counted : List (Int × Int) := certificate.attested.toList.filter fun entry =>
    0 ≤ entry.1 && entry.1 < replicas && certificate.view ≤ entry.2
  have distinct : (counted.map Prod.fst).Nodup :=
    certificate.nodup_senders.sublist (List.filter_sublist.map Prod.fst)
  have same : (counted.map Prod.fst).toFinset = supporters := by
    ext sender
    rw [exact, List.mem_toFinset, List.mem_map]
    constructor
    · rintro ⟨⟨sender, attested⟩, listed, rfl⟩
      obtain ⟨stored, counts⟩ := List.mem_filter.1 listed
      simp only [Bool.and_eq_true, decide_eq_true_eq] at counts
      exact ⟨counts.1, attested, Table.mem_toList.1 stored, counts.2⟩
    · rintro ⟨seated, attested, stored, later⟩
      refine ⟨(sender, attested), List.mem_filter.2 ⟨Table.mem_toList.2 stored, ?_⟩, rfl⟩
      simp [seated, later]
  rw [support, List.countP_eq_length_filter, ← same, List.toFinset_card_of_nodup distinct,
    List.length_map]

theorem support_ofList (view replicas : Int) (attestations : List Attestation) :
    (ofList view attestations).support replicas =
      (Attestation.backers view replicas attestations).card := by
  apply support_eq_card
  intro sender
  rw [ofList_view, attests_ofList, Attestation.mem_backers]

/-- What passes the check of received lists is gathered into a valid certificate. -/
theorem isValid_ofList {view replicas : Int} {attestations : List Attestation}
    (quorum : Attestation.quorumFor view attestations replicas = true) :
    (ofList view attestations).isValid replicas = true := by
  obtain ⟨-, roster, enough⟩ := Attestation.quorumFor_iff.1 quorum
  simp [isValid, roster, support_ofList, enough]

/-! ### Certificates that are sent on -/

theorem support_eq_backers (certificate : Certificate) (replicas : Int) :
    certificate.support replicas =
      (Attestation.backers certificate.view replicas certificate.attestations).card := by
  apply support_eq_card
  intro sender
  rw [Attestation.mem_backers]
  constructor
  · rintro ⟨seated, ⟨sender, attested⟩, listed, rfl, later⟩
    exact ⟨seated, attested, mem_attestations.1 listed, later⟩
  · rintro ⟨seated, attested, stored, later⟩
    exact ⟨seated, ⟨sender, attested⟩, mem_attestations.2 stored, rfl, later⟩

theorem quorumFor_of_isValid {certificate : Certificate} {replicas : Int}
    (valid : certificate.isValid replicas = true) (started : 0 ≤ certificate.view) :
    Attestation.quorumFor certificate.view certificate.attestations replicas = true := by
  simp only [isValid, Bool.and_eq_true, decide_eq_true_eq, support_eq_backers] at valid
  exact Attestation.quorumFor_iff.2 ⟨started, valid⟩

theorem mem_of_mem_ofList {view : Int} {list : List Attestation} {attestation : Attestation}
    (stored : attestation ∈ (ofList view list).attestations) : attestation ∈ list := by
  obtain ⟨sender, attested⟩ := attestation
  have known := mem_attestations.1 stored
  -- the highest view of the sender is one of those that are listed
  obtain ⟨⟨sender, highest⟩, listed, rfl, later⟩ :=
    (attests_ofList view list sender attested).1 ⟨attested, known, Int.le_refl _⟩
  obtain ⟨other, again, above⟩ :=
    (attests_ofList view list sender highest).2 ⟨_, listed, rfl, Int.le_refl _⟩
  cases known.symm.trans again
  rwa [Int.le_antisymm later above]

theorem length_attestations_ofList (view : Int) (list : List Attestation) :
    (ofList view list).attestations.length ≤ list.length := by
  have distinct : ((ofList view list).attestations.map (·.sender)).Nodup := by
    rw [attestations_senders]
    exact (ofList view list).nodup_senders
  exact (distinct.of_map _).subperm (fun _ => mem_of_mem_ofList) |>.length_le

end Certificate

end ViewSync
