import ViewSync.Proofs.Backing

/-!
A certificate as the sum of what it was told.

A certificate is told attestations one after the other, a first lot when it is made and others
later. What it keeps is the highest view of each sender that was named, and no trace of the order
or of repetitions. So two certificates for the same view that were told the same are equal, and to
be told more never takes away support.
-/

namespace ViewSync

namespace Attestation

def highest? (attestations : List Attestation) (sender : Int) : Option Int :=
  ((attestations.filter (·.sender = sender)).map (·.view)).max?

variable {attestations others : List Attestation} {sender view replicas : Int}

theorem highest?_eq_some_iff :
    highest? attestations sender = some view ↔
      ⟨sender, view⟩ ∈ attestations ∧
        ∀ attestation ∈ attestations, attestation.sender = sender → attestation.view ≤ view := by
  have listed : view ∈ (attestations.filter (·.sender = sender)).map (·.view) ↔
      ⟨sender, view⟩ ∈ attestations := by
    rw [List.mem_map]
    constructor
    · rintro ⟨⟨_, _⟩, kept, rfl⟩
      obtain ⟨listed, same⟩ := List.mem_filter.1 kept
      cases of_decide_eq_true same
      exact listed
    · intro listed
      exact ⟨_, List.mem_filter.2 ⟨listed, decide_eq_true rfl⟩, rfl⟩
  rw [highest?, List.max?_eq_some_iff, listed]
  simp only [List.forall_mem_map, List.mem_filter, decide_eq_true_eq, and_imp]

theorem highest?_congr
    (same : ∀ attestation, attestation ∈ attestations ↔ attestation ∈ others) (sender : Int) :
    highest? attestations sender = highest? others sender := by
  apply Option.ext
  intro view
  rw [highest?_eq_some_iff, highest?_eq_some_iff]
  simp only [same]

theorem backers_mono (within : attestations ⊆ others) :
    backers view replicas attestations ⊆ backers view replicas others := by
  intro sender backs
  obtain ⟨seated, attestation, listed, attests⟩ := mem_backers.1 backs
  exact mem_backers.2 ⟨seated, attestation, within listed, attests⟩

end Attestation

namespace Certificate

open Attestation (highest?)

/-- It does not matter what a certificate is told when it is made and what later. -/
theorem foldl_add_ofList (view : Int) (first later : List Attestation) :
    later.foldl add (ofList view first) = ofList view (first ++ later) := by
  rw [ofList, ofList, List.foldl_append]

theorem add_ofList (view : Int) (attestations : List Attestation) (next : Attestation) :
    (ofList view attestations).add next = ofList view (attestations ++ [next]) :=
  foldl_add_ofList view attestations [next]

theorem getElem?_eq_some_iff {certificate : Certificate} {sender view : Int} :
    certificate.attested[sender]? = some view ↔
      certificate.Attests sender view ∧
        ∀ other, certificate.Attests sender other → other ≤ view := by
  constructor
  · intro stored
    refine ⟨⟨view, stored, Int.le_refl view⟩, ?_⟩
    rintro other ⟨known, again, below⟩
    cases stored.symm.trans again
    exact below
  · rintro ⟨⟨known, stored, above⟩, highest⟩
    have same : known = view :=
      Int.le_antisymm (highest known ⟨known, stored, Int.le_refl known⟩) above
    rwa [same] at stored

/-- What a certificate stores of a sender is the highest view that it was told. -/
theorem getElem?_ofList (view : Int) (attestations : List Attestation) (sender : Int) :
    (ofList view attestations).attested[sender]? = highest? attestations sender := by
  apply Option.ext
  intro stored
  rw [getElem?_eq_some_iff, Attestation.highest?_eq_some_iff]
  simp only [attests_ofList]
  constructor
  · rintro ⟨⟨⟨_, known⟩, listed, rfl, above⟩, highest⟩
    have same : known = stored :=
      Int.le_antisymm (highest known ⟨_, listed, rfl, Int.le_refl known⟩) above
    refine ⟨same ▸ listed, ?_⟩
    intro other told sent
    exact highest other.view ⟨other, told, sent, Int.le_refl _⟩
  · rintro ⟨listed, highest⟩
    refine ⟨⟨_, listed, rfl, Int.le_refl stored⟩, ?_⟩
    rintro other ⟨attestation, told, sent, below⟩
    exact Int.le_trans below (highest attestation told sent)

theorem ofList_congr {attestations others : List Attestation}
    (same : ∀ attestation, attestation ∈ attestations ↔ attestation ∈ others) (view : Int) :
    ofList view attestations = ofList view others := by
  have sameView : (ofList view attestations).view = (ofList view others).view := by
    rw [ofList_view, ofList_view]
  have sameAttested : (ofList view attestations).attested = (ofList view others).attested := by
    apply Std.ExtTreeMap.ext_getElem?
    intro sender
    rw [getElem?_ofList, getElem?_ofList, Attestation.highest?_congr same]
  calc ofList view attestations
      = ⟨(ofList view attestations).view, (ofList view attestations).attested⟩ := rfl
    _ = ⟨(ofList view others).view, (ofList view others).attested⟩ := by
        rw [sameView, sameAttested]
    _ = ofList view others := rfl

theorem attestations_increasing (certificate : Certificate) :
    certificate.attestations.Pairwise fun left right => left.sender < right.sender := by
  rw [attestations, List.pairwise_map]
  exact Table.toList_increasing certificate.attested

/-! ### What is news to a certificate -/

/-- News is what is above all that is known of its sender. -/
theorem learnsFrom_iff {certificate : Certificate} {next : Attestation} :
    certificate.learnsFrom next = true ↔
      ∀ known ∈ certificate.attestations, known.sender = next.sender → known.view < next.view := by
  constructor
  · rintro learns ⟨sender, view⟩ announced rfl
    have stored : certificate.attested[next.sender]? = some view := mem_attestations.1 announced
    simpa only [learnsFrom, stored, decide_eq_true_eq] using learns
  · intro above
    unfold learnsFrom
    cases stored : certificate.attested[next.sender]? with
    | none => rfl
    | some known => exact decide_eq_true (above ⟨next.sender, known⟩ (mem_attestations.2 stored) rfl)

theorem learnsFrom_iff_announced {certificate : Certificate} {next : Attestation} :
    certificate.learnsFrom next = true ↔
      next ∉ certificate.attestations ∧ next ∈ (certificate.add next).attestations := by
  constructor
  · intro learns
    refine ⟨fun announced => ?_, ?_⟩
    · exact Int.lt_irrefl _ (learnsFrom_iff.1 learns next announced rfl)
    · rw [mem_attestations, add, if_pos learns, Table.getElem?_insert, if_pos rfl]
  · rintro ⟨unknown, announced⟩
    by_contra nothingNew
    rw [add, if_neg nothingNew] at announced
    exact unknown announced

/-! ### Support -/

theorem support_ofList_eq_highest (view replicas : Int) (attestations : List Attestation) :
    (ofList view attestations).support replicas =
      ((rosterOf replicas).filter fun sender =>
        ∃ highest ∈ highest? attestations sender, view ≤ highest).card := by
  apply support_eq_card
  intro sender
  rw [Finset.mem_filter, mem_rosterOf, ofList_view, Attests, getElem?_ofList]
  rfl

theorem support_le_append (view replicas : Int) (attestations : List Attestation)
    (next : Attestation) :
    (ofList view attestations).support replicas ≤
      (ofList view (attestations ++ [next])).support replicas := by
  rw [support_ofList, support_ofList]
  exact Finset.card_le_card (Attestation.backers_mono (List.subset_append_left attestations [next]))

/-- Whoever gathers attestations in lots, with whatever repetitions. What is announced is the
highest view of each sender in increasing order of sender. An attestation is news if and only if
it is above what is announced of its sender, and then it is what is announced. The order and the
lots do not matter. The support is the number of senders on the roster whose highest view is the
candidate view or a later one, and it never goes down. -/
theorem gathers_highest_views (view : Int) (first later : List Attestation) :
    let told := first ++ later
    let certificate := later.foldl add (ofList view first)
    certificate.view = view ∧
    certificate.attestations.Pairwise (fun left right => left.sender < right.sender) ∧
    (∀ attestation, attestation ∈ certificate.attestations ↔
      highest? told attestation.sender = some attestation.view) ∧
    (∀ next,
      (certificate.learnsFrom next = true ↔
        ∀ known ∈ certificate.attestations, known.sender = next.sender →
          known.view < next.view) ∧
      (certificate.learnsFrom next = true ↔
        next ∉ certificate.attestations ∧ next ∈ (certificate.add next).attestations)) ∧
    (∀ otherFirst otherLater : List Attestation,
      (∀ attestation, attestation ∈ otherFirst ++ otherLater ↔ attestation ∈ told) →
        let other := otherLater.foldl add (ofList view otherFirst)
        other.attestations = certificate.attestations ∧
          ∀ replicas, other.support replicas = certificate.support replicas ∧
            other.isValid replicas = certificate.isValid replicas) ∧
    ∀ replicas,
      certificate.support replicas = ((rosterOf replicas).filter fun sender =>
        ∃ highest ∈ highest? told sender, certificate.view ≤ highest).card ∧
      ∀ next, certificate.support replicas ≤ (certificate.add next).support replicas := by
  intro told certificate
  have whole : certificate = ofList view told := foldl_add_ofList view first later
  have sameView : certificate.view = view := by rw [whole, ofList_view]
  refine ⟨sameView, attestations_increasing certificate, ?_,
    fun next => ⟨learnsFrom_iff, learnsFrom_iff_announced⟩, ?_, fun replicas => ⟨?_, ?_⟩⟩
  · intro attestation
    rw [whole, mem_attestations, getElem?_ofList]
  · intro otherFirst otherLater same other
    have equal : other = certificate := by
      rw [whole]
      exact (foldl_add_ofList view otherFirst otherLater).trans (ofList_congr same view)
    rw [equal]
    exact ⟨rfl, fun replicas => ⟨rfl, rfl⟩⟩
  · rw [sameView, whole]
    exact support_ofList_eq_highest view replicas told
  · intro next
    rw [whole, add_ofList]
    exact support_le_append view replicas told next

/-- Replica 1 attests low first and high later, or the other way round; replica 0 repeats itself,
and a stranger is announced but does not count. -/
theorem gathers_highest_views_of_shuffled_lots :
    let first : List Attestation := [⟨1, 2⟩, ⟨0, 5⟩]
    let later : List Attestation := [⟨-1, 9⟩, ⟨1, 7⟩]
    let shuffled : List Attestation := [⟨1, 7⟩, ⟨0, 5⟩, ⟨-1, 9⟩, ⟨0, 5⟩, ⟨1, 2⟩]
    let certificate := later.foldl add (ofList 4 first)
    (∀ attestation, attestation ∈ [] ++ shuffled ↔ attestation ∈ first ++ later) ∧
    (shuffled.foldl add (ofList 4 [])).attestations = certificate.attestations ∧
    ⟨1, 7⟩ ∈ certificate.attestations ∧
    certificate.support 3 = 2 := by
  intro first later shuffled certificate
  have same : ∀ attestation, attestation ∈ [] ++ shuffled ↔ attestation ∈ first ++ later := by
    have within : [] ++ shuffled ⊆ first ++ later := by decide
    have around : first ++ later ⊆ [] ++ shuffled := by decide
    exact fun attestation => ⟨fun listed => within listed, fun listed => around listed⟩
  obtain ⟨-, -, announced, -, orderFree, supported⟩ := gathers_highest_views 4 first later
  refine ⟨same, (orderFree [] shuffled same).1, (announced ⟨1, 7⟩).2 (by decide), ?_⟩
  rw [(supported 3).1]
  decide +kernel

end Certificate

end ViewSync
