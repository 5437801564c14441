import Std.Data.ExtTreeSet
import ViewSync.Message
import ViewSync.Quorum
import ViewSync.Table

/-!
Quorum certificates. A certificate gathers attestations for one candidate view and keeps the
highest attested view of each sender. It is valid when more than half of the roster supports its
view. A list of attestations that arrives in a message is checked by a rule of its own, which
builds no certificate.
-/

namespace ViewSync

structure Certificate where
  view : Int
  /-- The highest attested view of each sender. -/
  attested : Table Int
deriving DecidableEq

namespace Certificate

def blank (view : Int) : Certificate :=
  ⟨view, ∅⟩

def isEmpty (certificate : Certificate) : Bool :=
  certificate.attested.isEmpty

/-- Whether an attestation says more than what is known of its sender. -/
def learnsFrom (certificate : Certificate) (attestation : Attestation) : Bool :=
  match certificate.attested[attestation.sender]? with
  | none => true
  | some known => known < attestation.view

/-- Takes an attestation in, unless it says nothing new. -/
def add (certificate : Certificate) (attestation : Attestation) : Certificate :=
  if certificate.learnsFrom attestation then
    { certificate with
      attested := certificate.attested.insert attestation.sender attestation.view }
  else
    certificate

def ofList (view : Int) (attestations : List Attestation) : Certificate :=
  attestations.foldl add (blank view)

/-- The number of senders on a roster of `replicas` that attest the candidate view or a later
one. -/
def support (certificate : Certificate) (replicas : Int) : Nat :=
  certificate.attested.toList.countP fun entry =>
    0 ≤ entry.1 && entry.1 < replicas && certificate.view ≤ entry.2

def isValid (certificate : Certificate) (replicas : Int) : Bool :=
  0 < replicas && quorumSize replicas ≤ certificate.support replicas

/-- One attestation for each sender, in increasing order of sender. -/
def attestations (certificate : Certificate) : List Attestation :=
  certificate.attested.toList.map fun entry => ⟨entry.1, entry.2⟩

end Certificate

namespace Attestation

def countsFor (attestation : Attestation) (view replicas : Int) : Bool :=
  0 ≤ attestation.sender && attestation.sender < replicas && view ≤ attestation.view

def senders (view replicas : Int) (attestations : List Attestation) : Std.ExtTreeSet Int :=
  .ofList ((attestations.filter (·.countsFor view replicas)).map (·.sender))

theorem mem_senders {view replicas sender : Int} {attestations : List Attestation} :
    sender ∈ senders view replicas attestations ↔
      ∃ attestation ∈ attestations,
        attestation.countsFor view replicas ∧ attestation.sender = sender := by
  simp [senders, Std.ExtTreeSet.mem_ofList, and_assoc]

def quorumFor (view : Int) (attestations : List Attestation) (replicas : Int) : Bool :=
  0 ≤ view && 0 < replicas &&
    quorumSize replicas ≤ (senders view replicas attestations).size

end Attestation

end ViewSync
