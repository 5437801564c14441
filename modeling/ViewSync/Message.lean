import ViewSync.Text.Decimal

/-!
The messages that replicas exchange.
-/

namespace ViewSync

/-- The statement of one replica that it believes in `view` or a later one. -/
structure Attestation where
  sender : Int
  view : Int
deriving DecidableEq, Repr

inductive Message
  /-- The sender wants to move to `view`. -/
  | viewChange (view : Int)
  /-- The sender leads `view`, which is installed on the strength of the attestations. -/
  | viewProof (view : Int) (attestations : List Attestation)
deriving DecidableEq, Repr

structure Envelope where
  sender : Int
  message : Message
deriving DecidableEq, Repr

/-- A short name for a message: its kind, its view, and for a proof its number of attestations. -/
def Message.summary : Message → Bytes
  | .viewChange view => Bytes.ofString "VC/" ++ Decimal.write view
  | .viewProof view attestations =>
      Bytes.ofString "VCProof/" ++ Decimal.write view ++ Bytes.ofString "/" ++
        Decimal.write attestations.length

end ViewSync
