import ViewSync.Message
import ViewSync.Wire.Word

/-!
Frames: the form of an envelope on the network. A frame is a word with the length of the body in
bytes, followed by the body, which consists of words:

    sender, 2, view                                          for a view change
    sender, 3, view, count, then a sender and a view for     for a view proof
                            each of `count` attestations

Senders and views must not be negative. A body of more than `maxBody` bytes is refused by the
reader. Writing takes no notice of that limit, so a proof with very many attestations is written
as a frame that cannot be read.
-/

namespace ViewSync.Frame

def maxBody : Nat := 65536

def maxWord : Nat := 2147483647

def lengthSize : Nat := 4

inductive Field
  | sender (value : Int)
  | view (value : Int)
  /-- A tag or a count. -/
  | plain (value : Nat)
deriving DecidableEq, Repr

namespace Field

def isNegative : Field → Bool
  | .sender value => value < 0
  | .view value => value < 0
  | .plain _ => false

def toBytes : Field → Bytes
  | .sender value => Word.toBytes value.toNat
  | .view value => Word.toBytes value.toNat
  | .plain value => Word.toBytes value

def refusal : Field → Bytes
  | .sender value => Bytes.ofString "cannot encode negative sender " ++ Decimal.write value
  | .view value => Bytes.ofString "cannot encode negative view " ++ Decimal.write value
  | .plain value => Bytes.ofString "cannot encode word " ++ Decimal.write value

end Field

def viewChangeTag : Nat := 2

def viewProofTag : Nat := 3

def fields (envelope : Envelope) : List Field :=
  match envelope.message with
  | .viewChange view => [.sender envelope.sender, .plain viewChangeTag, .view view]
  | .viewProof view attestations =>
      .sender envelope.sender :: .plain viewProofTag :: .view view ::
        .plain attestations.length ::
          attestations.flatMap fun attestation =>
            [.sender attestation.sender, .view attestation.view]

def enclose (body : Bytes) : Bytes :=
  Word.toBytes body.length ++ body

/-- The frame of an envelope, or the first field that is negative. -/
def encode (envelope : Envelope) : Except Field Bytes :=
  match (fields envelope).find? Field.isNegative with
  | some field => .error field
  | none => .ok (enclose ((fields envelope).flatMap Field.toBytes))

/-- Words taken two by two. -/
def attestations? : List Nat → Option (List Attestation)
  | [] => some []
  | sender :: view :: rest => (attestations? rest).map (⟨sender, view⟩ :: ·)
  | _ => none

def ofWords? : List Nat → Option Envelope
  | [sender, 2, view] => some ⟨sender, .viewChange view⟩
  | sender :: 3 :: view :: count :: rest => do
      let attestations ← attestations? rest
      if attestations.length = count then some ⟨sender, .viewProof view attestations⟩ else none
  | _ => none

/-- Reads a body. No word of it may have its highest bit set. -/
def ofBody? (body : Bytes) : Option Envelope := do
  let words ← Word.split? body
  if words.all (· ≤ maxWord) then ofWords? words else none

/-- The length that a frame announces for its body, when enough bytes are there to tell. -/
def announced? : Bytes → Option (Nat × Bytes)
  | first :: second :: third :: fourth :: rest =>
      some (Word.ofBytes first second third fourth, rest)
  | _ => none

structure Decoded where
  envelope : Envelope
  size : Nat
deriving DecidableEq, Repr

/-- Reads the frame at the front of a sequence of bytes. What comes after it is not looked at. -/
def decode? (bytes : Bytes) : Option Decoded := do
  let (length, rest) ← announced? bytes
  let body := rest.take length
  if maxBody < length || body.length < length then
    none
  else
    let envelope ← ofBody? body
    some ⟨envelope, lengthSize + length⟩

end ViewSync.Frame
