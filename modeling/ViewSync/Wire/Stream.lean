import ViewSync.Wire.Frame

/-!
A stream of frames that arrives in pieces.
-/

namespace ViewSync

/-- The bytes that have arrived and are not yet read. -/
structure Stream where
  pending : Bytes := []
deriving DecidableEq, Repr

namespace Stream

inductive Next
  | envelope (envelope : Envelope)
  | incomplete
  | malformed
deriving DecidableEq, Repr

def size (stream : Stream) : Nat :=
  stream.pending.length

def append (stream : Stream) (bytes : Bytes) : Stream :=
  ⟨stream.pending ++ bytes⟩

def awaitsMore (stream : Stream) : Bool :=
  match Frame.announced? stream.pending with
  | none => true
  | some (length, rest) => length ≤ Frame.maxBody && (rest.take length).length < length

/-- Takes the frame at the front. A malformed one costs the whole stream. -/
def next (stream : Stream) : Next × Stream :=
  if stream.awaitsMore then
    (.incomplete, stream)
  else
    match Frame.decode? stream.pending with
    | some decoded => (.envelope decoded.envelope, ⟨stream.pending.drop decoded.size⟩)
    | none => (.malformed, {})

/-- Takes up to `limit` frames from the front, and stops at the first that is not whole. -/
def takeUpTo : Nat → Stream → List Envelope × Stream
  | 0, stream => ([], stream)
  | limit + 1, stream =>
      match stream.next with
      | (.envelope envelope, rest) =>
          let (envelopes, last) := takeUpTo limit rest
          (envelope :: envelopes, last)
      | (_, rest) => ([], rest)

/-- Takes frames for as long as they are whole. Every frame takes up bytes, so there are no more
of them than bytes. -/
def takeAll (stream : Stream) : List Envelope × Stream :=
  takeUpTo (stream.size + 1) stream

end Stream

end ViewSync
