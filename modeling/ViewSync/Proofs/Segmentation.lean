import ViewSync.Wire.Stream
import ViewSync.Proofs.CanonicalFrames

/-!
Streams that are cut.

A network delivers a stream of bytes in pieces of its own choosing. The receiver takes what frames
there are after each piece. Whether it has to wait for more is settled by the length announced in
front, and once there are enough bytes to settle it, further ones change nothing. So the cuts do
not show in what the receiver gets, up to the first malformed frame, and with that the rest of the
piece in which it came to light is lost.
-/

namespace ViewSync.Stream

open ViewSync.Frame

variable {stream : Stream} {envelope : Envelope} {frame rest : Bytes}

/-! ### The front of a stream -/

theorem awaitsMore_eq_false_iff :
    stream.awaitsMore = false ↔
      ∃ length rest, announced? stream.pending = some (length, rest) ∧
        (maxBody < length ∨ length ≤ rest.length) := by
  unfold awaitsMore
  constructor
  · intro settled
    split at settled
    · cases settled
    · next length rest announced =>
        refine ⟨length, rest, announced, ?_⟩
        simp only [Bool.and_eq_false_iff, decide_eq_false_iff_not, List.length_take] at settled
        omega
  · rintro ⟨length, rest, announced, enough⟩
    rw [announced]
    simp only [Bool.and_eq_false_iff, decide_eq_false_iff_not, List.length_take]
    omega

theorem announced?_append {bytes : Bytes} {length : Nat}
    (announced : announced? bytes = some (length, rest)) (more : Bytes) :
    announced? (bytes ++ more) = some (length, rest ++ more) := by
  obtain ⟨small, rfl⟩ := announced?_eq_some_iff.1 announced
  exact announced?_eq_some_iff.2 ⟨small, List.append_assoc _ _ _⟩

theorem awaitsMore_append (settled : stream.awaitsMore = false) (more : Bytes) :
    (stream.append more).awaitsMore = false := by
  obtain ⟨length, rest, announced, enough⟩ := awaitsMore_eq_false_iff.1 settled
  refine awaitsMore_eq_false_iff.2 ⟨length, rest ++ more, announced?_append announced more, ?_⟩
  rw [List.length_append]
  omega

/-- A stream that need not wait is long enough for the frame at its front to be read. -/
theorem decode?_append (settled : stream.awaitsMore = false) (more : Bytes) :
    decode? (stream.append more).pending = decode? stream.pending := by
  obtain ⟨length, rest, announced, enough⟩ := awaitsMore_eq_false_iff.1 settled
  unfold decode?
  rw [announced, append, announced?_append announced more]
  change (if (_ || _) = true then none else _) = (if (_ || _) = true then none else _)
  rcases enough with long | enough
  · simp only [decide_eq_true long, Bool.true_or, if_true]
  · rw [List.take_append_of_le_length enough]

theorem awaitsMore_of_canonical (canonical : Canonical envelope frame) (rest : Bytes) :
    awaitsMore ⟨frame ++ rest⟩ = false := by
  obtain ⟨body, rfl, short, -⟩ := canonical_iff.1 canonical
  have small : body.length < Word.count := Nat.lt_of_le_of_lt short (by decide)
  refine awaitsMore_eq_false_iff.2 ⟨_, _, announced?_enclose small rest, .inr ?_⟩
  rw [List.length_append]
  exact Nat.le_add_right _ _

theorem next_frame (canonical : Canonical envelope frame) (rest : Bytes) :
    next ⟨frame ++ rest⟩ = (.envelope envelope, ⟨rest⟩) := by
  rw [next, awaitsMore_of_canonical canonical, canonical.decode?_append rest]
  change (Next.envelope envelope, Stream.mk ((frame ++ rest).drop frame.length)) = _
  rw [List.drop_left]

theorem next_waiting (waiting : stream.awaitsMore = true) : stream.next = (.incomplete, stream) :=
  if_pos waiting

/-- Nothing that is still to come makes a frame of the front of this stream. -/
def Broken (stream : Stream) : Prop :=
  stream.awaitsMore = false ∧ decode? stream.pending = none

theorem Broken.next (broken : stream.Broken) : stream.next = (.malformed, {}) := by
  rw [Stream.next, broken.1, broken.2]
  rfl

theorem Broken.append (broken : stream.Broken) (more : Bytes) : (stream.append more).Broken :=
  ⟨awaitsMore_append broken.1 more, (decode?_append broken.1 more).trans broken.2⟩

theorem size_lt_of_canonical (canonical : Canonical envelope frame) (rest : Bytes) :
    size ⟨rest⟩ < size ⟨frame ++ rest⟩ := by
  change rest.length < (frame ++ rest).length
  rw [List.length_append, length_of_encode canonical.written, lengthSize]
  omega

/-- A stream is taken apart from the front: it starts with a canonical frame, or it has to wait for
the rest of a frame, or it is broken. -/
theorem apart {holds : Stream → Prop} (waiting : ∀ stream, awaitsMore stream = true → holds stream)
    (broken : ∀ stream, Broken stream → holds stream)
    (framed : ∀ envelope frame rest, Canonical envelope frame → holds ⟨rest⟩ →
      holds ⟨frame ++ rest⟩) (stream : Stream) : holds stream := by
  cases awaits : stream.awaitsMore with
  | true => exact waiting stream awaits
  | false =>
      cases read : decode? stream.pending with
      | none => exact broken stream ⟨awaits, read⟩
      | some decoded =>
          obtain ⟨frame, rest, cut, canonical, -⟩ := decode?_eq_some_iff.1 read
          have whole : stream = ⟨frame ++ rest⟩ := congrArg Stream.mk cut
          have shorter := size_lt_of_canonical canonical rest
          rw [← whole] at shorter
          rw [whole]
          exact framed _ frame rest canonical (apart waiting broken framed ⟨rest⟩)
termination_by stream.size

theorem next_shrinks {last : Stream} (taken : stream.next = (.envelope envelope, last)) :
    last.size < stream.size := by
  cases stream using apart with
  | waiting stream awaits => cases (next_waiting awaits).symm.trans taken
  | broken stream broken => cases broken.next.symm.trans taken
  | framed found frame rest canonical =>
      cases (next_frame canonical rest).symm.trans taken
      exact size_lt_of_canonical canonical rest

/-! ### Asking until there is no frame -/

def answers (stream : Stream) : List Next × Stream :=
  match _taken : stream.next with
  | (.envelope envelope, rest) => (.envelope envelope :: (answers rest).1, (answers rest).2)
  | (.incomplete, rest) => ([.incomplete], rest)
  | (.malformed, rest) => ([.malformed], rest)
termination_by stream.size
decreasing_by all_goals exact next_shrinks _taken

theorem answers_eq (stream : Stream) :
    stream.answers =
      match stream.next with
      | (.envelope envelope, rest) => (.envelope envelope :: rest.answers.1, rest.answers.2)
      | (answer, rest) => ([answer], rest) := by
  rw [answers]
  split
  · next taken => rw [taken]
  · next taken => rw [taken]
  · next taken => rw [taken]

theorem answers_waiting (waiting : stream.awaitsMore = true) :
    stream.answers = ([.incomplete], stream) := by
  rw [answers_eq, next_waiting waiting]

theorem answers_broken (broken : stream.Broken) : stream.answers = ([.malformed], {}) := by
  rw [answers_eq, broken.next]

theorem answers_frame (canonical : Canonical envelope frame) (rest : Bytes) :
    answers ⟨frame ++ rest⟩ = (.envelope envelope :: (answers ⟨rest⟩).1, (answers ⟨rest⟩).2) := by
  rw [answers_eq, next_frame canonical]

def Next.envelope? : Next → Option Envelope
  | .envelope envelope => some envelope
  | .incomplete => none
  | .malformed => none

theorem takeUpTo_eq {limit : Nat} (enough : stream.size < limit) :
    stream.takeUpTo limit = (stream.answers.1.filterMap Next.envelope?, stream.answers.2) := by
  induction limit generalizing stream with
  | zero => exact absurd enough (Nat.not_lt_zero _)
  | succ limit ih =>
      cases stream using apart with
      | waiting stream awaits =>
          rw [takeUpTo, next_waiting awaits, answers_waiting awaits]
          rfl
      | broken stream broken =>
          rw [takeUpTo, broken.next, answers_broken broken]
          rfl
      | framed envelope frame rest canonical =>
          have shorter := size_lt_of_canonical canonical rest
          rw [takeUpTo, next_frame canonical, answers_frame canonical]
          change (envelope :: (takeUpTo limit ⟨rest⟩).1, (takeUpTo limit ⟨rest⟩).2) = _
          rw [ih (by omega)]
          rfl

theorem takeAll_eq (stream : Stream) :
    stream.takeAll = (stream.answers.1.filterMap Next.envelope?, stream.answers.2) :=
  takeUpTo_eq (Nat.lt_succ_self _)

/-- What more bytes change: nothing once a frame was malformed, and otherwise it is the stream that
is left to which they come. -/
theorem answers_append (stream : Stream) :
    ∃ envelopes : List Envelope,
      (stream.answers.1 = envelopes.map .envelope ++ [.malformed] ∧
        ∀ more, (stream.append more).answers = stream.answers) ∨
      (stream.answers.1 = envelopes.map .envelope ++ [.incomplete] ∧
        stream.answers.2.awaitsMore = true ∧
          ∀ more, (stream.append more).answers =
            (envelopes.map .envelope ++ (stream.answers.2.append more).answers.1,
              (stream.answers.2.append more).answers.2)) := by
  induction stream using apart with
  | waiting stream awaits =>
      rw [answers_waiting awaits]
      exact ⟨[], .inr ⟨rfl, awaits, fun _ => rfl⟩⟩
  | broken stream broken =>
      rw [answers_broken broken]
      exact ⟨[], .inl ⟨rfl, fun more => answers_broken (broken.append more)⟩⟩
  | framed envelope frame rest canonical ih =>
      obtain ⟨envelopes, halves⟩ := ih
      have longer : ∀ more, (append ⟨frame ++ rest⟩ more).answers =
          (.envelope envelope :: (append ⟨rest⟩ more).answers.1,
            (append ⟨rest⟩ more).answers.2) := by
        intro more
        rw [append, List.append_assoc]
        exact answers_frame canonical (rest ++ more)
      rw [answers_frame canonical]
      refine ⟨envelope :: envelopes, ?_⟩
      rcases halves with ⟨listed, same⟩ | ⟨listed, awaits, same⟩
      · refine .inl ⟨congrArg (Next.envelope envelope :: ·) listed, ?_⟩
        intro more
        rw [longer, same]
      · refine .inr ⟨congrArg (Next.envelope envelope :: ·) listed, awaits, ?_⟩
        intro more
        rw [longer, same]
        rfl

/-! ### Pieces -/

def feed : Stream → List Bytes → List Next × Stream
  | stream, [] => ([], stream)
  | stream, piece :: pieces =>
      let (first, rest) := (stream.append piece).answers
      let (later, last) := feed rest pieces
      (first ++ later, last)

theorem feed_cons (stream : Stream) (piece : Bytes) (pieces : List Bytes) :
    stream.feed (piece :: pieces) =
      ((stream.append piece).answers.1 ++ ((stream.append piece).answers.2.feed pieces).1,
        ((stream.append piece).answers.2.feed pieces).2) :=
  rfl

def delivered : List Next → List Envelope
  | .envelope envelope :: later => envelope :: delivered later
  | .incomplete :: later => delivered later
  | .malformed :: _ => []
  | [] => []

theorem delivered_envelopes (envelopes : List Envelope) (later : List Next) :
    delivered (envelopes.map .envelope ++ later) = envelopes ++ delivered later := by
  induction envelopes with
  | nil => rfl
  | cons envelope rest ih => exact congrArg (envelope :: ·) ih

theorem delivered_eq (answers : List Next) (sound : .malformed ∉ answers) :
    delivered answers = answers.filterMap Next.envelope? := by
  induction answers with
  | nil => rfl
  | cons answer later ih =>
      obtain ⟨here, after⟩ := not_or.1 fun listed => sound (List.mem_cons.2 listed)
      cases answer with
      | envelope envelope => exact congrArg (envelope :: ·) (ih after)
      | incomplete => exact ih after
      | malformed => exact absurd rfl here

theorem malformed_mem_envelopes_iff {envelopes : List Envelope} {later : List Next} :
    .malformed ∈ envelopes.map Next.envelope ++ later ↔ .malformed ∈ later := by
  simp

/-- There is no difference before the first malformed frame, and one of them has a malformed frame
when the other one has. -/
structure Alike (left right : List Next × Stream) : Prop where
  delivered : delivered left.1 = delivered right.1
  malformed : .malformed ∈ left.1 ↔ .malformed ∈ right.1
  rest : .malformed ∉ left.1 → left.2 = right.2

theorem append_append (stream : Stream) (first second : Bytes) :
    (stream.append first).append second = stream.append (first ++ second) :=
  congrArg Stream.mk (List.append_assoc _ _ _)

/-- Pieces are as good as the whole, for a stream from which all frames have been taken. -/
theorem feed_alike (waiting : stream.awaitsMore = true) (pieces : List Bytes) :
    Alike (stream.feed pieces) (stream.append pieces.flatten).answers := by
  induction pieces generalizing stream with
  | nil =>
      have whole : stream.append [].flatten = stream := congrArg Stream.mk (List.append_nil _)
      rw [whole, answers_waiting waiting, feed]
      exact ⟨rfl, by simp, fun _ => rfl⟩
  | cons piece pieces ih =>
      rw [List.flatten_cons, ← append_append, feed_cons]
      obtain ⟨envelopes, ⟨listed, same⟩ | ⟨listed, awaits, same⟩⟩ :=
        answers_append (stream.append piece)
      · rw [same]
        constructor
        · rw [listed, List.append_assoc, delivered_envelopes, delivered_envelopes]
          rfl
        · simp [listed]
        · simp [listed]
      · obtain ⟨delivered, malformed, rest⟩ := ih awaits
        rw [same]
        constructor
        · rw [listed, List.append_assoc, delivered_envelopes, delivered_envelopes, ← delivered]
          rfl
        · rw [listed, List.append_assoc, malformed_mem_envelopes_iff, malformed_mem_envelopes_iff,
            ← malformed]
          simp
        · rw [listed, List.append_assoc, malformed_mem_envelopes_iff]
          intro sound
          exact rest fun member => sound (List.mem_cons_of_mem _ member)

/-! ### Streams of frames -/

theorem awaitsMore_of_prefix {tail : Bytes} (canonical : Canonical envelope frame)
    (begins : tail <+: frame) (short : tail ≠ frame) : awaitsMore ⟨tail⟩ = true := by
  obtain ⟨more, whole⟩ := begins
  cases awaits : awaitsMore ⟨tail⟩ with
  | true => rfl
  | false =>
      have same := decode?_append awaits more
      have cut : tail.length < frame.length := by
        rw [← whole, List.length_append]
        refine Nat.lt_add_of_pos_right (List.length_pos_iff.2 ?_)
        rintro rfl
        exact short ((List.append_nil _).symm.trans whole)
      have read := canonical.decode?_append []
      rw [List.append_nil] at read
      rw [append, whole, read, canonical.spells.decode?_of_prefix ⟨more, whole⟩ cut] at same
      cases same

theorem answers_frames {sent : List (Envelope × Bytes)} {tail : Bytes}
    (canonical : ∀ pair ∈ sent, Canonical pair.1 pair.2) (waiting : awaitsMore ⟨tail⟩ = true) :
    answers ⟨sent.flatMap Prod.snd ++ tail⟩ =
      ((sent.map Prod.fst).map .envelope ++ [.incomplete], ⟨tail⟩) := by
  induction sent with
  | nil => exact answers_waiting waiting
  | cons pair rest ih =>
      obtain ⟨first, later⟩ := List.forall_mem_cons.1 canonical
      rw [List.flatMap_cons, List.append_assoc, answers_frame first, ih later]
      rfl

/-- However a stream is cut, the same envelopes come out of it before the first malformed frame, if
there is one. A stream of canonical frames and the beginning of one more gives all of its envelopes
and leaves that beginning. A malformed frame leaves nothing. -/
theorem cuts_do_not_show (pieces : List Bytes) :
    (delivered (feed {} pieces).1 = delivered (feed {} [pieces.flatten]).1 ∧
      (.malformed ∈ (feed {} pieces).1 ↔ .malformed ∈ (feed {} [pieces.flatten]).1)) ∧
    (∀ (sent : List (Envelope × Bytes)) (envelope : Envelope) (frame tail : Bytes),
      (∀ pair ∈ sent, Canonical pair.1 pair.2) →
      Canonical envelope frame → tail <+: frame → tail ≠ frame →
      pieces.flatten = sent.flatMap Prod.snd ++ tail →
        (feed {} pieces).1.filterMap Next.envelope? = sent.map Prod.fst ∧
          .malformed ∉ (feed {} pieces).1 ∧ (feed {} pieces).2.size = tail.length) ∧
    ∀ stream : Stream, stream.next.1 = .malformed → stream.next.2.size = 0 := by
  have empty : awaitsMore {} = true := rfl
  have cut := feed_alike empty pieces
  refine ⟨?_, ?_, ?_⟩
  · have whole := feed_alike empty [pieces.flatten]
    rw [List.flatten_singleton] at whole
    exact ⟨cut.delivered.trans whole.delivered.symm, cut.malformed.trans whole.malformed.symm⟩
  · intro sent envelope frame tail canonical last begins short joined
    have waiting := awaitsMore_of_prefix last begins short
    have whole : (append {} pieces.flatten).answers =
        ((sent.map Prod.fst).map .envelope ++ [.incomplete], ⟨tail⟩) := by
      rw [joined]
      exact answers_frames canonical waiting
    rw [whole] at cut
    have sound : .malformed ∉ (feed {} pieces).1 := by
      rw [cut.malformed, malformed_mem_envelopes_iff]
      simp
    refine ⟨?_, sound, congrArg size (cut.rest sound)⟩
    rw [← delivered_eq _ sound, cut.delivered, delivered_envelopes]
    exact List.append_nil _
  · intro stream refused
    cases stream using apart with
    | waiting stream awaits =>
        rw [next_waiting awaits] at refused
        cases refused
    | broken stream broken =>
        rw [broken.next]
        rfl
    | framed envelope frame rest canonical =>
        rw [next_frame canonical] at refused
        cases refused

end ViewSync.Stream
