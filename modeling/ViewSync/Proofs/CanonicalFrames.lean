import ViewSync.Proofs.Spelling

/-!
Canonical frames.

An envelope with senders and views of 31 bits has one frame, and it is canonical when its body is
within the limit of the reader. What the reader accepts at the front of a sequence of bytes is a
canonical frame, and it accepts every one of them, whatever follows. A frame that is too long for
the reader is refused and never taken for another one, although its length may be too great to be
announced.
-/

namespace ViewSync.Frame

/-! ### Announced lengths -/

theorem announced?_eq_some_iff {bytes rest : Bytes} {length : Nat} :
    announced? bytes = some (length, rest) ↔
      length < Word.count ∧ bytes = Word.toBytes length ++ rest := by
  constructor
  · intro announced
    unfold announced? at announced
    split at announced
    · cases announced
      refine ⟨Word.ofBytes_lt _ _ _ _, ?_⟩
      rw [Word.toBytes_ofBytes]
      rfl
    · cases announced
  · rintro ⟨small, rfl⟩
    have word := Word.ofBytes_toBytes small
    simp only [Word.toBytes, List.cons_append, List.nil_append, announced?, word]

theorem announced?_enclose {body : Bytes} (small : body.length < Word.count) (rest : Bytes) :
    announced? (enclose body ++ rest) = some (body.length, body ++ rest) :=
  announced?_eq_some_iff.2 ⟨small, List.append_assoc _ _ _⟩

theorem announced?_eq_none_iff {bytes : Bytes} :
    announced? bytes = none ↔ bytes.length < lengthSize := by
  unfold lengthSize
  constructor
  · intro silent
    match bytes, silent with
    | [], _ => simp
    | [_], _ => simp
    | [_, _], _ => simp
    | [_, _, _], _ => simp
  · intro short
    cases announced : announced? bytes with
    | none => rfl
    | some found =>
        obtain ⟨-, rfl⟩ := announced?_eq_some_iff.1 announced
        rw [List.length_append, Word.length_toBytes] at short
        omega

theorem length_enclose (body : Bytes) : (enclose body).length = lengthSize + body.length := by
  rw [enclose, List.length_append, Word.length_toBytes, lengthSize]

/-! ### Canonical frames -/

/-- An envelope of 31-bit integers and its frame, which is within the limit of the reader. -/
structure Canonical (envelope : Envelope) (frame : Bytes) : Prop where
  inRange : InRange envelope
  written : encode envelope = .ok frame
  short : frame.length - lengthSize ≤ maxBody

variable {envelope : Envelope} {frame bytes : Bytes}

theorem length_of_encode (written : encode envelope = .ok frame) :
    frame.length = lengthSize +
      match envelope.message with
      | .viewChange _ => 12
      | .viewProof _ attestations => 16 + 8 * attestations.length := by
  obtain ⟨-, rfl⟩ := encode_eq_ok_iff.1 written
  rw [length_enclose, Word.length_spell, length_words]
  cases envelope.message with
  | viewChange view => rfl
  | viewProof view attestations =>
      change lengthSize + 4 * (4 + 2 * attestations.length) =
        lengthSize + (16 + 8 * attestations.length)
      omega

theorem short_iff (written : encode envelope = .ok frame) :
    frame.length - lengthSize ≤ maxBody ↔ envelope.message.attestations.length ≤ 8190 := by
  rw [length_of_encode written, Nat.add_sub_cancel_left]
  cases envelope.message with
  | viewChange view => simp [maxBody, Message.attestations]
  | viewProof view attestations =>
      change 16 + 8 * attestations.length ≤ 65536 ↔ attestations.length ≤ 8190
      omega

theorem canonical_iff :
    Canonical envelope frame ↔
      ∃ body, frame = enclose body ∧ body.length ≤ maxBody ∧ ofBody? body = some envelope := by
  constructor
  · rintro ⟨inRange, written, short⟩
    obtain ⟨nonneg, rfl⟩ := encode_eq_ok_iff.1 written
    have few := (short_iff written).1 short
    rw [length_enclose, Nat.add_sub_cancel_left] at short
    exact ⟨_, rfl, short,
      ofBody?_eq_some_iff.2 ⟨inRange, Nat.le_trans few (by decide), rfl⟩⟩
  · rintro ⟨body, rfl, short, read⟩
    obtain ⟨inRange, -, rfl⟩ := ofBody?_eq_some_iff.1 read
    refine ⟨inRange, encode_eq_ok_iff.2 ⟨fun field listed => (inRange field listed).1, rfl⟩, ?_⟩
    rw [length_enclose, Nat.add_sub_cancel_left]
    exact short

/-- What is decoded is a canonical frame at the front. -/
theorem decode?_eq_some_iff {decoded : Decoded} :
    decode? bytes = some decoded ↔
      ∃ frame rest, bytes = frame ++ rest ∧ Canonical decoded.envelope frame ∧
        decoded.size = frame.length := by
  constructor
  · intro read
    obtain ⟨⟨length, rest⟩, announced, taken⟩ := Option.bind_eq_some_iff.1 read
    obtain ⟨-, rfl⟩ := announced?_eq_some_iff.1 announced
    simp only [Bool.or_eq_true, decide_eq_true_eq] at taken
    split at taken
    · cases taken
    · next whole =>
        obtain ⟨short, complete⟩ := not_or.1 whole
        obtain ⟨envelope, readBody, same⟩ := Option.bind_eq_some_iff.1 taken
        cases same
        have bodyLength : (rest.take length).length = length := by
          rw [List.length_take] at complete ⊢
          omega
        refine ⟨enclose (rest.take length), rest.drop length, ?_, canonical_iff.2
          ⟨_, rfl, by omega, readBody⟩, ?_⟩
        · rw [enclose, bodyLength, List.append_assoc, List.take_append_drop]
        · rw [length_enclose, bodyLength]
  · rintro ⟨frame, rest, rfl, canonical, size⟩
    obtain ⟨body, rfl, short, readBody⟩ := canonical_iff.1 canonical
    have small : body.length < Word.count := Nat.lt_of_le_of_lt short (by decide)
    have whole : ¬ (maxBody < body.length || body.length < body.length) = true := by
      simp only [Bool.or_eq_true, decide_eq_true_eq]
      omega
    rw [decode?, announced?_enclose small]
    change (if (_ || (List.take body.length (body ++ rest)).length < _) = true then _ else _) = _
    rw [List.take_left, if_neg whole, readBody]
    rw [length_enclose] at size
    change some (Decoded.mk decoded.envelope (lengthSize + body.length)) = some decoded
    rw [← size]

theorem Canonical.decode?_append (canonical : Canonical envelope frame) (rest : Bytes) :
    decode? (frame ++ rest) = some ⟨envelope, frame.length⟩ :=
  decode?_eq_some_iff.2 ⟨frame, rest, rfl, canonical, rfl⟩

/-! ### Frames of any length -/

/-- An envelope of 31-bit integers and its frame, however long, provided that the number of its
attestations has a word. -/
structure Spells (envelope : Envelope) (frame : Bytes) : Prop where
  inRange : InRange envelope
  countable : envelope.message.attestations.length < Word.count
  written : encode envelope = .ok frame

theorem Canonical.spells (canonical : Canonical envelope frame) : Spells envelope frame where
  inRange := canonical.inRange
  countable := Nat.lt_of_le_of_lt ((short_iff canonical.written).1 canonical.short) (by decide)
  written := canonical.written

namespace Spells

variable {other : Envelope} {longer : Bytes}

theorem words_lt (spells : Spells envelope frame) : ∀ word ∈ words envelope, word < Word.count := by
  have tags : viewProofTag ≤ Word.count - 1 := by decide
  have below : ∀ word ∈ words envelope, word ≤ Word.count - 1 := by
    refine (forall_words_le_iff tags).2 ⟨?_, Nat.le_sub_one_of_lt spells.countable⟩
    intro field listed
    exact Nat.le_trans (spells.inRange field listed).toNat_le (by decide)
  intro word listed
  exact Nat.lt_of_le_sub_one (by decide) (below word listed)

/-- No frame is the beginning of another one. -/
theorem eq_of_prefix (spells : Spells envelope frame) (spellsLonger : Spells other longer)
    (begins : frame <+: longer) : frame = longer ∧ envelope = other := by
  obtain ⟨nonneg, rfl⟩ := encode_eq_ok_iff.1 spells.written
  obtain ⟨otherNonneg, rfl⟩ := encode_eq_ok_iff.1 spellsLonger.written
  have bodies : Word.spell (words envelope) <+: Word.spell (words other) := by
    obtain ⟨tail, joined⟩ := begins
    rw [enclose, enclose, List.append_assoc] at joined
    exact ⟨tail, (List.append_inj joined rfl).2⟩
  have sameWords : words envelope = words other :=
    words_eq_of_prefix (Word.prefix_of_spell_prefix spells.words_lt spellsLonger.words_lt bodies)
  constructor
  · rw [sameWords]
  · apply Option.some.inj
    rw [← ofWords?_words nonneg, sameWords, ofWords?_words otherNonneg]

/-- Whatever is read from the beginning of a frame is the whole frame. -/
theorem eq_of_decode? (spells : Spells envelope frame) (begins : bytes <+: frame)
    {decoded : Decoded} (read : decode? bytes = some decoded) :
    bytes = frame ∧ decoded = ⟨envelope, frame.length⟩ ∧ Canonical envelope frame := by
  obtain ⟨found, rest, rfl, canonical, size⟩ := decode?_eq_some_iff.1 read
  obtain ⟨rfl, same⟩ := canonical.spells.eq_of_prefix spells ((List.prefix_append _ _).trans begins)
  have nothingLeft : rest = [] := by
    have longest := begins.length_le
    rw [List.length_append] at longest
    exact List.eq_nil_of_length_eq_zero (by omega)
  obtain ⟨decodedEnvelope, decodedSize⟩ := decoded
  subst same size
  exact ⟨by rw [nothingLeft, List.append_nil], rfl, canonical⟩

theorem decode?_of_prefix (spells : Spells envelope frame) (begins : bytes <+: frame)
    (short : bytes.length < frame.length) : decode? bytes = none := by
  cases read : decode? bytes with
  | none => rfl
  | some decoded =>
      obtain ⟨rfl, -⟩ := spells.eq_of_decode? begins read
      exact absurd short (Nat.lt_irrefl _)

theorem decode?_eq (spells : Spells envelope frame) :
    decode? frame =
      if envelope.message.attestations.length ≤ 8190 then some ⟨envelope, frame.length⟩
      else none := by
  split
  · next few =>
      have canonical : Canonical envelope frame :=
        ⟨spells.inRange, spells.written, (short_iff spells.written).2 few⟩
      have read := canonical.decode?_append []
      rwa [List.append_nil] at read
  · next many =>
      cases read : decode? frame with
      | none => rfl
      | some decoded =>
          obtain ⟨-, -, canonical⟩ := spells.eq_of_decode? (List.prefix_refl frame) read
          exact absurd ((short_iff spells.written).1 canonical.short) many

end Spells

/-! ### Decoding what was encoded -/

/-- A negative number is refused, the first one in the order of writing, by its name. Anything else
is written, and read as what it was when there are at most 8190 attestations, and not at all when
there are more. -/
theorem decoding_undoes_encoding (envelope : Envelope)
    (ints : ∀ field ∈ signed envelope, field.value ≤ maxWord)
    (few : envelope.message.attestations.length < 4294967296) :
    ((∃ field, encode envelope = .error field) ↔ ∃ field ∈ signed envelope, field.value < 0) ∧
      (∀ field, encode envelope = .error field ↔
        ∃ earlier later, signed envelope = earlier ++ field :: later ∧
          (∀ other ∈ earlier, 0 ≤ other.value) ∧ field.value < 0) ∧
      (∀ field, encode envelope = .error field →
        (∃ sender, field = .sender sender ∧ field.refusal =
          Bytes.ofString "cannot encode negative sender " ++ Decimal.write sender) ∨
        (∃ view, field = .view view ∧ field.refusal =
          Bytes.ofString "cannot encode negative view " ++ Decimal.write view)) ∧
      ((∀ field ∈ signed envelope, 0 ≤ field.value) →
        ∃ frame, encode envelope = .ok frame ∧
          decode? frame =
            if envelope.message.attestations.length ≤ 8190 then some ⟨envelope, frame.length⟩
            else none) := by
  refine ⟨encode_fails_iff, fun field => encode_eq_error_iff, ?_, ?_⟩
  · intro field refused
    obtain ⟨earlier, later, listed, -⟩ := encode_eq_error_iff.1 refused
    have member : field ∈ signed envelope := by simp [listed]
    rcases sender_or_view member with ⟨sender, rfl⟩ | ⟨view, rfl⟩
    · exact .inl ⟨sender, rfl, rfl⟩
    · exact .inr ⟨view, rfl, rfl⟩
  · intro nonneg
    have written := encode_eq_ok_iff.2 ⟨nonneg, rfl⟩
    have spells : Spells envelope _ :=
      ⟨fun field listed => ⟨nonneg field listed, ints field listed⟩, few, written⟩
    exact ⟨_, written, spells.decode?_eq⟩

/-- The frame of so many attestations that its length is announced as that of an empty proof. -/
theorem decoding_undoes_encoding_of_wrapped_length :
    let envelope : Envelope := ⟨2, .viewProof 7 (List.replicate 536870912 ⟨0, 9⟩)⟩
    ((∀ field ∈ signed envelope, field.value ≤ maxWord) ∧
      envelope.message.attestations.length < 4294967296) ∧
      ∃ frame body, encode envelope = .ok frame ∧ announced? frame = some (16, body) ∧
        decode? frame = none := by
  intro envelope
  have numbers : ∀ holds : Int → Prop, holds 0 → holds 2 → holds 7 → holds 9 →
      ∀ field ∈ signed envelope, holds field.value := by
    intro holds zero two seven nine
    refine (@forall_signed_viewProof holds _ _ _).2 ⟨two, seven, ?_⟩
    intro attestation listed
    rw [List.eq_of_mem_replicate listed]
    exact ⟨zero, nine⟩
  have size : envelope.message.attestations.length = 536870912 := List.length_replicate
  have ints := numbers (· ≤ maxWord) (by decide) (by decide) (by decide) (by decide)
  have few : envelope.message.attestations.length < 4294967296 := by rw [size]; decide
  refine ⟨⟨ints, few⟩, ?_⟩
  obtain ⟨frame, written, read⟩ := (decoding_undoes_encoding envelope ints few).2.2.2
    (numbers (0 ≤ ·) (by decide) (by decide) (by decide) (by decide))
  rw [size, if_neg (by decide)] at read
  obtain ⟨-, spelled⟩ := encode_eq_ok_iff.1 written
  have bodyLength : (Word.spell (words envelope)).length = 4294967312 := by
    rw [Word.length_spell, length_words]
    change 4 * (4 + 2 * envelope.message.attestations.length) = _
    rw [size]
  refine ⟨frame, Word.spell (words envelope), written, ?_, read⟩
  refine announced?_eq_some_iff.2 ⟨by decide, ?_⟩
  rw [spelled, enclose, bodyLength]
  exact congrArg (· ++ Word.spell (words envelope)) (by decide)

end ViewSync.Frame
