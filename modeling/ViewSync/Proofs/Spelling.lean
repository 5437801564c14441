import ViewSync.Wire.Frame

/-!
How frames are spelled.

The body of a frame is a sequence of words, and the words say what the envelope is: each sequence
of words is the spelling of one envelope at most, and each sequence of bytes the spelling of one
sequence of words at most. Here the reader of every level is shown to accept exactly what the
writer of that level writes. The spelling of an envelope also tells where it ends: none of them is
the beginning of another.
-/

namespace ViewSync

namespace Word

def spell (words : List Nat) : Bytes :=
  words.flatMap toBytes

theorem ofBytes_lt (first second third fourth : UInt8) :
    ofBytes first second third fourth < count := by
  have bounds := And.intro first.toNat_lt
    (And.intro second.toNat_lt (And.intro third.toNat_lt fourth.toNat_lt))
  unfold ofBytes count
  omega

theorem toBytes_ofBytes (first second third fourth : UInt8) :
    toBytes (ofBytes first second third fourth) = [first, second, third, fourth] := by
  have bounds := And.intro first.toNat_lt
    (And.intro second.toNat_lt (And.intro third.toNat_lt fourth.toNat_lt))
  simp only [toBytes, ofBytes, List.cons.injEq, and_true, ← UInt8.toNat_inj, UInt8.toNat_ofNat']
  omega

theorem toBytes_injective {left right : Nat} (leftSmall : left < count) (rightSmall : right < count)
    (same : toBytes left = toBytes right) : left = right := by
  simp only [toBytes, List.cons.injEq, and_true] at same
  rw [← ofBytes_toBytes leftSmall, ← ofBytes_toBytes rightSmall, same.1, same.2.1, same.2.2.1,
    same.2.2.2]

theorem length_spell (words : List Nat) : (spell words).length = 4 * words.length := by
  induction words with
  | nil => rfl
  | cons word rest ih =>
      rw [spell, List.flatMap_cons, List.length_append, length_toBytes, List.length_cons]
      change 4 + (spell rest).length = _
      omega

theorem split?_spell {words : List Nat} (small : ∀ word ∈ words, word < count) :
    split? (spell words) = some words := by
  induction words with
  | nil => rfl
  | cons word rest ih =>
      have first := ofBytes_toBytes (small word List.mem_cons_self)
      have later := ih fun other listed => small other (List.mem_cons_of_mem word listed)
      change (split? (spell rest)).map _ = _
      rw [later, first]
      rfl

theorem eq_spell_of_split? {bytes : Bytes} {words : List Nat} (cut : split? bytes = some words) :
    bytes = spell words ∧ ∀ word ∈ words, word < count := by
  induction bytes using split?.induct generalizing words with
  | case1 =>
      cases cut
      exact ⟨rfl, fun _ listed => absurd listed List.not_mem_nil⟩
  | case2 first second third fourth rest ih =>
      obtain ⟨later, cutRest, rfl⟩ := Option.map_eq_some_iff.1 cut
      obtain ⟨spelled, small⟩ := ih cutRest
      constructor
      · rw [spell, List.flatMap_cons, toBytes_ofBytes]
        exact congrArg (first :: second :: third :: fourth :: ·) spelled
      · intro word listed
        rcases List.mem_cons.1 listed with rfl | inRest
        · exact ofBytes_lt first second third fourth
        · exact small word inRest
  | case3 bytes notEmpty notFour =>
      rw [split?] at cut
      · cases cut
      · exact notEmpty
      · exact notFour

theorem prefix_of_spell_prefix {left right : List Nat}
    (leftSmall : ∀ word ∈ left, word < count) (rightSmall : ∀ word ∈ right, word < count)
    (begins : spell left <+: spell right) : left <+: right := by
  induction left generalizing right with
  | nil => exact List.nil_prefix
  | cons word rest ih =>
      cases right with
      | nil =>
          have longer := begins.length_le
          rw [length_spell, length_spell, List.length_cons, List.length_nil] at longer
          omega
      | cons other others =>
          obtain ⟨tail, joined⟩ := begins
          have parts : toBytes word ++ (spell rest ++ tail) = toBytes other ++ spell others := by
            rw [← List.append_assoc]
            exact joined
          obtain ⟨sameWord, sameRest⟩ := List.append_inj parts rfl
          have first : word = other :=
            toBytes_injective (leftSmall word List.mem_cons_self)
              (rightSmall other List.mem_cons_self) sameWord
          rw [first]
          exact (List.prefix_cons_inj other).2 <| ih
            (fun word listed => leftSmall word (List.mem_cons_of_mem _ listed))
            (fun word listed => rightSmall word (List.mem_cons_of_mem _ listed)) ⟨tail, sameRest⟩

end Word

def Message.attestations : Message → List Attestation
  | .viewChange _ => []
  | .viewProof _ attestations => attestations

namespace Frame

/-! ### The words of an envelope -/

namespace Field

def value : Field → Int
  | .sender value => value
  | .view value => value
  | .plain value => value

def word (field : Field) : Nat :=
  field.value.toNat

theorem toBytes_eq (field : Field) : field.toBytes = Word.toBytes field.word := by
  cases field <;> rfl

end Field

def signed (envelope : Envelope) : List Field :=
  .sender envelope.sender ::
    match envelope.message with
    | .viewChange view => [.view view]
    | .viewProof view attestations =>
        .view view :: attestations.flatMap fun attestation =>
          [.sender attestation.sender, .view attestation.view]

/-- The numbers that have a word: integers of 32 bits that are not negative. -/
def Writable (value : Int) : Prop :=
  0 ≤ value ∧ value ≤ maxWord

theorem Writable.toNat_le {value : Int} (writable : Writable value) : value.toNat ≤ maxWord :=
  Int.toNat_le.2 writable.2

theorem writable_natCast {number : Nat} (short : number ≤ maxWord) : Writable number :=
  ⟨Int.natCast_nonneg number, Int.ofNat_le.2 short⟩

def InRange (envelope : Envelope) : Prop :=
  ∀ field ∈ signed envelope, Writable field.value

def words (envelope : Envelope) : List Nat :=
  (fields envelope).map Field.word

theorem words_viewChange (sender view : Int) :
    words ⟨sender, .viewChange view⟩ = [sender.toNat, viewChangeTag, view.toNat] :=
  rfl

def pairs (attestations : List Attestation) : List Nat :=
  attestations.flatMap fun attestation => [attestation.sender.toNat, attestation.view.toNat]

theorem length_pairs (attestations : List Attestation) :
    (pairs attestations).length = 2 * attestations.length := by
  induction attestations with
  | nil => rfl
  | cons first rest ih =>
      change (pairs rest).length + 2 = 2 * (rest.length + 1)
      omega

theorem words_viewProof (sender view : Int) (attestations : List Attestation) :
    words ⟨sender, .viewProof view attestations⟩ =
      sender.toNat :: viewProofTag :: view.toNat :: attestations.length :: pairs attestations := by
  simp only [words, fields, List.map_cons, List.map_flatMap, List.map_nil]
  rfl

theorem length_words (envelope : Envelope) :
    (words envelope).length =
      match envelope.message with
      | .viewChange _ => 3
      | .viewProof _ attestations => 4 + 2 * attestations.length := by
  obtain ⟨sender, message⟩ := envelope
  cases message with
  | viewChange view => rfl
  | viewProof view attestations =>
      rw [words_viewProof]
      simp only [List.length_cons, length_pairs]
      omega

theorem spell_words (envelope : Envelope) :
    (fields envelope).flatMap Field.toBytes = Word.spell (words envelope) := by
  rw [words, Word.spell, List.flatMap_map, funext Field.toBytes_eq]

/-- No envelope's words are the beginning of another's: the tag says how they go on, and the count
how many there are. -/
theorem words_eq_of_prefix {left right : Envelope} (begins : words left <+: words right) :
    words left = words right := by
  obtain ⟨sender, message⟩ := left
  obtain ⟨other, answer⟩ := right
  cases message with
  | viewChange view =>
      cases answer with
      | viewChange later => exact begins.eq_of_length rfl
      | viewProof later attestations =>
          rw [words_viewChange, words_viewProof] at begins
          simp [viewChangeTag, viewProofTag] at begins
  | viewProof view attestations =>
      cases answer with
      | viewChange later =>
          rw [words_viewChange, words_viewProof] at begins
          simp [viewChangeTag, viewProofTag] at begins
      | viewProof later others =>
          apply begins.eq_of_length
          rw [words_viewProof, words_viewProof] at begins
          have sameCount : attestations.length = others.length := by
            simp only [List.cons_prefix_cons] at begins
            exact begins.2.2.2.1
          simp only [length_words, sameCount]

section Signed

variable {holds : Int → Prop} {sender view : Int} {attestations : List Attestation}

theorem forall_signed_viewChange :
    (∀ field ∈ signed ⟨sender, .viewChange view⟩, holds field.value) ↔
      holds sender ∧ holds view := by
  simp only [signed, List.forall_mem_cons, List.not_mem_nil, Field.value, false_implies,
    implies_true, and_true]

theorem forall_signed_viewProof :
    (∀ field ∈ signed ⟨sender, .viewProof view attestations⟩, holds field.value) ↔
      holds sender ∧ holds view ∧
        ∀ attestation ∈ attestations, holds attestation.sender ∧ holds attestation.view := by
  simp only [signed, List.forall_mem_cons, List.forall_mem_flatMap, List.not_mem_nil, Field.value,
    false_implies, implies_true, and_true]

theorem inRange_viewChange :
    InRange ⟨sender, .viewChange view⟩ ↔ Writable sender ∧ Writable view :=
  @forall_signed_viewChange Writable sender view

theorem inRange_viewProof :
    InRange ⟨sender, .viewProof view attestations⟩ ↔
      Writable sender ∧ Writable view ∧
        ∀ attestation ∈ attestations, Writable attestation.sender ∧ Writable attestation.view :=
  @forall_signed_viewProof Writable sender view attestations

theorem sender_or_view {envelope : Envelope} {field : Field} (listed : field ∈ signed envelope) :
    (∃ sender, field = .sender sender) ∨ ∃ view, field = .view view := by
  obtain ⟨sender, message⟩ := envelope
  cases message with
  | viewChange view =>
      simp only [signed, List.mem_cons, List.not_mem_nil, or_false] at listed
      exact listed.imp (fun same => ⟨_, same⟩) fun same => ⟨_, same⟩
  | viewProof view attestations =>
      simp only [signed, List.mem_cons, List.mem_flatMap, List.not_mem_nil, or_false] at listed
      rcases listed with same | same | ⟨attestation, -, same | same⟩
      · exact .inl ⟨_, same⟩
      · exact .inr ⟨_, same⟩
      · exact .inl ⟨_, same⟩
      · exact .inr ⟨_, same⟩

end Signed

/-! ### Writing -/

theorem Field.isNegative_eq (field : Field) : field.isNegative = decide (field.value < 0) := by
  cases field with
  | sender value => rfl
  | view value => rfl
  | plain number => exact (decide_eq_false (Int.not_lt.2 (Int.natCast_nonneg number))).symm

/-- Tags and counts are never negative, so that they are not what is refused. -/
theorem find?_fields (envelope : Envelope) :
    (fields envelope).find? Field.isNegative = (signed envelope).find? (·.value < 0) := by
  rw [funext Field.isNegative_eq]
  obtain ⟨sender, message⟩ := envelope
  have plain : ∀ number : Nat, decide ((Field.plain number).value < 0) = false :=
    fun number => decide_eq_false (Int.not_lt.2 (Int.natCast_nonneg number))
  cases message with
  | viewChange view => simp only [fields, signed, List.find?_cons, plain]
  | viewProof view attestations => simp only [fields, signed, List.find?_cons, plain]

/-- What is refused is the first negative number in the order of writing. -/
theorem encode_eq_error_iff {envelope : Envelope} {field : Field} :
    encode envelope = .error field ↔
      ∃ earlier later, signed envelope = earlier ++ field :: later ∧
        (∀ other ∈ earlier, 0 ≤ other.value) ∧ field.value < 0 := by
  have first : encode envelope = .error field ↔
      (signed envelope).find? (·.value < 0) = some field := by
    rw [encode, find?_fields]
    cases (signed envelope).find? (·.value < 0) with
    | none => simp
    | some refused => simp
  rw [first, List.find?_eq_some_iff_append]
  simp only [decide_eq_true_eq, Bool.not_eq_true', decide_eq_false_iff_not, Int.not_lt]
  constructor
  · rintro ⟨negative, earlier, later, listed, nonneg⟩
    exact ⟨earlier, later, listed, nonneg, negative⟩
  · rintro ⟨earlier, later, listed, nonneg, negative⟩
    exact ⟨negative, earlier, later, listed, nonneg⟩

theorem encode_eq_ok_iff {envelope : Envelope} {frame : Bytes} :
    encode envelope = .ok frame ↔
      (∀ field ∈ signed envelope, 0 ≤ field.value) ∧
        frame = enclose (Word.spell (words envelope)) := by
  have nonneg : (signed envelope).find? (·.value < 0) = none ↔
      ∀ field ∈ signed envelope, 0 ≤ field.value := by
    simp [List.find?_eq_none]
  rw [encode, find?_fields, spell_words, ← nonneg]
  cases (signed envelope).find? (·.value < 0) with
  | none => simp [eq_comm]
  | some first => simp

theorem encode_fails_iff {envelope : Envelope} :
    (∃ field, encode envelope = .error field) ↔ ∃ field ∈ signed envelope, field.value < 0 := by
  constructor
  · rintro ⟨field, refused⟩
    obtain ⟨earlier, later, listed, -, negative⟩ := encode_eq_error_iff.1 refused
    exact ⟨field, by simp [listed], negative⟩
  · rintro ⟨field, listed, negative⟩
    cases result : encode envelope with
    | error refused => exact ⟨refused, rfl⟩
    | ok frame =>
        have nonneg := (encode_eq_ok_iff.1 result).1 field listed
        exact absurd negative (Int.not_lt.2 nonneg)

/-! ### Reading -/

theorem attestations?_pairs {attestations : List Attestation}
    (nonneg : ∀ attestation ∈ attestations, 0 ≤ attestation.sender ∧ 0 ≤ attestation.view) :
    attestations? (pairs attestations) = some attestations := by
  induction attestations with
  | nil => rfl
  | cons first rest ih =>
      have later := ih fun attestation listed => nonneg attestation (List.mem_cons_of_mem _ listed)
      obtain ⟨sender, view⟩ := nonneg first List.mem_cons_self
      change (attestations? (pairs rest)).map _ = _
      rw [later, Option.map_some, Int.toNat_of_nonneg sender, Int.toNat_of_nonneg view]

theorem eq_pairs_of_attestations? {given : List Nat} {attestations : List Attestation}
    (read : attestations? given = some attestations) :
    (∀ attestation ∈ attestations, 0 ≤ attestation.sender ∧ 0 ≤ attestation.view) ∧
      given = pairs attestations := by
  induction given using attestations?.induct generalizing attestations with
  | case1 =>
      cases read
      exact ⟨fun _ listed => absurd listed List.not_mem_nil, rfl⟩
  | case2 sender view rest ih =>
      obtain ⟨later, readRest, rfl⟩ := Option.map_eq_some_iff.1 read
      obtain ⟨nonneg, spelled⟩ := ih readRest
      constructor
      · intro attestation listed
        rcases List.mem_cons.1 listed with rfl | inRest
        · exact ⟨Int.natCast_nonneg sender, Int.natCast_nonneg view⟩
        · exact nonneg attestation inRest
      · exact congrArg (sender :: view :: ·) spelled
  | case3 given notEmpty notTwo =>
      rw [attestations?] at read
      · cases read
      · exact notEmpty
      · exact notTwo

theorem ofWords?_words {envelope : Envelope}
    (nonneg : ∀ field ∈ signed envelope, 0 ≤ field.value) :
    ofWords? (words envelope) = some envelope := by
  obtain ⟨sender, message⟩ := envelope
  cases message with
  | viewChange view =>
      obtain ⟨senderNonneg, viewNonneg⟩ := forall_signed_viewChange.1 nonneg
      rw [words_viewChange, viewChangeTag, ofWords?, Int.toNat_of_nonneg senderNonneg,
        Int.toNat_of_nonneg viewNonneg]
  | viewProof view attestations =>
      obtain ⟨senderNonneg, viewNonneg, listNonneg⟩ := forall_signed_viewProof.1 nonneg
      rw [words_viewProof, viewProofTag, ofWords?, attestations?_pairs listNonneg]
      simp [Int.toNat_of_nonneg senderNonneg, Int.toNat_of_nonneg viewNonneg]

theorem eq_words_of_ofWords? {given : List Nat} {envelope : Envelope}
    (read : ofWords? given = some envelope) :
    (∀ field ∈ signed envelope, 0 ≤ field.value) ∧ given = words envelope := by
  unfold ofWords? at read
  split at read
  · cases read
    exact ⟨forall_signed_viewChange.2 ⟨Int.natCast_nonneg _, Int.natCast_nonneg _⟩, rfl⟩
  · next sender view count rest =>
      obtain ⟨attestations, readRest, counted⟩ := Option.bind_eq_some_iff.1 read
      obtain ⟨nonneg, spelled⟩ := eq_pairs_of_attestations? readRest
      split at counted
      · next sameCount =>
          cases counted
          refine ⟨forall_signed_viewProof.2
            ⟨Int.natCast_nonneg _, Int.natCast_nonneg _, nonneg⟩, ?_⟩
          rw [words_viewProof, spelled, sameCount]
          rfl
      · cases counted
  · cases read

theorem forall_words_le_iff {envelope : Envelope} {bound : Nat} (tags : viewProofTag ≤ bound) :
    (∀ word ∈ words envelope, word ≤ bound) ↔
      (∀ field ∈ signed envelope, field.value.toNat ≤ bound) ∧
        envelope.message.attestations.length ≤ bound := by
  have otherTag : viewChangeTag ≤ bound := Nat.le_trans (by decide) tags
  obtain ⟨sender, message⟩ := envelope
  cases message with
  | viewChange view =>
      rw [@forall_signed_viewChange (·.toNat ≤ bound), words_viewChange]
      simp [otherTag, Message.attestations]
  | viewProof view attestations =>
      rw [@forall_signed_viewProof (·.toNat ≤ bound), words_viewProof]
      simp only [pairs, List.forall_mem_cons, List.forall_mem_flatMap, List.not_mem_nil,
        false_implies, implies_true, and_true, tags, true_and, Message.attestations]
      constructor
      · rintro ⟨sender, view, few, list⟩
        exact ⟨⟨sender, view, list⟩, few⟩
      · rintro ⟨⟨sender, view, list⟩, few⟩
        exact ⟨sender, view, few, list⟩

theorem ofBody?_eq_some_iff {body : Bytes} {envelope : Envelope} :
    ofBody? body = some envelope ↔
      InRange envelope ∧ envelope.message.attestations.length ≤ maxWord ∧
        body = Word.spell (words envelope) := by
  have tags : viewProofTag ≤ maxWord := by decide
  constructor
  · intro read
    obtain ⟨given, cut, readWords⟩ := Option.bind_eq_some_iff.1 read
    obtain ⟨spelled, -⟩ := Word.eq_spell_of_split? cut
    split at readWords
    · next small =>
        obtain ⟨nonneg, rfl⟩ := eq_words_of_ofWords? readWords
        obtain ⟨below, few⟩ := (forall_words_le_iff tags).1 (by simpa using small)
        refine ⟨fun field listed => ⟨nonneg field listed, ?_⟩, few, spelled⟩
        exact Int.toNat_le.1 (below field listed)
    · cases readWords
  · rintro ⟨inRange, few, rfl⟩
    have small : ∀ word ∈ words envelope, word ≤ maxWord :=
      (forall_words_le_iff tags).2 ⟨fun field listed => (inRange field listed).toNat_le, few⟩
    have cut : Word.split? (Word.spell (words envelope)) = some (words envelope) := by
      apply Word.split?_spell
      intro word listed
      exact Nat.lt_of_le_of_lt (small word listed) (by decide)
    have all : (words envelope).all (· ≤ maxWord) = true := by simpa using small
    rw [ofBody?, cut]
    change (if (words envelope).all (· ≤ maxWord) = true then _ else _) = _
    rw [if_pos all, ofWords?_words fun field listed => (inRange field listed).1]

end Frame

end ViewSync
