import ViewSync.Proofs.CanonicalFrames

/-!
Reading by position.

`decode?` takes a sequence of bytes apart and has no way to look past its end. A reader that finds
each byte of a buffer by its position has only its own checks to keep it inside. Here is such a
reader, with a cursor that knows its place and how much of the body is left, and for which asking
for a byte that is not there is an outcome of its own. It reads from every sequence of bytes what
`decode?` reads, so it never comes to that outcome.
-/

namespace ViewSync

inductive Reading (α : Type)
  | found (value : α)
  | refused
  /-- A byte past the end of the buffer was asked for. -/
  | outside
deriving DecidableEq, Repr

namespace Reading

variable {α β : Type}

def andThen : Reading α → (α → Reading β) → Reading β
  | found value, next => next value
  | refused, _ => refused
  | outside, _ => outside

instance : Monad Reading where
  pure := found
  bind := andThen

def ofOption : Option α → Reading α
  | some value => found value
  | none => refused

theorem bind_eq_found_iff {reading : Reading α} {next : α → Reading β} {result : β} :
    reading >>= next = found result ↔
      ∃ value, reading = found value ∧ next value = found result := by
  cases reading with
  | found value =>
      constructor
      · exact fun later => ⟨value, rfl, later⟩
      · rintro ⟨_, ⟨⟩, later⟩
        exact later
  | refused =>
      constructor
      · exact fun impossible => nomatch impossible
      · rintro ⟨_, ⟨⟩, _⟩
  | outside =>
      constructor
      · exact fun impossible => nomatch impossible
      · rintro ⟨_, ⟨⟩, _⟩

theorem bind_ne_outside {reading : Reading α} {next : α → Reading β}
    (first : reading ≠ outside) (later : ∀ value, reading = found value → next value ≠ outside) :
    reading >>= next ≠ outside := by
  cases reading with
  | found value => exact later value rfl
  | refused => exact fun impossible => nomatch impossible
  | outside => exact absurd rfl first

/-- A reading that never goes outside is known by what it finds. -/
theorem eq_ofOption {reading : Reading α} {answer : Option α} (inside : reading ≠ outside)
    (same : ∀ value, reading = found value ↔ answer = some value) : reading = ofOption answer := by
  cases answer with
  | some value => exact (same value).2 rfl
  | none =>
      cases reading with
      | found value => exact nomatch (same value).1 rfl
      | refused => rfl
      | outside => exact absurd rfl inside

end Reading

namespace Frame

open Reading

def byteAt (bytes : Bytes) (position : Nat) : Reading UInt8 :=
  match bytes[position]? with
  | some byte => .found byte
  | none => .outside

def wordAt (bytes : Bytes) (position : Nat) : Reading Nat := do
  let first ← byteAt bytes position
  let second ← byteAt bytes (position + 1)
  let third ← byteAt bytes (position + 2)
  let fourth ← byteAt bytes (position + 3)
  return Word.ofBytes first second third fourth

/-- A place in a buffer, and the number of bytes from there that belong to the body. -/
structure Cursor where
  position : Nat
  left : Nat
deriving DecidableEq, Repr

namespace Cursor

def next (cursor : Cursor) : Cursor :=
  ⟨cursor.position + 4, cursor.left - 4⟩

def number (bytes : Bytes) (cursor : Cursor) : Reading (Nat × Cursor) :=
  if cursor.left < 4 then .refused
  else do
    let word ← wordAt bytes cursor.position
    if maxWord < word then .refused else return (word, cursor.next)

def attestations (bytes : Bytes) : Nat → Cursor → Reading (List Attestation × Cursor)
  | 0, cursor => return ([], cursor)
  | count + 1, cursor => do
      let (sender, cursor) ← cursor.number bytes
      let (view, cursor) ← cursor.number bytes
      let (rest, cursor) ← attestations bytes count cursor
      return (⟨sender, view⟩ :: rest, cursor)

def message (bytes : Bytes) (tag view : Nat) (cursor : Cursor) : Reading (Message × Cursor) :=
  if tag = viewChangeTag then return (.viewChange view, cursor)
  else if tag = viewProofTag then do
    let (count, cursor) ← cursor.number bytes
    if count * 8 ≠ cursor.left then .refused
    else do
      let (attestations, cursor) ← cursor.attestations bytes count
      return (.viewProof view attestations, cursor)
  else .refused

def envelope (bytes : Bytes) (cursor : Cursor) : Reading Envelope := do
  let (sender, cursor) ← cursor.number bytes
  let (tag, cursor) ← cursor.number bytes
  let (view, cursor) ← cursor.number bytes
  let (message, cursor) ← cursor.message bytes tag view
  if cursor.left ≠ 0 then .refused else return ⟨sender, message⟩

end Cursor

/-- Reads the frame at the front of a buffer by positions. -/
def scan (bytes : Bytes) : Reading Decoded :=
  if bytes.length < lengthSize then .refused
  else do
    let length ← wordAt bytes 0
    if maxBody < length || bytes.length - lengthSize < length then .refused
    else do
      let envelope ← Cursor.envelope bytes ⟨lengthSize, length⟩
      return ⟨envelope, lengthSize + length⟩

/-! ### One number after the other -/

namespace Cursor

variable {bytes : Bytes} {cursor after : Cursor}

def ahead (bytes : Bytes) (cursor : Cursor) : Bytes :=
  (bytes.drop cursor.position).take cursor.left

def Inside (bytes : Bytes) (cursor : Cursor) : Prop :=
  cursor.position + cursor.left ≤ bytes.length

structure Passes (bytes : Bytes) (before : Cursor) (words : List Nat) (after : Cursor) : Prop where
  spelled : before.ahead bytes = Word.spell words ++ after.ahead bytes
  moved : after.position = before.position + 4 * words.length
  used : before.left = after.left + 4 * words.length

theorem Passes.inside {words : List Nat} (passes : cursor.Passes bytes words after)
    (inside : cursor.Inside bytes) : after.Inside bytes := by
  have moved := passes.moved
  have used := passes.used
  unfold Inside at *
  omega

theorem Passes.append {words others : List Nat} {last : Cursor}
    (first : cursor.Passes bytes words after) (second : after.Passes bytes others last) :
    cursor.Passes bytes (words ++ others) last where
  spelled := by
    rw [first.spelled, second.spelled, ← List.append_assoc, Word.spell, Word.spell, Word.spell,
      List.flatMap_append]
  moved := by
    rw [second.moved, first.moved, List.length_append]
    omega
  used := by
    rw [first.used, second.used, List.length_append]
    omega

theorem passes_nil_iff : cursor.Passes bytes [] after ↔ after = cursor := by
  constructor
  · rintro ⟨-, moved, used⟩
    obtain ⟨position, left⟩ := after
    obtain ⟨start, size⟩ := cursor
    cases moved
    cases used
    rfl
  · rintro rfl
    exact ⟨rfl, rfl, rfl⟩

theorem ahead_next (cursor : Cursor) : cursor.next.ahead bytes = (cursor.ahead bytes).drop 4 := by
  rw [ahead, ahead, next, List.drop_take, List.drop_drop]

theorem passes_cons_iff {word : Nat} {words : List Nat} :
    cursor.Passes bytes (word :: words) after ↔
      cursor.Passes bytes [word] cursor.next ∧ cursor.next.Passes bytes words after := by
  constructor
  · rintro ⟨spelled, moved, used⟩
    rw [List.length_cons] at moved used
    have rest : cursor.next.ahead bytes = Word.spell words ++ after.ahead bytes := by
      rw [ahead_next, spelled]
      rfl
    refine ⟨⟨?_, rfl, ?_⟩, rest, ?_, ?_⟩
    · rw [spelled, rest]
      rfl
    · change cursor.left = cursor.left - 4 + 4
      omega
    · change after.position = cursor.position + 4 + 4 * words.length
      omega
    · change cursor.left - 4 = after.left + 4 * words.length
      omega
  · rintro ⟨first, later⟩
    exact first.append later

theorem Passes.split {words others : List Nat}
    (passes : cursor.Passes bytes (words ++ others) after) :
    ∃ middle, cursor.Passes bytes words middle ∧ middle.Passes bytes others after := by
  induction words generalizing cursor with
  | nil => exact ⟨cursor, passes_nil_iff.2 rfl, passes⟩
  | cons word rest ih =>
      obtain ⟨first, later⟩ := passes_cons_iff.1 passes
      obtain ⟨middle, passesRest, passesOthers⟩ := ih later
      exact ⟨middle, passes_cons_iff.2 ⟨first, passesRest⟩, passesOthers⟩

theorem Passes.eq_next {word : Nat} (passes : cursor.Passes bytes [word] after) :
    after = cursor.next :=
  passes_nil_iff.1 (passes_cons_iff.1 passes).2

/-- Inside the buffer every word that is left can be read. -/
theorem wordAt_eq (inside : cursor.Inside bytes) (enough : 4 ≤ cursor.left) :
    ∃ word < Word.count, wordAt bytes cursor.position = .found word ∧
      cursor.Passes bytes [word] cursor.next := by
  obtain ⟨position, left⟩ := cursor
  simp only [Inside] at inside enough
  have front : bytes.drop position = bytes[position] :: bytes[position + 1] ::
      bytes[position + 2] :: bytes[position + 3] :: bytes.drop (position + 4) := by
    rw [List.drop_eq_getElem_cons, List.drop_eq_getElem_cons, List.drop_eq_getElem_cons,
      List.drop_eq_getElem_cons]
  refine ⟨Word.ofBytes bytes[position] bytes[position + 1] bytes[position + 2] bytes[position + 3],
    Word.ofBytes_lt _ _ _ _, ?_, ?_, rfl, ?_⟩
  · have there : ∀ offset, (within : position + offset < bytes.length) →
        byteAt bytes (position + offset) = .found bytes[position + offset] := by
      intro offset within
      rw [byteAt, List.getElem?_eq_getElem within]
    rw [wordAt, there 1, there 2, there 3]
    exact congrArg (· >>= _) (there 0 (by omega))
  · obtain ⟨more, rfl⟩ := Nat.exists_eq_add_of_le' enough
    rw [ahead_next, ahead, front, Word.spell, List.flatMap_singleton, Word.toBytes_ofBytes]
    rfl
  · change left = left - 4 + 4
    omega

theorem number_eq (inside : cursor.Inside bytes) (enough : 4 ≤ cursor.left) :
    ∃ word < Word.count, cursor.Passes bytes [word] cursor.next ∧
      cursor.number bytes = if maxWord < word then .refused else .found (word, cursor.next) := by
  obtain ⟨word, small, found, passes⟩ := wordAt_eq inside enough
  refine ⟨word, small, passes, ?_⟩
  rw [number, if_neg (Nat.not_lt.2 enough), found]
  rfl

theorem number_ne_outside (inside : cursor.Inside bytes) : cursor.number bytes ≠ .outside := by
  by_cases enough : 4 ≤ cursor.left
  · obtain ⟨word, -, -, same⟩ := number_eq inside enough
    rw [same]
    split <;> exact fun impossible => nomatch impossible
  · rw [number, if_pos (Nat.not_le.1 enough)]
    exact fun impossible => nomatch impossible

theorem number_eq_found_iff (inside : cursor.Inside bytes) {word : Nat} :
    cursor.number bytes = .found (word, after) ↔
      word ≤ maxWord ∧ cursor.Passes bytes [word] after := by
  by_cases enough : 4 ≤ cursor.left
  · obtain ⟨there, small, passes, same⟩ := number_eq inside enough
    rw [same]
    constructor
    · intro found
      split at found
      · cases found
      · next short =>
          cases found
          exact ⟨Nat.not_lt.1 short, passes⟩
    · rintro ⟨short, passesWord⟩
      have atNext := passesWord.eq_next
      have sameWord : there = word := by
        have spelled := passes.spelled
        rw [passesWord.spelled, atNext] at spelled
        refine Word.toBytes_injective small (Nat.lt_of_le_of_lt short (by decide)) ?_
        exact (List.append_cancel_right spelled).symm
      rw [sameWord, if_neg (Nat.not_lt.2 short), atNext]
  · rw [number, if_pos (Nat.not_le.1 enough)]
    constructor
    · exact fun impossible => nomatch impossible
    · rintro ⟨-, passes⟩
      have used := passes.used
      rw [List.length_singleton] at used
      omega

section Bind

variable {β : Type} {next : Nat × Cursor → Reading β}

theorem number_bind_eq_found_iff (inside : cursor.Inside bytes) {result : β} :
    cursor.number bytes >>= next = .found result ↔
      ∃ word after, (word ≤ maxWord ∧ cursor.Passes bytes [word] after ∧ after.Inside bytes) ∧
        next (word, after) = .found result := by
  rw [bind_eq_found_iff]
  constructor
  · rintro ⟨⟨word, after⟩, found, later⟩
    obtain ⟨short, passes⟩ := (number_eq_found_iff inside).1 found
    exact ⟨word, after, ⟨short, passes, passes.inside inside⟩, later⟩
  · rintro ⟨word, after, ⟨short, passes, -⟩, later⟩
    exact ⟨(word, after), (number_eq_found_iff inside).2 ⟨short, passes⟩, later⟩

theorem number_bind_ne_outside (inside : cursor.Inside bytes)
    (later : ∀ word after, after.Inside bytes → next (word, after) ≠ .outside) :
    cursor.number bytes >>= next ≠ .outside := by
  refine bind_ne_outside (number_ne_outside inside) ?_
  rintro ⟨word, after⟩ found
  exact later word after (((number_eq_found_iff inside).1 found).2.inside inside)

end Bind

theorem attestations_ne_outside (count : Nat) (inside : cursor.Inside bytes) :
    cursor.attestations bytes count ≠ .outside := by
  induction count generalizing cursor with
  | zero => exact fun impossible => nomatch impossible
  | succ count ih =>
      refine number_bind_ne_outside inside fun sender second insideSecond => ?_
      refine number_bind_ne_outside insideSecond fun view third insideThird => ?_
      refine bind_ne_outside (ih insideThird) ?_
      rintro ⟨rest, last⟩ -
      exact fun impossible => nomatch impossible

theorem attestations_eq_found_iff (inside : cursor.Inside bytes) {count : Nat}
    {list : List Attestation} :
    cursor.attestations bytes count = .found (list, after) ↔
      list.length = count ∧
        (∀ attestation ∈ list, Writable attestation.sender ∧ Writable attestation.view) ∧
          cursor.Passes bytes (pairs list) after := by
  induction count generalizing cursor after list with
  | zero =>
      constructor
      · intro found
        cases found
        exact ⟨rfl, fun _ listed => absurd listed List.not_mem_nil, passes_nil_iff.2 rfl⟩
      · rintro ⟨none, -, passes⟩
        rw [List.eq_nil_of_length_eq_zero none] at passes ⊢
        rw [passes_nil_iff.1 passes]
        rfl
  | succ count ih =>
      constructor
      · intro found
        obtain ⟨sender, second, ⟨senderShort, passesSender, insideSecond⟩, found⟩ :=
          (number_bind_eq_found_iff inside).1 found
        obtain ⟨view, third, ⟨viewShort, passesView, insideThird⟩, found⟩ :=
          (number_bind_eq_found_iff insideSecond).1 found
        obtain ⟨⟨rest, last⟩, foundRest, found⟩ := bind_eq_found_iff.1 found
        obtain ⟨length, writable, passesRest⟩ := (ih insideThird).1 foundRest
        cases found
        refine ⟨congrArg (· + 1) length, ?_, passesSender.append (passesView.append passesRest)⟩
        exact List.forall_mem_cons.2
          ⟨⟨writable_natCast senderShort, writable_natCast viewShort⟩, writable⟩
      · rintro ⟨length, writable, passes⟩
        cases list with
        | nil => cases length
        | cons first rest =>
            obtain ⟨⟨firstSender, firstView⟩, writableRest⟩ := List.forall_mem_cons.1 writable
            obtain ⟨passesSender, passesLater⟩ := passes_cons_iff.1 passes
            obtain ⟨passesView, passesRest⟩ := passes_cons_iff.1 passesLater
            have insideSecond := passesSender.inside inside
            have insideThird := passesView.inside insideSecond
            have foundRest := (ih insideThird).2 ⟨Nat.succ.inj length, writableRest, passesRest⟩
            refine (number_bind_eq_found_iff inside).2
              ⟨_, _, ⟨firstSender.toNat_le, passesSender, insideSecond⟩, ?_⟩
            refine (number_bind_eq_found_iff insideSecond).2
              ⟨_, _, ⟨firstView.toNat_le, passesView, insideThird⟩, ?_⟩
            refine bind_eq_found_iff.2 ⟨_, foundRest, ?_⟩
            change Reading.found
              (Attestation.mk first.sender.toNat first.view.toNat :: rest, after) = _
            rw [Int.toNat_of_nonneg firstSender.1, Int.toNat_of_nonneg firstView.1]

theorem message_ne_outside (tag view : Nat) (inside : cursor.Inside bytes) :
    cursor.message bytes tag view ≠ .outside := by
  unfold message
  split
  · exact fun impossible => nomatch impossible
  · split
    · refine number_bind_ne_outside inside fun count second insideSecond => ?_
      change (if count * 8 ≠ second.left then _ else _) ≠ _
      split
      · exact fun impossible => nomatch impossible
      · refine bind_ne_outside (attestations_ne_outside count insideSecond) ?_
        rintro ⟨list, last⟩ -
        exact fun impossible => nomatch impossible
    · exact fun impossible => nomatch impossible

theorem envelope_ne_outside (inside : cursor.Inside bytes) : cursor.envelope bytes ≠ .outside := by
  refine number_bind_ne_outside inside fun sender second insideSecond => ?_
  refine number_bind_ne_outside insideSecond fun tag third insideThird => ?_
  refine number_bind_ne_outside insideThird fun view fourth insideFourth => ?_
  refine bind_ne_outside (message_ne_outside tag view insideFourth) ?_
  rintro ⟨message, last⟩ -
  change (if last.left ≠ 0 then _ else _) ≠ _
  split <;> exact fun impossible => nomatch impossible

theorem ahead_eq_spell_iff (inside : cursor.Inside bytes) {words : List Nat} :
    cursor.ahead bytes = Word.spell words ↔
      ∃ last, cursor.Passes bytes words last ∧ last.left = 0 := by
  constructor
  · intro spelled
    have size : cursor.left = 4 * words.length := by
      rw [← Word.length_spell, ← spelled, ahead, List.length_take, List.length_drop]
      unfold Inside at inside
      omega
    refine ⟨⟨cursor.position + 4 * words.length, 0⟩, ⟨?_, rfl, ?_⟩, rfl⟩
    · rw [spelled, ahead, List.take_zero, List.append_nil]
    · rw [size, Nat.zero_add]
  · rintro ⟨last, passes, ended⟩
    rw [passes.spelled, ahead, ended, List.take_zero, List.append_nil]

/-- What is found after a tag and a view, when nothing is left over: the words that are still
wanting. -/
theorem message_eq_found_iff (inside : cursor.Inside bytes) {tag view : Nat} {content : Message} :
    (∃ last, cursor.message bytes tag view = .found (content, last) ∧ last.left = 0) ↔
      (tag = viewChangeTag ∧ content = .viewChange view ∧ cursor.left = 0) ∨
      ∃ list last, (tag = viewProofTag ∧ content = .viewProof view list) ∧
        (list.length ≤ maxWord ∧
          ∀ attestation ∈ list, Writable attestation.sender ∧ Writable attestation.view) ∧
        cursor.Passes bytes (list.length :: pairs list) last ∧ last.left = 0 := by
  unfold message
  by_cases isChange : tag = viewChangeTag
  · have notProof : tag ≠ viewProofTag := by
      rw [isChange]
      decide
    rw [if_pos isChange]
    constructor
    · rintro ⟨last, found, ended⟩
      cases found
      exact .inl ⟨isChange, rfl, ended⟩
    · rintro (⟨-, rfl, ended⟩ | ⟨list, last, ⟨isProof, -⟩, -⟩)
      · exact ⟨cursor, rfl, ended⟩
      · exact absurd isProof notProof
  · rw [if_neg isChange]
    by_cases isProof : tag = viewProofTag
    · rw [if_pos isProof]
      constructor
      · rintro ⟨last, found, ended⟩
        obtain ⟨count, second, ⟨short, passesCount, insideSecond⟩, found⟩ :=
          (number_bind_eq_found_iff inside).1 found
        change (if count * 8 ≠ second.left then _ else _) = _ at found
        split at found
        · cases found
        · obtain ⟨⟨list, third⟩, foundList, found⟩ := bind_eq_found_iff.1 found
          obtain ⟨length, writable, passesList⟩ :=
            (attestations_eq_found_iff insideSecond).1 foundList
          cases found
          subst length
          exact .inr ⟨list, last, ⟨isProof, rfl⟩, ⟨short, writable⟩,
            passesCount.append passesList, ended⟩
      · rintro (⟨impossible, -⟩ | ⟨list, last, ⟨-, rfl⟩, ⟨short, writable⟩, passes, ended⟩)
        · exact absurd impossible isChange
        · obtain ⟨passesCount, passesList⟩ := passes_cons_iff.1 passes
          have insideSecond := passesCount.inside inside
          have foundList := (attestations_eq_found_iff insideSecond).2 ⟨rfl, writable, passesList⟩
          have exactly : ¬ list.length * 8 ≠ cursor.next.left := by
            have used := passesList.used
            rw [length_pairs, ended] at used
            omega
          refine ⟨last, (number_bind_eq_found_iff inside).2
            ⟨_, _, ⟨short, passesCount, insideSecond⟩, ?_⟩, ended⟩
          change (if list.length * 8 ≠ cursor.next.left then _ else _) = _
          rw [if_neg exactly]
          exact bind_eq_found_iff.2 ⟨_, foundList, rfl⟩
    · rw [if_neg isProof]
      constructor
      · rintro ⟨last, ⟨⟩, -⟩
      · rintro (⟨impossible, -⟩ | ⟨list, last, ⟨impossible, -⟩, -⟩)
        · exact absurd impossible isChange
        · exact absurd impossible isProof

theorem envelope_found_iff (inside : cursor.Inside bytes) {envelope : Envelope} :
    cursor.envelope bytes = .found envelope ↔
      ∃ (sender tag view : Nat) (content : Message) (fourth : Cursor),
        envelope = ⟨sender, content⟩ ∧ (∀ word ∈ [sender, tag, view], word ≤ maxWord) ∧
          cursor.Passes bytes [sender, tag, view] fourth ∧
            ∃ last, fourth.message bytes tag view = .found (content, last) ∧ last.left = 0 := by
  constructor
  · intro found
    obtain ⟨sender, second, ⟨senderShort, passesSender, insideSecond⟩, found⟩ :=
      (number_bind_eq_found_iff inside).1 found
    obtain ⟨tag, third, ⟨tagShort, passesTag, insideThird⟩, found⟩ :=
      (number_bind_eq_found_iff insideSecond).1 found
    obtain ⟨view, fourth, ⟨viewShort, passesView, -⟩, found⟩ :=
      (number_bind_eq_found_iff insideThird).1 found
    obtain ⟨⟨content, last⟩, foundMessage, found⟩ := bind_eq_found_iff.1 found
    change (if last.left ≠ 0 then _ else _) = _ at found
    split at found
    · cases found
    · next ended =>
        cases found
        refine ⟨sender, tag, view, content, fourth, rfl, ?_,
          passesSender.append (passesTag.append passesView), last, foundMessage,
          Decidable.not_not.1 ended⟩
        simp [senderShort, tagShort, viewShort]
  · rintro ⟨sender, tag, view, content, fourth, rfl, short, passes, last, foundMessage, ended⟩
    simp only [List.forall_mem_cons] at short
    obtain ⟨senderShort, tagShort, viewShort, -⟩ := short
    obtain ⟨passesSender, passes⟩ := passes_cons_iff.1 passes
    obtain ⟨passesTag, passesView⟩ := passes_cons_iff.1 passes
    have insideSecond := passesSender.inside inside
    have insideThird := passesTag.inside insideSecond
    refine (number_bind_eq_found_iff inside).2
      ⟨sender, _, ⟨senderShort, passesSender, insideSecond⟩, ?_⟩
    refine (number_bind_eq_found_iff insideSecond).2
      ⟨tag, _, ⟨tagShort, passesTag, insideThird⟩, ?_⟩
    refine (number_bind_eq_found_iff insideThird).2
      ⟨view, _, ⟨viewShort, passesView, passesView.inside insideThird⟩, ?_⟩
    refine bind_eq_found_iff.2 ⟨_, foundMessage, ?_⟩
    change (if last.left ≠ 0 then _ else _) = _
    rw [if_neg (not_not_intro ended)]
    rfl

theorem envelope_eq_found_iff (inside : cursor.Inside bytes) {envelope : Envelope} :
    cursor.envelope bytes = .found envelope ↔ ofBody? (cursor.ahead bytes) = some envelope := by
  rw [ofBody?_eq_some_iff, ahead_eq_spell_iff inside, envelope_found_iff inside]
  constructor
  · rintro ⟨sender, tag, view, content, fourth, rfl, short, passesHead, reaches⟩
    simp only [List.forall_mem_cons] at short
    have senderIn := writable_natCast short.1
    have viewIn := writable_natCast short.2.2.1
    rcases (message_eq_found_iff (passesHead.inside inside)).1 reaches with
      ⟨rfl, rfl, spent⟩ | ⟨list, last, ⟨rfl, rfl⟩, ⟨countable, writable⟩, passes, spent⟩
    · exact ⟨inRange_viewChange.2 ⟨senderIn, viewIn⟩, Nat.zero_le _, fourth, passesHead, spent⟩
    · refine ⟨inRange_viewProof.2 ⟨senderIn, viewIn, writable⟩, countable, last, ?_, spent⟩
      rw [words_viewProof]
      exact passesHead.append passes
  · rintro ⟨inRange, countable, last, passes, spent⟩
    obtain ⟨sender, content⟩ := envelope
    cases content with
    | viewChange view =>
        obtain ⟨senderIn, viewIn⟩ := inRange_viewChange.1 inRange
        rw [words_viewChange] at passes
        refine ⟨sender.toNat, viewChangeTag, view.toNat, .viewChange view, last, ?_, ?_, passes,
          (message_eq_found_iff (passes.inside inside)).2 (.inl ⟨rfl, ?_, spent⟩)⟩
        · rw [Int.toNat_of_nonneg senderIn.1]
        · simp [senderIn.toNat_le, viewIn.toNat_le, show viewChangeTag ≤ maxWord by decide]
        · rw [Int.toNat_of_nonneg viewIn.1]
    | viewProof view list =>
        obtain ⟨senderIn, viewIn, writable⟩ := inRange_viewProof.1 inRange
        rw [words_viewProof] at passes
        obtain ⟨fourth, passesHead, passesRest⟩ :=
          @Passes.split bytes cursor last [sender.toNat, viewProofTag, view.toNat] _ passes
        refine ⟨sender.toNat, viewProofTag, view.toNat, .viewProof view list, fourth, ?_, ?_,
          passesHead, (message_eq_found_iff (passesHead.inside inside)).2
            (.inr ⟨list, last, ⟨rfl, ?_⟩, ⟨countable, writable⟩, passesRest, spent⟩)⟩
        · rw [Int.toNat_of_nonneg senderIn.1]
        · simp [senderIn.toNat_le, viewIn.toNat_le, show viewProofTag ≤ maxWord by decide]
        · rw [Int.toNat_of_nonneg viewIn.1]

theorem envelope_eq (inside : cursor.Inside bytes) :
    cursor.envelope bytes = .ofOption (ofBody? (cursor.ahead bytes)) :=
  eq_ofOption (envelope_ne_outside inside) fun _ => envelope_eq_found_iff inside

end Cursor

/-! ### Whole frames -/

variable {bytes : Bytes}

theorem wordAt_front (enough : lengthSize ≤ bytes.length) :
    ∃ length, wordAt bytes 0 = .found length ∧
      announced? bytes = some (length, bytes.drop lengthSize) := by
  have inside : Cursor.Inside bytes ⟨0, bytes.length⟩ := Nat.le_of_eq (Nat.zero_add _)
  obtain ⟨length, small, found, passes⟩ := Cursor.wordAt_eq inside enough
  refine ⟨length, found, announced?_eq_some_iff.2 ⟨small, ?_⟩⟩
  have spelled := passes.spelled
  rw [Cursor.ahead_next, Cursor.ahead, List.drop_zero, List.take_length, Word.spell,
    List.flatMap_singleton] at spelled
  exact spelled

theorem scan_eq (bytes : Bytes) : scan bytes = .ofOption (decode? bytes) := by
  unfold scan decode?
  by_cases short : bytes.length < lengthSize
  · rw [if_pos short, announced?_eq_none_iff.2 short]
    rfl
  · obtain ⟨length, found, announced⟩ := wordAt_front (Nat.not_lt.1 short)
    have cut : (bytes.length - lengthSize < length) =
        (((bytes.drop lengthSize).take length).length < length) := by
      rw [List.length_take, List.length_drop]
      exact propext (by omega)
    rw [if_neg short, found, announced]
    change (if maxBody < length || _ then _ else _) = Reading.ofOption
      (if maxBody < length || _ then _ else _)
    simp only [cut]
    split
    · rfl
    · next whole =>
        have inside : Cursor.Inside bytes ⟨lengthSize, length⟩ := by
          simp only [Bool.or_eq_true, decide_eq_true_eq, List.length_take,
            List.length_drop] at whole
          change lengthSize + length ≤ bytes.length
          omega
        rw [Cursor.envelope_eq inside]
        change _ = Reading.ofOption (ofBody? (Cursor.ahead bytes ⟨lengthSize, length⟩) >>= _)
        cases ofBody? (Cursor.ahead bytes ⟨lengthSize, length⟩) with
        | none => rfl
        | some envelope => rfl

theorem scan_ne_outside (bytes : Bytes) : scan bytes ≠ .outside := by
  rw [scan_eq]
  cases decode? bytes with
  | none => exact fun impossible => nomatch impossible
  | some decoded => exact fun impossible => nomatch impossible

/-- What is decoded at the front of a sequence of bytes is a canonical frame and nothing else, with
no regard to what follows. No part of a frame and no other frame is taken for it, and a reader by
position, which does not leave the sequence, reads the same. -/
theorem canonical_frames_are_decoded (bytes : Bytes) :
    (∀ decoded, decode? bytes = some decoded ↔
      decoded.size ≤ bytes.length ∧ decoded.size - lengthSize ≤ maxBody ∧
        InRange decoded.envelope ∧ encode decoded.envelope = .ok (bytes.take decoded.size)) ∧
    (∀ decoded, decode? bytes = some decoded →
      (∀ others, decode? (bytes.take decoded.size ++ others) = some decoded) ∧
        decoded.envelope.message.attestations.length ≤ 8190) ∧
    (∀ envelope, Spells envelope bytes →
      (∀ length < bytes.length, decode? (bytes.take length) = none) ∧
        ∀ other longer, Spells other longer → bytes <+: longer → bytes = longer) ∧
    scan bytes = .ofOption (decode? bytes) ∧ scan bytes ≠ .outside := by
  refine ⟨?_, ?_, ?_, scan_eq bytes, scan_ne_outside bytes⟩
  · intro decoded
    rw [decode?_eq_some_iff]
    constructor
    · rintro ⟨frame, rest, rfl, canonical, size⟩
      rw [size, List.take_left, List.length_append]
      exact ⟨Nat.le_add_right _ _, canonical.short, canonical.inRange, canonical.written⟩
    · rintro ⟨within, short, inRange, written⟩
      have size := List.length_take_of_le within
      refine ⟨bytes.take decoded.size, bytes.drop decoded.size,
        (List.take_append_drop _ _).symm, ⟨inRange, written, ?_⟩, size.symm⟩
      rwa [size]
  · intro decoded read
    obtain ⟨frame, rest, rfl, canonical, size⟩ := decode?_eq_some_iff.1 read
    rw [size, List.take_left]
    refine ⟨?_, (short_iff canonical.written).1 canonical.short⟩
    intro others
    exact decode?_eq_some_iff.2 ⟨frame, others, rfl, canonical, size⟩
  · intro envelope spells
    constructor
    · intro length cut
      apply spells.decode?_of_prefix (List.take_prefix _ _)
      rwa [List.length_take_of_le (Nat.le_of_lt cut)]
    · intro other longer spellsLonger begins
      exact (spells.eq_of_prefix spellsLonger begins).1

/-- Sender 1 wants view 7; two bytes of the next frame follow. -/
example :
    decode? [0, 0, 0, 12, 0, 0, 0, 1, 0, 0, 0, 2, 0, 0, 0, 7, 0, 0] =
      some ⟨⟨1, .viewChange 7⟩, 16⟩ := by
  decide

end Frame

end ViewSync
