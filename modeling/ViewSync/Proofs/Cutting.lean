import Mathlib.Data.List.TakeWhile
import ViewSync.Proofs.Targets
import ViewSync.Text.Segments

/-!
Cutting text apart undoes putting it together.

A text is cut at every byte that separates, so the parts of two texts with such a byte between them
are the parts of the one and then those of the other. Lines that hold no line feed come back as they
were written, whether or not the last one is ended, and words come back whatever blanks stand around
and between them. What follows the last colon, and a number in digits, are read back as well.
-/

namespace ViewSync

namespace Bytes

variable {separates : UInt8 → Bool} {byte : UInt8} {text left right gap part word : Bytes}

/-! ### Segments -/

theorem segments_cons_of_separates (cut : separates byte = true) :
    segments separates (byte :: text) = [] :: segments separates text := by
  rw [segments, List.foldr_cons, if_pos cut]
  rfl

theorem exists_segments (separates : UInt8 → Bool) (text : Bytes) :
    ∃ first rest, segments separates text = first :: rest := by
  cases text with
  | nil => exact ⟨[], [], rfl⟩
  | cons head tail =>
      rw [segments, List.foldr_cons]
      split
      · exact ⟨_, _, rfl⟩
      · split
        · exact ⟨_, _, rfl⟩
        · exact ⟨_, _, rfl⟩

theorem segments_cons_of_not_separates (kept : ¬ separates byte = true) (text : Bytes) :
    ∃ first rest, segments separates text = first :: rest ∧
      segments separates (byte :: text) = (byte :: first) :: rest := by
  obtain ⟨first, rest, parts⟩ := exists_segments separates text
  refine ⟨first, rest, parts, ?_⟩
  rw [segments] at parts ⊢
  rw [List.foldr_cons, if_neg kept, parts]

theorem segments_append_cons (cut : separates byte = true) :
    segments separates (left ++ byte :: right) =
      segments separates left ++ segments separates right := by
  induction left with
  | nil => exact segments_cons_of_separates cut
  | cons head tail ih =>
      by_cases cutHead : separates head = true
      · rw [List.cons_append, segments_cons_of_separates cutHead,
          segments_cons_of_separates cutHead, ih, List.cons_append]
      · obtain ⟨first, rest, parts, extended⟩ :=
          segments_cons_of_not_separates cutHead tail
        obtain ⟨longer, others, whole, result⟩ :=
          segments_cons_of_not_separates cutHead (tail ++ byte :: right)
        -- the head joins the first part on both sides
        rw [ih, parts, List.cons_append] at whole
        obtain ⟨rfl, rfl⟩ := List.cons.inj whole
        rw [List.cons_append, result, extended, List.cons_append]

theorem segments_of_uncut (uncut : ∀ byte ∈ text, ¬ separates byte = true) :
    segments separates text = [text] := by
  induction text with
  | nil => rfl
  | cons head tail ih =>
      obtain ⟨first, rest, parts, extended⟩ :=
        segments_cons_of_not_separates (uncut head List.mem_cons_self) tail
      rw [ih fun byte later => uncut byte (List.mem_cons_of_mem head later)] at parts
      obtain ⟨rfl, rfl⟩ := List.cons.inj parts
      exact extended

theorem not_separates_of_mem_segments (listed : part ∈ segments separates text) :
    ∀ byte ∈ part, ¬ separates byte = true := by
  induction text generalizing part with
  | nil =>
      rw [List.mem_singleton.1 listed]
      exact fun _ within => absurd within List.not_mem_nil
  | cons head tail ih =>
      by_cases cut : separates head = true
      · rw [segments_cons_of_separates cut] at listed
        rcases List.mem_cons.1 listed with empty | later
        · rw [empty]
          exact fun _ within => absurd within List.not_mem_nil
        · exact ih later
      · obtain ⟨first, rest, parts, extended⟩ := segments_cons_of_not_separates cut tail
        rw [extended] at listed
        rw [parts] at ih
        rcases List.mem_cons.1 listed with longer | later
        · rw [longer, List.forall_mem_cons]
          exact ⟨cut, ih List.mem_cons_self⟩
        · exact ih (List.mem_cons_of_mem first later)

/-! ### Lines -/

theorem lines_append_cons (left right : Bytes) :
    lines (left ++ 10 :: right) = lines left ++ lines right :=
  segments_append_cons rfl

theorem lines_of_not_mem (whole : 10 ∉ text) : lines text = [text] := by
  apply segments_of_uncut
  intro byte listed feed
  cases of_decide_eq_true feed
  exact whole listed

/-- Lines each of which is ended come back, and after them an empty one. -/
theorem lines_flatten {lines : List Bytes} (whole : ∀ line ∈ lines, 10 ∉ line) :
    Bytes.lines (lines.map (· ++ [10])).flatten = lines ++ [[]] := by
  induction lines with
  | nil => rfl
  | cons first rest ih =>
      have later := ih fun line listed => whole line (List.mem_cons_of_mem first listed)
      rw [List.map_cons, List.flatten_cons, List.append_assoc, List.singleton_append,
        lines_append_cons, lines_of_not_mem (whole first List.mem_cons_self), later]
      rfl

/-- Lines come back when the last one is not ended, too. -/
theorem lines_intercalate {lines : List Bytes} (present : lines ≠ [])
    (whole : ∀ line ∈ lines, 10 ∉ line) : Bytes.lines ([10].intercalate lines) = lines := by
  induction lines with
  | nil => exact absurd rfl present
  | cons first rest ih =>
      have alone := lines_of_not_mem (whole first List.mem_cons_self)
      cases rest with
      | nil => rwa [List.intercalate_singleton]
      | cons second others =>
          have later := ih (List.cons_ne_nil second others)
            fun line listed => whole line (List.mem_cons_of_mem first listed)
          rw [List.intercalate_cons_cons, List.append_assoc, List.singleton_append,
            lines_append_cons, alone, later, List.singleton_append]

/-! ### Words -/

def Gap (text : Bytes) : Prop :=
  ∀ byte ∈ text, isBlank byte = true ∧ byte ≠ 10

instance (text : Bytes) : Decidable (Gap text) :=
  inferInstanceAs (Decidable (∀ byte ∈ text, _))

structure Solid (text : Bytes) : Prop where
  present : text ≠ []
  full : ∀ byte ∈ text, ¬ isBlank byte = true

theorem solid_iff : (!text.isEmpty && text.all (!isBlank ·)) = true ↔ Solid text := by
  simp only [Bool.and_eq_true, Bool.not_eq_true', List.isEmpty_eq_false_iff, List.all_eq_true]
  constructor
  · rintro ⟨present, full⟩
    exact ⟨present, fun byte listed => Bool.eq_false_iff.1 (full byte listed)⟩
  · rintro ⟨present, full⟩
    exact ⟨present, fun byte listed => Bool.eq_false_iff.2 (full byte listed)⟩

instance (text : Bytes) : Decidable (Solid text) :=
  decidable_of_iff _ solid_iff

theorem words_append_cons (blank : isBlank byte = true) (left right : Bytes) :
    words (left ++ byte :: right) = words left ++ words right := by
  rw [words, words, words, segments_append_cons blank, List.filter_append]

theorem words_of_solid (solid : Solid text) : words text = [text] := by
  rw [words, segments_of_uncut solid.full, List.filter_cons_of_pos, List.filter_nil]
  exact decide_eq_true solid.present

theorem words_gap_append (blank : Gap gap) (text : Bytes) : words (gap ++ text) = words text := by
  induction gap with
  | nil => rfl
  | cons head tail ih =>
      have first := words_append_cons (blank head List.mem_cons_self).1 [] (tail ++ text)
      exact first.trans (ih fun byte later => blank byte (List.mem_cons_of_mem head later))

/-- Two texts with a gap between them have the words of both. -/
theorem words_append_gap_append (blank : Gap gap) (present : gap ≠ []) (left right : Bytes) :
    words (left ++ (gap ++ right)) = words left ++ words right := by
  cases gap with
  | nil => exact absurd rfl present
  | cons head tail =>
      have rest : Gap tail := fun byte later => blank byte (List.mem_cons_of_mem head later)
      rw [List.cons_append, words_append_cons (blank head List.mem_cons_self).1,
        words_gap_append rest]

theorem words_append_gap (blank : Gap gap) (text : Bytes) : words (text ++ gap) = words text := by
  cases gap with
  | nil => rw [List.append_nil]
  | cons head tail =>
      have nothing : words ((head :: tail) ++ []) = [] := words_gap_append blank []
      have cut := words_append_gap_append blank (List.cons_ne_nil head tail) text []
      rw [List.append_nil] at cut
      exact cut.trans (List.append_nil _)

theorem words_cons_of_not_blank (full : ¬ isBlank byte = true) (text : Bytes) :
    ∃ word others, words (byte :: text) = (byte :: word) :: others := by
  obtain ⟨first, rest, -, extended⟩ := segments_cons_of_not_separates full text
  refine ⟨first, rest.filter (· ≠ []), ?_⟩
  rw [words, extended, List.filter_cons_of_pos]
  exact decide_eq_true (List.cons_ne_nil byte first)

theorem solid_of_mem_words (listed : word ∈ text.words) : Solid word := by
  obtain ⟨within, present⟩ := List.mem_filter.1 listed
  exact ⟨of_decide_eq_true present, not_separates_of_mem_segments within⟩

/-! ### The last colon -/

theorem atLastColon?_append_cons (before : Bytes) {after : Bytes} (none : 58 ∉ after) :
    atLastColon? (before ++ 58 :: after) = some (before, after) := by
  have apart : ∀ byte ∈ after.reverse, decide (byte ≠ 58) = true := by
    intro byte listed
    refine decide_eq_true ?_
    rintro rfl
    exact none (List.mem_reverse.1 listed)
  have reversed : (before ++ 58 :: after).reverse = after.reverse ++ 58 :: before.reverse := by
    simp
  rw [atLastColon?, reversed, List.dropWhile_append_of_pos apart,
    List.takeWhile_append_of_pos apart]
  simp

theorem exists_last_colon (colon : 58 ∈ text) :
    ∃ before after, text = before ++ 58 :: after ∧ 58 ∉ after := by
  obtain ⟨after, before, whole, none⟩ :=
    List.eq_append_cons_of_mem (List.mem_reverse.2 colon)
  refine ⟨before.reverse, after.reverse, ?_, fun listed => none (List.mem_reverse.1 listed)⟩
  rw [← List.reverse_reverse text, whole]
  simp

theorem atLastColon?_eq_none (absent : 58 ∉ text) : atLastColon? text = none := by
  have apart : ∀ byte ∈ text.reverse, decide (byte ≠ 58) = true := by
    intro byte listed
    exact decide_eq_true fun same => absent (same ▸ List.mem_reverse.1 listed)
  rw [atLastColon?, List.dropWhile_eq_nil_iff.2 apart]

end Bytes

namespace Decimal

theorem not_isBlank_of_isDigit {byte : UInt8} (digit : isDigit byte = true) :
    ¬ isBlank byte = true := by
  simp only [isDigit, isBlank, Bool.and_eq_true, Bool.or_eq_true, decide_eq_true_eq,
    UInt8.le_iff_toNat_le, ← UInt8.toNat_inj] at digit ⊢
  change 48 ≤ byte.toNat ∧ byte.toNat ≤ 57 at digit
  change ¬ (byte.toNat = 32 ∨ 9 ≤ byte.toNat ∧ byte.toNat ≤ 13)
  omega

theorem read_of_digits {text : Bytes} (present : text ≠ [])
    (digits : ∀ byte ∈ text, isDigit byte = true) :
    Decimal.read text = some ⟨false, valueOf text, []⟩ := by
  cases text with
  | nil => exact absurd rfl present
  | cons first rest =>
      have digit := digits first List.mem_cons_self
      have stripped : (first :: rest).dropWhile isBlank = first :: rest :=
        List.dropWhile_cons_of_neg (not_isBlank_of_isDigit digit)
      have taken : (first :: rest).takeWhile isDigit = first :: rest :=
        List.takeWhile_eq_self_iff.2 digits
      have left : (first :: rest).dropWhile isDigit = [] := List.dropWhile_eq_nil_iff.2 digits
      rw [Decimal.read, stripped]
      split
      · next plus =>
          cases (List.cons.inj plus).1
          cases digit
      · next minus =>
          cases (List.cons.inj minus).1
          cases digit
      · rw [readMagnitude, taken, left]

theorem digits_ne_nil (value : Nat) : digits value ≠ [] := by
  rw [digits]
  split
  · exact List.cons_ne_nil _ _
  · exact List.append_ne_nil_of_right_ne_nil _ (List.cons_ne_nil _ _)

theorem unsigned?_digits {value : Nat} (small : value ≤ maxUnsigned) :
    unsigned? (digits value) = some value := by
  have read := read_of_digits (digits_ne_nil value) fun _ => isDigit_of_mem_digits
  rw [unsigned?, read, valueOf_digits]
  exact if_pos ⟨rfl, small⟩

end Decimal

end ViewSync
