import Mathlib.Data.List.Induction
import Mathlib.Data.List.TakeWhile
import Mathlib.Data.Nat.Digits.Defs
import ViewSync.Proofs.Cutting

/-!
The number that a text denotes.

A text denotes a number if it is blanks, at most one sign and decimal digits, however many. What is
read from it is that number, as long as it fits: a number of 64 bits without a sign is refused if it
is too large, but if there is a minus sign it is taken modulo 2^64.
-/

namespace ViewSync

namespace Decimal

/-! ### What is denoted -/

structure Numeral (run : Bytes) (magnitude : Nat) : Prop where
  present : run ≠ []
  digits : ∀ byte ∈ run, isDigit byte = true
  value : magnitude = Nat.ofDigits 10 (run.reverse.map fun digit => digit.toNat - 48)

/-- The number that a text denotes, whatever its size: blanks, at most one sign and digits. -/
inductive Denotes : Bytes → Int → Prop
  | bare {gap run : Bytes} {magnitude : Nat} (blank : ∀ byte ∈ gap, isBlank byte = true)
      (numeral : Numeral run magnitude) : Denotes (gap ++ run) magnitude
  | plus {gap run : Bytes} {magnitude : Nat} (blank : ∀ byte ∈ gap, isBlank byte = true)
      (numeral : Numeral run magnitude) : Denotes (gap ++ 43 :: run) magnitude
  | minus {gap run : Bytes} {magnitude : Nat} (blank : ∀ byte ∈ gap, isBlank byte = true)
      (numeral : Numeral run magnitude) : Denotes (gap ++ 45 :: run) (-magnitude)

variable {text run : Bytes} {magnitude number : Nat} {negative : Bool} {value : Int}

theorem valueOf_eq_ofDigits (run : Bytes) :
    valueOf run = Nat.ofDigits 10 (run.reverse.map fun digit => digit.toNat - 48) := by
  induction run using List.reverseRecOn with
  | nil => rfl
  | append_singleton earlier last ih =>
      rw [List.reverse_append, List.reverse_singleton, List.singleton_append, List.map_cons,
        Nat.ofDigits_cons, ← ih, valueOf, List.foldl_append]
      exact Nat.add_comm _ _

/-! ### What is read -/

theorem readMagnitude_of_numeral (numeral : Numeral run magnitude) (negative : Bool) :
    readMagnitude negative run = some ⟨negative, magnitude, []⟩ := by
  have taken : run.takeWhile isDigit = run := List.takeWhile_eq_self_iff.2 numeral.digits
  have left : run.dropWhile isDigit = [] := List.dropWhile_eq_nil_iff.2 numeral.digits
  rw [numeral.value, ← valueOf_eq_ofDigits, readMagnitude, taken, left]
  cases run with
  | nil => exact absurd rfl numeral.present
  | cons first rest => rfl

theorem numeral_of_readMagnitude {reading : Reading}
    (read : readMagnitude negative run = some reading) (all : reading.rest = []) :
    reading.negative = negative ∧ Numeral run reading.magnitude := by
  unfold readMagnitude at read
  split at read
  · cases read
  · next first rest taken =>
      cases read
      have digits := List.dropWhile_eq_nil_iff.1 all
      have whole : run = first :: rest := by
        rw [← taken, List.takeWhile_eq_self_iff.2 digits]
      refine ⟨rfl, ?_, digits, ?_⟩
      · rw [whole]
        exact List.cons_ne_nil first rest
      · rw [whole]
        exact valueOf_eq_ofDigits _

theorem read_gap_append {gap : Bytes} (blank : ∀ byte ∈ gap, isBlank byte = true)
    (text : Bytes) : Decimal.read (gap ++ text) = Decimal.read text := by
  rw [Decimal.read, Decimal.read, List.dropWhile_append_of_pos blank]

theorem read_of_denotes (denotes : Denotes text value) :
    ∃ reading, Decimal.read text = some reading ∧ reading.rest = [] ∧ reading.value = value := by
  cases denotes with
  | bare blank numeral =>
      have read := read_of_digits numeral.present numeral.digits
      rw [valueOf_eq_ofDigits, ← numeral.value] at read
      exact ⟨_, (read_gap_append blank _).trans read, rfl, rfl⟩
  | plus blank numeral =>
      have read := readMagnitude_of_numeral numeral false
      exact ⟨_, (read_gap_append blank _).trans read, rfl, rfl⟩
  | minus blank numeral =>
      have read := readMagnitude_of_numeral numeral true
      exact ⟨_, (read_gap_append blank _).trans read, rfl, rfl⟩

theorem denotes_of_read {reading : Reading} (read : Decimal.read text = some reading)
    (all : reading.rest = []) : Denotes text reading.value := by
  have whole : text.takeWhile isBlank ++ text.dropWhile isBlank = text :=
    List.takeWhile_append_dropWhile
  have blank : ∀ byte ∈ text.takeWhile isBlank, isBlank byte = true :=
    fun _ => List.mem_takeWhile_imp
  rw [← whole]
  unfold Decimal.read at read
  unfold Reading.value
  split at read
  · next unsigned stripped =>
      obtain ⟨sign, numeral⟩ := numeral_of_readMagnitude read all
      rw [stripped, sign]
      exact .plus blank numeral
  · next unsigned stripped =>
      obtain ⟨sign, numeral⟩ := numeral_of_readMagnitude read all
      rw [stripped, sign]
      exact .minus blank numeral
  · obtain ⟨sign, numeral⟩ := numeral_of_readMagnitude read all
    rw [sign]
    exact .bare blank numeral

theorem Denotes.unique {other : Int} (denotes : Denotes text value)
    (denotesOther : Denotes text other) : value = other := by
  obtain ⟨reading, read, -, rfl⟩ := read_of_denotes denotes
  obtain ⟨readingOther, readOther, -, rfl⟩ := read_of_denotes denotesOther
  cases read.symm.trans readOther
  rfl

/-! ### The ends of a number -/

theorem Numeral.last (numeral : Numeral run magnitude) :
    ∃ digit, run.getLast? = some digit ∧ isDigit digit = true := by
  cases last : run.getLast? with
  | none => exact absurd (List.getLast?_eq_none_iff.1 last) numeral.present
  | some digit => exact ⟨digit, rfl, numeral.digits digit (List.mem_of_getLast? last)⟩

theorem Denotes.last (denotes : Denotes text value) :
    ∃ digit, text.getLast? = some digit ∧ isDigit digit = true := by
  cases denotes with
  | bare blank numeral =>
      obtain ⟨digit, last, isDigit⟩ := numeral.last
      rw [List.getLast?_append, last]
      exact ⟨digit, rfl, isDigit⟩
  | plus blank numeral =>
      obtain ⟨digit, last, isDigit⟩ := numeral.last
      rw [List.getLast?_append, List.getLast?_cons, last]
      exact ⟨digit, rfl, isDigit⟩
  | minus blank numeral =>
      obtain ⟨digit, last, isDigit⟩ := numeral.last
      rw [List.getLast?_append, List.getLast?_cons, last]
      exact ⟨digit, rfl, isDigit⟩

theorem Numeral.first {byte : UInt8} {rest : Bytes} (numeral : Numeral (byte :: rest) magnitude) :
    isDigit byte = true :=
  numeral.digits byte List.mem_cons_self

/-- What begins with a minus sign denotes no number above zero. -/
theorem Denotes.not_positive (denotes : Denotes text value) (minus : text.head? = some 45) :
    value ≤ 0 := by
  have noBlank : ¬ isBlank 45 = true := by decide
  have noDigit : ¬ isDigit 45 = true := by decide
  cases denotes with
  | @bare gap run magnitude blank numeral =>
      cases gap with
      | nil =>
          cases run with
          | nil => cases minus
          | cons byte rest => exact absurd (Option.some.inj minus ▸ numeral.first) noDigit
      | cons byte rest =>
          exact absurd (Option.some.inj minus ▸ blank byte List.mem_cons_self) noBlank
  | @plus gap run magnitude blank numeral =>
      cases gap with
      | nil => cases minus
      | cons byte rest =>
          exact absurd (Option.some.inj minus ▸ blank byte List.mem_cons_self) noBlank
  | minus => exact Int.neg_nonpos_of_nonneg (Int.natCast_nonneg _)

/-- Where no blanks come before it, a number below zero begins with a minus sign. -/
theorem Denotes.minus_first (denotes : Denotes text value)
    (full : ∀ byte ∈ text, ¬ isBlank byte = true) (negative : value < 0) :
    text.head? = some 45 := by
  cases denotes with
  | bare => exact absurd (Int.natCast_nonneg _) (Int.not_le.2 negative)
  | plus => exact absurd (Int.natCast_nonneg _) (Int.not_le.2 negative)
  | @minus gap run magnitude blank numeral =>
      cases gap with
      | nil => rfl
      | cons byte rest =>
          exact absurd (blank byte List.mem_cons_self) (full byte List.mem_cons_self)

/-! ### Numbers without a sign -/

namespace Reading

variable {reading : Reading}

theorem natAbs_value (reading : Reading) : reading.value.natAbs = reading.magnitude := by
  unfold value
  split
  · exact Int.natAbs_neg _
  · exact Int.natAbs_natCast _

/-- The complement that a minus sign stands for is the negative number modulo 2^64. -/
theorem complement_eq_emod (fits : reading.magnitude ≤ maxUnsigned) :
    ((if reading.negative then (maxUnsigned + 1 - reading.magnitude) % (maxUnsigned + 1)
      else reading.magnitude : Nat) : Int) = reading.value % 18446744073709551616 := by
  unfold maxUnsigned at fits ⊢
  unfold value
  split
  · omega
  · omega

end Reading

theorem unsigned?_eq_some_iff : unsigned? text = some number ↔
    ∃ value, Denotes text value ∧ value.natAbs ≤ 18446744073709551615 ∧
      (number : Int) = value % 18446744073709551616 := by
  unfold unsigned?
  constructor
  · intro accepted
    obtain ⟨reading, read, rest⟩ := Option.bind_eq_some_iff.1 accepted
    split at rest
    · next whole =>
        obtain ⟨all, fits⟩ := whole
        cases rest
        have small : reading.value.natAbs ≤ 18446744073709551615 := by
          rw [reading.natAbs_value]
          exact fits
        exact ⟨reading.value, denotes_of_read read all, small, Reading.complement_eq_emod fits⟩
    · cases rest
  · intro denoted
    obtain ⟨value, denotes, small, same⟩ := denoted
    obtain ⟨reading, read, all, rfl⟩ := read_of_denotes denotes
    rw [reading.natAbs_value] at small
    have whole : reading.rest = [] ∧ reading.magnitude ≤ maxUnsigned := ⟨all, small⟩
    rw [← Reading.complement_eq_emod small] at same
    refine Option.bind_eq_some_iff.2 ⟨reading, read, ?_⟩
    rw [if_pos whole, Int.ofNat_inj.1 same]

end Decimal

end ViewSync
