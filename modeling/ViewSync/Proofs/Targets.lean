import Mathlib.Data.List.Basic
import ViewSync.Machine

/-!
What a target tells of an address.

The machine knows the target of a datagram as text: the host, a colon, and the port in digits. The
host may hold colons itself, but a port is written with digits alone, so that the last colon is the
one between them. No two addresses are the same target.
-/

namespace ViewSync

namespace Decimal

theorem toNat_digit {digit : Nat} (small : digit < 10) :
    (UInt8.ofNat (48 + digit)).toNat = 48 + digit := by
  rw [UInt8.toNat_ofNat']
  omega

theorem isDigit_digit {digit : Nat} (small : digit < 10) :
    isDigit (UInt8.ofNat (48 + digit)) = true := by
  simp only [isDigit, Bool.and_eq_true, decide_eq_true_eq, UInt8.le_iff_toNat_le,
    toNat_digit small]
  exact ⟨Nat.le_add_right 48 digit, by
    change 48 + digit ≤ 57
    omega⟩

theorem isDigit_of_mem_digits {value : Nat} {byte : UInt8} (written : byte ∈ digits value) :
    isDigit byte = true := by
  induction value using digits.induct with
  | case1 value small =>
      rw [digits, if_pos small] at written
      rw [List.mem_singleton.1 written]
      exact isDigit_digit small
  | case2 value large ih =>
      rw [digits, if_neg large] at written
      rcases List.mem_append.1 written with earlier | last
      · exact ih earlier
      · rw [List.mem_singleton.1 last]
        exact isDigit_digit (Nat.mod_lt value (by decide))

theorem valueOf_digits (value : Nat) : valueOf (digits value) = value := by
  induction value using digits.induct with
  | case1 value small =>
      rw [digits, if_pos small]
      change 10 * 0 + ((UInt8.ofNat (48 + value)).toNat - 48) = value
      rw [toNat_digit small]
      omega
  | case2 value large ih =>
      have last : value % 10 < 10 := Nat.mod_lt value (by decide)
      rw [digits, if_neg large, valueOf, List.foldl_append]
      change 10 * valueOf (digits (value / 10)) +
        ((UInt8.ofNat (48 + value % 10)).toNat - 48) = value
      rw [ih, toNat_digit last]
      omega

end Decimal

namespace Bytes

theorem eq_of_last_colon {first second left right : Bytes} (noneLeft : 58 ∉ left)
    (noneRight : 58 ∉ right) (same : first ++ 58 :: left = second ++ 58 :: right) :
    first = second ∧ left = right := by
  have apart : ∀ {between left right : Bytes}, 58 ∉ left →
      58 :: left = between ++ 58 :: right → between = [] ∧ left = right := by
    intro between left right none begins
    cases between with
    | nil => exact ⟨rfl, (List.cons.inj begins).2⟩
    | cons head tail =>
        refine absurd ?_ none
        rw [(List.cons.inj begins).2]
        exact List.mem_append_right tail List.mem_cons_self
  rcases List.append_eq_append_iff.1 same with ⟨between, longer, rest⟩ | ⟨between, longer, rest⟩
  · obtain ⟨rfl, equal⟩ := apart noneLeft rest
    exact ⟨(longer.trans (List.append_nil _)).symm, equal⟩
  · obtain ⟨rfl, equal⟩ := apart noneRight rest
    exact ⟨longer.trans (List.append_nil _), equal.symm⟩

end Bytes

namespace Address

theorem toBytes_eq (address : Address) :
    address.toBytes = address.host ++ 58 :: Decimal.digits address.port := by
  have colon : Bytes.ofString ":" = [58] := by decide
  have nonneg : ¬ (address.port : Int) < 0 := Int.not_lt.2 (Int.natCast_nonneg _)
  rw [toBytes, colon, Decimal.write, if_neg nonneg, Int.natAbs_natCast, List.append_assoc]
  rfl

theorem toBytes_injective : Function.Injective toBytes := by
  intro left right same
  have noColon : ∀ port, 58 ∉ Decimal.digits port := by
    intro port written
    cases Decimal.isDigit_of_mem_digits written
  rw [toBytes_eq, toBytes_eq] at same
  obtain ⟨host, digits⟩ := Bytes.eq_of_last_colon (noColon _) (noColon _) same
  have port := congrArg Decimal.valueOf digits
  rw [Decimal.valueOf_digits, Decimal.valueOf_digits] at port
  cases left
  cases right
  cases host
  cases port
  rfl

end Address

end ViewSync
