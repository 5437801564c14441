import ViewSync.Text.Bytes

/-!
Decimal numbers in text. A number is written with the fewest digits and a minus sign when it is
negative. Reading is more liberal: blanks may stand before the number, one sign of either kind
may precede it, and leading zeros are allowed. What follows the number is left for the caller.
-/

namespace ViewSync

/-- The six blank bytes: tab, line feed, vertical tab, form feed, carriage return and space. -/
def isBlank (byte : UInt8) : Bool :=
  byte = 32 || (9 ≤ byte && byte ≤ 13)

namespace Decimal

def isDigit (byte : UInt8) : Bool :=
  48 ≤ byte && byte ≤ 57

def digits (value : Nat) : Bytes :=
  if value < 10 then [UInt8.ofNat (48 + value)]
  else digits (value / 10) ++ [UInt8.ofNat (48 + value % 10)]
termination_by value
decreasing_by omega

def write (value : Int) : Bytes :=
  if value < 0 then 45 :: digits value.natAbs else digits value.natAbs

def valueOf (run : Bytes) : Nat :=
  run.foldl (fun value digit => 10 * value + (digit.toNat - 48)) 0

structure Reading where
  negative : Bool
  magnitude : Nat
  rest : Bytes
deriving DecidableEq

def Reading.value (reading : Reading) : Int :=
  if reading.negative then -(reading.magnitude : Int) else reading.magnitude

/-- Reads digits of which there must be at least one. -/
def readMagnitude (negative : Bool) (text : Bytes) : Option Reading :=
  match text.takeWhile isDigit with
  | [] => none
  | first :: run => some ⟨negative, valueOf (first :: run), text.dropWhile isDigit⟩

/-- Reads blanks, at most one sign, and digits. -/
def read (text : Bytes) : Option Reading :=
  match text.dropWhile isBlank with
  | 43 :: unsigned => readMagnitude false unsigned
  | 45 :: unsigned => readMagnitude true unsigned
  | unsigned => readMagnitude false unsigned

def maxSigned : Nat := 9223372036854775807

def maxUnsigned : Nat := 18446744073709551615

/-- A text that is one integer of 64 bits with a sign and nothing after it. -/
def signed? (text : Bytes) : Option Int := do
  let reading ← read text
  if reading.rest = [] ∧ -(maxSigned : Int) - 1 ≤ reading.value ∧ reading.value ≤ maxSigned then
    some reading.value
  else
    none

/-- A text that is one integer of 64 bits without a sign and nothing after it. A minus sign is
allowed and takes the complement modulo 2^64; the magnitude must fit by itself. -/
def unsigned? (text : Bytes) : Option Nat := do
  let reading ← read text
  if reading.rest = [] ∧ reading.magnitude ≤ maxUnsigned then
    some (if reading.negative then (maxUnsigned + 1 - reading.magnitude) % (maxUnsigned + 1)
      else reading.magnitude)
  else
    none

end Decimal

end ViewSync
