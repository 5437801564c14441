import ViewSync.Text.Bytes

/-!
Words of 32 bits without a sign, most significant byte first.
-/

namespace ViewSync.Word

def count : Nat := 4294967296

/-- The four bytes of a number; of a number that is no word, those of its remainder by `count`. -/
def toBytes (value : Nat) : Bytes :=
  [UInt8.ofNat (value / 16777216), UInt8.ofNat (value / 65536), UInt8.ofNat (value / 256),
    UInt8.ofNat value]

def ofBytes (first second third fourth : UInt8) : Nat :=
  ((first.toNat * 256 + second.toNat) * 256 + third.toNat) * 256 + fourth.toNat

theorem length_toBytes (value : Nat) : (toBytes value).length = 4 :=
  rfl

theorem ofBytes_toBytes {value : Nat} (word : value < count) :
    ofBytes (UInt8.ofNat (value / 16777216)) (UInt8.ofNat (value / 65536))
      (UInt8.ofNat (value / 256)) (UInt8.ofNat value) = value := by
  simp only [count] at word
  simp only [ofBytes, UInt8.toNat_ofNat']
  omega

/-- Cuts bytes into words. There is no answer if some bytes are left over. -/
def split? : Bytes → Option (List Nat)
  | [] => some []
  | first :: second :: third :: fourth :: rest =>
      (split? rest).map (ofBytes first second third fourth :: ·)
  | _ => none

end ViewSync.Word
