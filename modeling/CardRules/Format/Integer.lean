import CardRules.Format.Basic

/-!
# Integer formats

The fixed-width integers of the library, each with its range and the name that issues give it.
-/

namespace CardRules

namespace IntegerKind

/-- Signed numbers of 8 bits. -/
def int8 : IntegerKind Int8 where
  name := "i8"
  ofInt? n := if -128 ≤ n ∧ n ≤ 127 then some (Int8.ofInt n) else none
  toInt a := a.toInt
  ofInt?_toInt a := by
    have h : -128 ≤ a.toInt ∧ a.toInt ≤ 127 := ⟨Int8.le_toInt a, Int8.toInt_le a⟩
    simp only [h, and_self, if_true, Int8.ofInt_toInt]

/-- Signed numbers of 64 bits. -/
def int64 : IntegerKind Int64 where
  name := "i64"
  ofInt? n := if -0x8000000000000000 ≤ n ∧ n ≤ 0x7FFFFFFFFFFFFFFF then some (Int64.ofInt n) else none
  toInt a := a.toInt
  ofInt?_toInt a := by
    have h : -0x8000000000000000 ≤ a.toInt ∧ a.toInt ≤ 0x7FFFFFFFFFFFFFFF :=
      ⟨Int64.le_toInt a, Int64.toInt_le a⟩
    simp only [h, and_self, if_true, Int64.ofInt_toInt]

/-- Numbers of 8 bits without a sign. -/
def uint8 : IntegerKind UInt8 where
  name := "u8"
  ofInt? n := if 0 ≤ n ∧ n < 256 then some (UInt8.ofNat n.toNat) else none
  toInt a := a.toNat
  ofInt?_toInt a := by
    have h : (0 : Int) ≤ a.toNat ∧ (a.toNat : Int) < 256 := ⟨by omega, by have := a.toNat_lt; omega⟩
    simp only [h, and_self, if_true, Int.toNat_natCast, UInt8.ofNat_toNat]

/-- Numbers of 64 bits without a sign, under a name. -/
def uint64Called (name : String) : IntegerKind UInt64 where
  name := name
  ofInt? n := if 0 ≤ n ∧ n < 0x10000000000000000 then some (UInt64.ofNat n.toNat) else none
  toInt a := a.toNat
  ofInt?_toInt a := by
    have h : (0 : Int) ≤ a.toNat ∧ (a.toNat : Int) < 0x10000000000000000 :=
      ⟨by omega, by have := a.toNat_lt; omega⟩
    simp only [h, and_self, if_true, Int.toNat_natCast, UInt64.ofNat_toNat]

end IntegerKind

namespace Format

/-- Signed numbers of 8 bits. -/
def int8 : Format Int8 := .integer .int8

/-- Signed numbers of 64 bits. -/
def int64 : Format Int64 := .integer .int64

/-- Numbers of 8 bits without a sign. -/
def uint8 : Format UInt8 := .integer .uint8

/-- Numbers of 64 bits without a sign. -/
def uint64 : Format UInt64 := .integer (.uint64Called "u64")

/-- The sizes of things in memory, of 64 bits. -/
def size : Format UInt64 := .integer (.uint64Called "usize")

end Format

end CardRules
