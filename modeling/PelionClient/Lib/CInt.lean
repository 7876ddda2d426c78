import Mathlib.Algebra.Group.Int.Defs
import Mathlib.Algebra.Group.Nat.Defs

/-!
# Sums of C integers

`int`, `unsigned int`, `long long` and `unsigned long long`, where `int` has 32 bits and `long long` has 64; `long` is the
one of its width. A value has a type and lies in its range (`CInt`). Operands are brought to their common type before they
are added, and the sum wraps in that type, as compilers fold it also where the language leaves the overflow of a signed type
open. The sum as an `unsigned long long` is then that of the operands as such only if the common type is wide
(`toNat_add_wide`, `toNat_add_unsignedInt`, `toNat_add_int`).
-/

namespace PelionClient.Lib

/-- The types of C that arithmetic is done in. -/
inductive CType
  | int
  | unsignedInt
  | longLong
  | unsignedLongLong
deriving DecidableEq, Repr

def CType.bits : CType → Nat
  | .int | .unsignedInt => 32
  | .longLong | .unsignedLongLong => 64

/-- The least value. -/
def CType.low : CType → Int
  | .int => -2 ^ 31
  | .longLong => -2 ^ 63
  | .unsignedInt | .unsignedLongLong => 0

/-- The type of a sum. -/
def CType.common : CType → CType → CType
  | .unsignedLongLong, _ | _, .unsignedLongLong => .unsignedLongLong
  | .longLong, _ | _, .longLong => .longLong
  | .unsignedInt, _ | _, .unsignedInt => .unsignedInt
  | .int, .int => .int

/-- The value of the type that is congruent to `z`. -/
def CType.wrap (t : CType) (z : Int) : Int := (z - t.low) % 2 ^ t.bits + t.low

/-- A value of one of the types. -/
structure CInt where
  type : CType
  val : Int
  low_le : type.low ≤ val
  val_lt : val < type.low + 2 ^ type.bits
deriving DecidableEq, Repr

theorem CType.low_le_wrap (t : CType) (z : Int) : t.low ≤ t.wrap z := by
  have hpos : 0 ≤ (z - t.low) % 2 ^ t.bits := Int.emod_nonneg _ (by cases t <;> decide)
  unfold CType.wrap
  omega

theorem CType.wrap_lt (t : CType) (z : Int) : t.wrap z < t.low + 2 ^ t.bits := by
  have hlt : (z - t.low) % 2 ^ t.bits < 2 ^ t.bits := Int.emod_lt_of_pos _ (by cases t <;> decide)
  unfold CType.wrap
  omega

/-- The conversion to a type. -/
def CType.convert (t : CType) (z : Int) : CInt := ⟨t, t.wrap z, t.low_le_wrap z, t.wrap_lt z⟩

/-- The sum. -/
def CInt.add (a b : CInt) : CInt :=
  let t := a.type.common b.type
  t.convert ((t.convert a.val).val + (t.convert b.val).val)

/-- The conversion to `uint64_t`. -/
def CInt.toUInt64 (a : CInt) : UInt64 := .ofInt a.val

/-! ## The sum of two values -/

/-- The operands need not be converted before a sum that wraps. -/
theorem CInt.val_add (a b : CInt) : (a.add b).val = (a.type.common b.type).wrap (a.val + b.val) := by
  show CType.wrap _ (CType.wrap _ a.val + CType.wrap _ b.val) = _
  cases a.type.common b.type <;> simp only [CType.wrap, CType.low, CType.bits] <;> omega

theorem CInt.toNat_toUInt64 (a : CInt) : (a.toUInt64.toNat : Int) = a.val % 2 ^ 64 := by
  have hlt : a.val % 2 ^ 64 < 2 ^ 64 := Int.emod_lt_of_pos _ (by decide)
  have hpos : 0 ≤ a.val % 2 ^ 64 := Int.emod_nonneg _ (by decide)
  unfold CInt.toUInt64 UInt64.ofInt
  rw [UInt64.toNat_ofNat']
  omega

/-- The operands of an `int` sum are `int`s. -/
theorem CType.common_eq_int {t u : CType} (h : t.common u = .int) : t = .int ∧ u = .int := by
  cases t <;> cases u <;> simp_all [CType.common]

/-- Those of an `unsigned int` sum are `int`s or `unsigned int`s. -/
theorem CType.common_eq_unsignedInt {t u : CType} (h : t.common u = .unsignedInt) :
    (t = .int ∨ t = .unsignedInt) ∧ (u = .int ∨ u = .unsignedInt) := by
  cases t <;> cases u <;> simp_all [CType.common]

/-- An `int` is small, or its conversion is large. -/
theorem CInt.toNat_of_int {a : CInt} (h : a.type = .int) :
    a.toUInt64.toNat < 2 ^ 31 ∨ 2 ^ 64 - 2 ^ 31 ≤ a.toUInt64.toNat := by
  obtain ⟨t, v, hlow, hlt⟩ := a
  cases h
  have hval := CInt.toNat_toUInt64 ⟨.int, v, hlow, hlt⟩
  simp only [CType.low, CType.bits] at hlow hlt hval
  omega

/-- So is an `int` or `unsigned int`. -/
theorem CInt.toNat_of_narrow {a : CInt} (h : a.type = .int ∨ a.type = .unsignedInt) :
    a.toUInt64.toNat < 2 ^ 32 ∨ 2 ^ 64 - 2 ^ 31 ≤ a.toUInt64.toNat := by
  rcases h with h | h
  · have hint := toNat_of_int h
    omega
  · obtain ⟨t, v, hlow, hlt⟩ := a
    cases h
    have hval := CInt.toNat_toUInt64 ⟨.unsignedInt, v, hlow, hlt⟩
    simp only [CType.low, CType.bits] at hlow hlt hval
    omega

section Sums

variable {a b : CInt}

/-- **A wide sum** is that of the converted operands. -/
theorem CInt.toNat_add_wide (h : (a.type.common b.type).bits = 64) :
    (a.add b).toUInt64.toNat = (a.toUInt64.toNat + b.toUInt64.toNat) % 2 ^ 64 := by
  have ha := a.toNat_toUInt64
  have hb := b.toNat_toUInt64
  have hsum := (a.add b).toNat_toUInt64
  rw [CInt.val_add, CType.wrap, h] at hsum
  omega

/-- **An `unsigned int` sum** loses the carry out of 32 bits. -/
theorem CInt.toNat_add_unsignedInt (h : a.type.common b.type = .unsignedInt) :
    (a.add b).toUInt64.toNat = (a.toUInt64.toNat + b.toUInt64.toNat) % 2 ^ 32 := by
  have ha := a.toNat_toUInt64
  have hb := b.toNat_toUInt64
  have hsum := (a.add b).toNat_toUInt64
  rw [CInt.val_add, h] at hsum
  simp only [CType.wrap, CType.low, CType.bits] at hsum
  omega

/-- **An `int` sum** loses it too, and is extended with its sign. -/
theorem CInt.toNat_add_int (h : a.type.common b.type = .int) :
    (a.add b).toUInt64.toNat = (a.toUInt64.toNat + b.toUInt64.toNat) % 2 ^ 32 +
      if (a.toUInt64.toNat + b.toUInt64.toNat) % 2 ^ 32 < 2 ^ 31 then 0 else 2 ^ 64 - 2 ^ 32 := by
  have ha := a.toNat_toUInt64
  have hb := b.toNat_toUInt64
  have hsum := (a.add b).toNat_toUInt64
  rw [CInt.val_add, h] at hsum
  simp only [CType.wrap, CType.low, CType.bits] at hsum
  split <;> omega

end Sums

end PelionClient.Lib
