import Mathlib.Algebra.Order.Field.Rat
import Mathlib.Data.Rat.Cast.Order
import Mathlib.Tactic.FieldSimp
import Mathlib.Tactic.Positivity
import Mathlib.Tactic.Ring

/-! The 128-bit decimal number format: a 96-bit integer coefficient with a sign,
divided by a power of ten of at most 28. A product is exact when it fits and is
otherwise rounded half to even at the largest scale that fits. -/
namespace MonitoringForDevOps.Library

structure Decimal where
  mantissa : Int
  scale : Nat
  mantissaFits : mantissa.natAbs < 2 ^ 96
  scaleFits : scale ≤ 28
  deriving DecidableEq

namespace Decimal

/- The number a representation stands for; 1.0 and 1.00 are different
representations of one value. -/
def value (d : Decimal) : ℚ := d.mantissa / 10 ^ d.scale

def zero : Decimal := ⟨0,0,by decide,by decide⟩

def ofInt32 (n : Int32) : Decimal where
  mantissa := n.toInt
  scale := 0
  mantissaFits := by have low := n.le_toInt; have high := n.toInt_lt; omega
  scaleFits := by decide

/- `m / 10^k` rounded to an integer, ties to even. -/
def roundShift (m : Int) (k : Nat) : Int :=
  let quotient := m.natAbs / 10 ^ k
  let remainder := m.natAbs % 10 ^ k
  let up := 10 ^ k < 2 * remainder ∨ (10 ^ k = 2 * remainder ∧ quotient % 2 = 1)
  m.sign * (if up then quotient + 1 else quotient : Nat)

def fit (m : Int) (s : Nat) : Option Decimal :=
  (List.range (s + 1)).findSome? fun k =>
    if fits : (roundShift m k).natAbs < 2 ^ 96 ∧ s - k ≤ 28 then
      some ⟨roundShift m k,s - k,fits.1,fits.2⟩
    else none

/- `none` stands for the overflow exception. -/
def mul (a b : Decimal) : Option Decimal := fit (a.mantissa * b.mantissa) (a.scale + b.scale)

theorem roundShiftZero (m : Int) : roundShift m 0 = m := by
  have whole : m.sign * (m.natAbs : ℤ) = m := Int.sign_mul_natAbs m
  simpa [roundShift, Nat.mod_one] using whole

theorem mulExact {a b : Decimal} (mantissa : (a.mantissa * b.mantissa).natAbs < 2 ^ 96)
    (scale : a.scale + b.scale ≤ 28) :
    mul a b = some ⟨a.mantissa * b.mantissa,a.scale + b.scale,mantissa,scale⟩ := by
  have head : List.range (a.scale + b.scale + 1) =
      0 :: (List.range (a.scale + b.scale)).map Nat.succ := List.range_succ_eq_map
  have first : (roundShift (a.mantissa * b.mantissa) 0).natAbs < 2 ^ 96 ∧
      a.scale + b.scale - 0 ≤ 28 := by
    rw [roundShiftZero]; exact ⟨mantissa,scale⟩
  unfold mul fit
  rw [head, List.findSome?_cons, dif_pos first]
  simp only [roundShiftZero, Nat.sub_zero]

theorem valueMul {a b c : Decimal} (mantissa : c.mantissa = a.mantissa * b.mantissa)
    (scale : c.scale = a.scale + b.scale) : c.value = a.value * b.value := by
  simp only [value, mantissa, scale, Int.cast_mul, pow_add]
  field_simp

theorem valueOfInt32 (n : Int32) : (ofInt32 n).value = n.toInt := by
  simp [value, ofInt32]

/- A coefficient below 2^65 at a scale of at most 28 can be multiplied by any
int: the product is exact, without rounding and without overflow. -/
theorem mulInt32 (a : Decimal) (n : Int32) (small : a.mantissa.natAbs < 2 ^ 65) :
    ∃ c, mul a (ofInt32 n) = some c ∧ c.value = a.value * n.toInt := by
  have bound : (ofInt32 n).mantissa.natAbs ≤ 2 ^ 31 := by
    have low := n.le_toInt
    have high := n.toInt_lt
    simp only [ofInt32]
    omega
  have product : (a.mantissa * (ofInt32 n).mantissa).natAbs < 2 ^ 96 := by
    rw [Int.natAbs_mul]
    calc a.mantissa.natAbs * (ofInt32 n).mantissa.natAbs
        ≤ a.mantissa.natAbs * 2 ^ 31 := Nat.mul_le_mul_left _ bound
      _ < 2 ^ 65 * 2 ^ 31 := Nat.mul_lt_mul_of_pos_right small (by decide)
      _ = 2 ^ 96 := by norm_num
  refine ⟨_,mulExact product (by simpa [ofInt32] using a.scaleFits),?_⟩
  rw [← valueOfInt32]
  exact valueMul rfl rfl

theorem valuePos {d : Decimal} (h : 0 < d.mantissa) : 0 < d.value := by
  have cast : (0 : ℚ) < d.mantissa := by exact_mod_cast h
  unfold value
  positivity

end Decimal
end MonitoringForDevOps.Library
