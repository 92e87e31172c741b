import Mathlib.Data.Int.Init

/-! Exactness of wrapping 32-bit subtraction and addition: when the machine
result is the integer result, and what its sign test then says. -/
namespace MonitoringForDevOps.Library.WrappingInt

theorem nonnegIff (a : Int32) : 0 ≤ a.toInt ↔ ¬ a < 0 := by
  rw [Int32.lt_iff_toInt_lt]
  have zero : (0 : Int32).toInt = 0 := rfl
  omega

theorem toIntBounds (a : Int32) : -2147483648 ≤ a.toInt ∧ a.toInt ≤ 2147483647 := by
  have low := a.le_toInt
  have high := a.toInt_lt
  omega

/- A difference inside the int range is computed exactly. -/
theorem subExact {a b : Int32} (low : -2147483648 ≤ a.toInt - b.toInt)
    (high : a.toInt - b.toInt ≤ 2147483647) : (a - b).toInt = a.toInt - b.toInt := by
  rw [Int32.toInt_sub]
  exact Int.bmod_eq_of_le (by omega) (by omega)

theorem addExact {a b : Int32} (low : -2147483648 ≤ a.toInt + b.toInt)
    (high : a.toInt + b.toInt ≤ 2147483647) : (a + b).toInt = a.toInt + b.toInt := by
  rw [Int32.toInt_add]
  exact Int.bmod_eq_of_le (by omega) (by omega)

/- From a non-negative minuend the sign of the wrapped difference tells exactly
whether the integer difference is a non-negative int: the only overflow is
upwards, and it comes back negative. -/
theorem subSignExact {a b : Int32} (nonneg : 0 ≤ a.toInt) :
    ¬ a - b < 0 ↔ 0 ≤ a.toInt - b.toInt ∧ a.toInt - b.toInt ≤ 2147483647 := by
  rw [← nonnegIff]
  have ha := toIntBounds a
  have hb := toIntBounds b
  by_cases fits : a.toInt - b.toInt ≤ 2147483647
  · rw [subExact (by omega) fits]
    omega
  · have wrapped : (a - b).toInt = a.toInt - b.toInt - 4294967296 := by
      have size : Int32.size = 4294967296 := rfl
      rw [Int32.toInt_sub, Int.bmod_def]
      omega
    omega

/- An addition past the top of the int range wraps to the bottom. -/
theorem addWraps {a b : Int32} (high : 2147483647 < a.toInt + b.toInt) :
    (a + b).toInt = a.toInt + b.toInt - 4294967296 := by
  have ha := toIntBounds a
  have hb := toIntBounds b
  rw [Int32.toInt_add, Int.bmod_def]
  omega

/- Lengths whose sum fits are added and divided as natural numbers. -/
theorem sumDivisible {a b : ℕ} (fits : a + b < 2147483648) (m : Int32) :
    (Int32.ofNat a + Int32.ofNat b) % m = 0 ↔ ((a : ℤ) + b) % m.toInt = 0 := by
  have left : (Int32.ofNat a).toInt = a := Int32.toInt_ofNat_of_lt (by omega)
  have right : (Int32.ofNat b).toInt = b := Int32.toInt_ofNat_of_lt (by omega)
  have sum : (Int32.ofNat a + Int32.ofNat b).toInt = (a : ℤ) + b := by
    rw [addExact (by omega) (by omega), left, right]
  have zero : (0 : Int32).toInt = 0 := rfl
  rw [← Int32.toInt_inj, Int32.toInt_mod, sum, zero, Int.tmod_eq_emod_of_nonneg (by omega)]

end MonitoringForDevOps.Library.WrappingInt
