import MonitoringForDevOps.Common.Models
import MonitoringForDevOps.Library.WrappingInt

/-! The business classes of the customer service. Their random delays change no
result and are left out; what a run draws from Random is its roll. -/
namespace MonitoringForDevOps.CustomerService
open Library Common WrappingInt

def utf16Length (s : String) : ℕ :=
  (s.toList.map (fun c => if c.val ≤ 0xFFFF then 1 else 2)).sum

/- A string of the runtime: its length in UTF-16 units is below the runtime's limit. -/
structure Text where
  value : String
  limit : utf16Length value ≤ 1073741791
  deriving DecidableEq

def Text.empty : Text := ⟨"",by decide⟩

def Text.ofString (s : String) : Text :=
  if limit : utf16Length s ≤ 1073741791 then ⟨s,limit⟩ else .empty

def Text.units (t : Text) : ℕ := utf16Length t.value

def Text.length (t : Text) : Int32 := Int32.ofNat t.units

structure Address where
  street : Text
  town : Text
  zipCode : Text
  deriving DecidableEq

structure Customer where
  firstName : Text
  lastName : Text
  isValid : Bool
  deriving DecidableEq

/- Random.Next: the lower bound may be drawn, the upper one may not. -/
def randomNext (roll : ℕ) (minValue maxValue : Int32) : Int32 :=
  Int32.ofInt (minValue.toInt + (roll : ℤ) % (maxValue.toInt - minValue.toInt))

inductive CreditRate where
  | answered (statusCode : Nat)
  | failed
  deriving DecidableEq, Repr

/- What one call does not decide itself: the outcome of GET / at the credit-rate
service and the number drawn. -/
structure Chance where
  creditRate : CreditRate
  roll : ℕ
  deriving DecidableEq, Repr

def ZipCodeRepository.isValidAsync (zipCode : Text) : Bool := zipCode.length == 5

def AddressProcessor.isValidAsync (address : Address) : Bool :=
  if !ZipCodeRepository.isValidAsync address.zipCode then false
  else (address.street.length + address.town.length) % 7 == 0

def CustomerRepository.loadCustomerAsync (lastName firstName : Text) : Customer :=
  ⟨firstName,lastName,(lastName.length + firstName.length) % 4 == 0⟩

def CustomerProcessor.validateAsync (lastName firstName : Text) : Customer :=
  CustomerRepository.loadCustomerAsync lastName firstName

-- The first component is what is asked of the credit-rate service.
def CreditRateProvider.getRateValueAsync (chance : Chance) (_customer : Customer)
    (_address : Address) : List String × Except Exn UInt32 :=
  (["/"],match chance.creditRate with
    | .failed => .error .httpRequest
    | .answered statusCode =>
        if isSuccessStatusCode statusCode then .ok (randomNext chance.roll 50 98).toUInt32
        else .ok (randomNext chance.roll 0 10).toUInt32)

theorem randomNextRange (roll : ℕ) {low high : Int32} (below : low.toInt < high.toInt) :
    low.toInt ≤ (randomNext roll low high).toInt ∧ (randomNext roll low high).toInt < high.toInt := by
  have boundsLow := toIntBounds low
  have boundsHigh := toIntBounds high
  have gap : 0 < high.toInt - low.toInt := by omega
  have nonneg := Int.emod_nonneg (roll : ℤ) (by omega : high.toInt - low.toInt ≠ 0)
  have less := Int.emod_lt_of_pos (roll : ℤ) gap
  have value : (randomNext roll low high).toInt =
      low.toInt + (roll : ℤ) % (high.toInt - low.toInt) := by
    unfold randomNext
    exact Int32.toInt_ofInt_of_le (by omega) (by omega)
  omega

theorem uintOfDraw (roll : ℕ) (low high : Int32) (nonneg : 0 ≤ low.toInt)
    (below : low.toInt < high.toInt) :
    low.toInt ≤ (randomNext roll low high).toUInt32.toNat ∧
      ((randomNext roll low high).toUInt32.toNat : ℤ) < high.toInt := by
  have range := randomNextRange roll below
  have zero : (0 : Int32).toInt = 0 := rfl
  have draw : (0 : Int32) ≤ randomNext roll low high := by
    rw [Int32.le_iff_toInt_le]
    omega
  have value : ((randomNext roll low high).toUInt32.toNat : ℤ) = (randomNext roll low high).toInt := by
    rw [Int32.toNat_toUInt32_of_le draw]
    exact Int.toNat_of_nonneg (by omega)
  omega

theorem lengthValue (t : Text) : t.length.toInt = t.units := by
  have limit : t.units ≤ 1073741791 := t.limit
  exact Int32.toInt_ofNat_of_lt (by omega)

theorem lengthsDivisible (a b : Text) (m : Int32) :
    ((a.length + b.length) % m == 0) = true ↔ ((a.units : ℤ) + b.units) % m.toInt = 0 := by
  have first : a.units ≤ 1073741791 := a.limit
  have second : b.units ≤ 1073741791 := b.limit
  rw [beq_iff_eq]
  exact sumDivisible (by omega) m

theorem zipCodeIsValid (zipCode : Text) :
    ZipCodeRepository.isValidAsync zipCode = true ↔ zipCode.units = 5 := by
  have five : (5 : Int32).toInt = 5 := rfl
  simp only [ZipCodeRepository.isValidAsync, beq_iff_eq]
  rw [← Int32.toInt_inj, lengthValue, five]
  omega

theorem addressIsValid (address : Address) :
    AddressProcessor.isValidAsync address = true ↔
      address.zipCode.units = 5 ∧ (address.street.units + address.town.units) % 7 = 0 := by
  have seven : (7 : Int32).toInt = 7 := rfl
  have divisible := lengthsDivisible address.street address.town 7
  rw [seven] at divisible
  have zip := zipCodeIsValid address.zipCode
  unfold AddressProcessor.isValidAsync
  cases known : ZipCodeRepository.isValidAsync address.zipCode with
  | false =>
    have short : ¬ address.zipCode.units = 5 := by
      rw [← zip, known]
      decide
    exact iff_of_false Bool.false_ne_true (fun both => short both.1)
  | true =>
    have right := zip.mp known
    refine divisible.trans ⟨?_,?_⟩
    · intro sum
      exact ⟨right,by omega⟩
    · rintro ⟨_,sum⟩
      omega

theorem customerIsValid (lastName firstName : Text) :
    (CustomerProcessor.validateAsync lastName firstName).isValid = true ↔
      (lastName.units + firstName.units) % 4 = 0 := by
  have four : (4 : Int32).toInt = 4 := rfl
  have divisible := lengthsDivisible lastName firstName 4
  rw [four] at divisible
  refine divisible.trans ⟨?_,?_⟩
  · intro sum
    omega
  · intro sum
    omega

theorem rateAnswered (status roll : ℕ) (customer : Customer) (address : Address) :
    ∃ rate, CreditRateProvider.getRateValueAsync ⟨.answered status,roll⟩ customer address =
        (["/"],.ok rate) ∧
      if isSuccessStatusCode status then 50 ≤ rate.toNat ∧ rate.toNat ≤ 97
      else rate.toNat ≤ 9 := by
  have good := uintOfDraw roll 50 98 (by decide) (by decide)
  have bad := uintOfDraw roll 0 10 (by decide) (by decide)
  have fifty : (50 : Int32).toInt = 50 := rfl
  have ninetyEight : (98 : Int32).toInt = 98 := rfl
  have ten : (10 : Int32).toInt = 10 := rfl
  have zero : (0 : Int32).toInt = 0 := rfl
  simp only [CreditRateProvider.getRateValueAsync]
  cases isSuccessStatusCode status with
  | true => exact ⟨_,rfl,by omega,by omega⟩
  | false =>
    have small : (randomNext roll 0 10).toUInt32.toNat ≤ 9 := by omega
    exact ⟨_,rfl,small⟩

end MonitoringForDevOps.CustomerService
