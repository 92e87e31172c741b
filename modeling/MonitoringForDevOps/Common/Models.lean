import Mathlib.Data.List.Basic
import MonitoringForDevOps.Library.Decimal

/-! The data the services exchange, the exceptions they throw and the HTTP
results they answer with. A reference that may be null is an `Option`. -/
namespace MonitoringForDevOps.Common
open Library

/- The 128 bits of a Guid, written as its hexadecimal digits without dashes. -/
abbrev Guid := BitVec 128

def Guid.empty : Guid := 0

def hexDigits : ℕ → ℕ → List Char
  | 0, _ => []
  | count + 1, n => hexDigits count (n / 16) ++ [Nat.digitChar (n % 16)]

def dashed : List ℕ → List Char → List Char
  | [], digits => digits
  | length :: groups, digits => digits.take length ++ '-' :: dashed groups (digits.drop length)

/- Guid.ToString("D"): the digits in groups of 8, 4, 4, 4 and 12. -/
def Guid.toStringD (id : Guid) : String :=
  String.ofList (dashed [8,4,4,4] (hexDigits 32 id.toNat))

theorem hexDigitsLength (count n : ℕ) : (hexDigits count n).length = count := by
  induction count generalizing n with
  | zero => rfl
  | succ count ih => simp only [hexDigits, List.length_append, List.length_singleton, ih]

theorem digitCharInjective : ∀ a < 16, ∀ b < 16, Nat.digitChar a = Nat.digitChar b → a = b := by
  decide

theorem hexDigitsInjective {count m n : ℕ} (small : m < 16 ^ count) (small' : n < 16 ^ count)
    (same : hexDigits count m = hexDigits count n) : m = n := by
  induction count generalizing m n with
  | zero => simp only [pow_zero, Nat.lt_one_iff] at small small'; rw [small, small']
  | succ count ih =>
    obtain ⟨front,last⟩ := List.append_inj' same rfl
    have quotient : m / 16 = n / 16 := by
      refine ih ?_ ?_ front
      · exact Nat.div_lt_of_lt_mul (by rwa [← pow_succ'])
      · exact Nat.div_lt_of_lt_mul (by rwa [← pow_succ'])
    have remainder : m % 16 = n % 16 :=
      digitCharInjective _ (Nat.mod_lt _ (by decide)) _ (Nat.mod_lt _ (by decide))
        (List.singleton_inj.mp last)
    omega

theorem dashedInjective {groups : List ℕ} {a b : List Char} (long : a.length = b.length)
    (same : dashed groups a = dashed groups b) : a = b := by
  induction groups generalizing a b with
  | nil => exact same
  | cons length groups ih =>
    have front : (a.take length).length = (b.take length).length := by
      simp only [List.length_take, long]
    have back : (a.drop length).length = (b.drop length).length := by
      simp only [List.length_drop, long]
    obtain ⟨taken,rest⟩ := List.append_inj same front
    have dropped := ih back (List.cons_inj_right _ |>.mp rest)
    rw [← List.take_append_drop length a, taken, dropped, List.take_append_drop]

theorem toStringDInjective : Function.Injective Guid.toStringD := by
  intro a b same
  have long : (hexDigits 32 a.toNat).length = (hexDigits 32 b.toNat).length := by
    simp only [hexDigitsLength]
  have digits := dashedInjective long (String.ofList_injective same)
  exact BitVec.eq_of_toNat_eq (hexDigitsInjective (by omega) (by omega) digits)

example : Guid.toStringD 0x6679a09cab6946aebd4c9a4bb0a69d93 =
    "6679a09c-ab69-46ae-bd4c-9a4bb0a69d93" := by decide

structure Product where
  id : Guid
  name : String
  price : Decimal
  quantity : Int32
  deriving DecidableEq

/- What no operation on a product ever writes. -/
def Product.catalogue (p : Product) : Guid × String × Decimal := (p.id,p.name,p.price)

structure Payment where
  type : Option String
  number : Option String
  name : Option String
  amount : Decimal
  deriving DecidableEq

def revenue (payments : List Payment) : ℚ :=
  (payments.map (fun payment => payment.amount.value)).sum

theorem revenueSnoc (payments : List Payment) (payment : Payment) :
    revenue (payments ++ [payment]) = revenue payments + payment.amount.value := by
  simp [revenue]

inductive Exn where
  | argument (message : String)
  | argumentOutOfRange (paramName : String) (message : Option String)
  | nullReference
  | invalidOperation
  | httpRequest
  | overflow
  deriving DecidableEq, Repr

def Exn.isArgumentOutOfRange : Exn → Bool
  | .argumentOutOfRange _ _ => true
  | _ => false

/- ArgumentOutOfRangeException derives from ArgumentException. -/
def Exn.isArgument : Exn → Bool
  | .argument _ => true
  | .argumentOutOfRange _ _ => true
  | _ => false

inductive HttpResult where
  | accepted
  | badRequest (error : Option String)
  | notFound
  | internalServerError
  deriving DecidableEq, Repr

def HttpResult.statusCode : HttpResult → Nat
  | .accepted => 202
  | .badRequest _ => 400
  | .notFound => 404
  | .internalServerError => 500

def isSuccessStatusCode (code : Nat) : Bool := 200 ≤ code && code ≤ 299

def ensureSuccessStatusCode (code : Nat) : Except Exn Unit :=
  if isSuccessStatusCode code then .ok () else .error .httpRequest

theorem ensureSuccessIff {r : HttpResult} :
    ensureSuccessStatusCode r.statusCode = .ok () ↔ r = .accepted := by
  cases r <;> simp [ensureSuccessStatusCode, isSuccessStatusCode, HttpResult.statusCode]

def isNullOrEmpty : Option String → Bool
  | none => true
  | some s => s == ""

theorem isNullOrEmptyFalse {s : Option String} :
    isNullOrEmpty s = false ↔ ∃ t, s = some t ∧ t ≠ "" := by
  cases s <;> simp [isNullOrEmpty]

end MonitoringForDevOps.Common
