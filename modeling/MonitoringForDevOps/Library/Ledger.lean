import Mathlib.Data.Option.Basic
import Mathlib.Algebra.BigOperators.Group.List.Basic
import MonitoringForDevOps.Library.Runs

/-! An account of levels under withdrawals. A withdrawal is granted exactly when
the key is on account and its level stays between zero and the capacity; a
negative withdrawal is a deposit. -/
namespace MonitoringForDevOps.Library

structure Ledger (κ : Type) (capacity : ℤ) where
  level : κ → Option ℤ
  inRange : ∀ key v, level key = some v → 0 ≤ v ∧ v ≤ capacity

inductive Verdict where
  | granted
  | refused
  | unknown
  deriving DecidableEq, Repr

namespace Ledger
variable {κ : Type} {capacity : ℤ}

@[ext] theorem ext {a b : Ledger κ capacity} (same : ∀ key, a.level key = b.level key) : a = b := by
  cases a; cases b
  congr
  exact funext same

def verdict (l : Ledger κ capacity) (key : κ) (q : ℤ) : Verdict :=
  match l.level key with
  | none => .unknown
  | some v => if 0 ≤ v - q ∧ v - q ≤ capacity then .granted else .refused

theorem verdictUnknown {l : Ledger κ capacity} {key q} :
    l.verdict key q = .unknown ↔ l.level key = none := by
  unfold verdict
  cases l.level key with
  | none => simp
  | some v => simp only [reduceCtorEq, iff_false]; split <;> simp

theorem verdictGranted {l : Ledger κ capacity} {key q} :
    l.verdict key q = .granted ↔
      ∃ v, l.level key = some v ∧ 0 ≤ v - q ∧ v - q ≤ capacity := by
  unfold verdict
  cases l.level key with
  | none => simp
  | some v => simp

variable [DecidableEq κ]

/- What a withdrawal of `q` from `key` takes out of `j`. -/
def taken (l : Ledger κ capacity) (key : κ) (q : ℤ) (j : κ) : ℤ :=
  if j = key ∧ l.verdict key q = .granted then q else 0

def withdraw (l : Ledger κ capacity) (key : κ) (q : ℤ) : Ledger κ capacity where
  level j := (l.level j).map (· - l.taken key q j)
  inRange := by
    intro j v found
    obtain ⟨w,level,rfl⟩ := Option.map_eq_some_iff.mp found
    simp only [taken]
    split
    · rename_i hit
      obtain ⟨rfl,granted⟩ := hit
      simp only [verdict, level] at granted
      split at granted
      · assumption
      · contradiction
    · simpa using l.inRange j w level

theorem levelWithdraw (l : Ledger κ capacity) (key : κ) (q : ℤ) (j : κ) :
    (l.withdraw key q).level j = (l.level j).map (· - l.taken key q j) := rfl

/- A withdrawal that is not granted leaves the account as it was. -/
theorem withdrawDenied {l : Ledger κ capacity} {key q} (denied : l.verdict key q ≠ .granted) :
    l.withdraw key q = l := by
  ext j
  simp [levelWithdraw, taken, denied]

theorem levelGranted {l : Ledger κ capacity} {key q v} (granted : l.verdict key q = .granted)
    (level : l.level key = some v) : (l.withdraw key q).level key = some (v - q) := by
  simp [levelWithdraw, taken, granted, level]

theorem levelOther {l : Ledger κ capacity} {key q j} (other : j ≠ key) :
    (l.withdraw key q).level j = l.level j := by
  simp [levelWithdraw, taken, other]

end Ledger
end MonitoringForDevOps.Library
