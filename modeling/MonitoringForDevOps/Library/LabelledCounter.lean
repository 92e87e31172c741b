import Mathlib.Algebra.BigOperators.Group.Finset.Basic
import Mathlib.Algebra.GroupWithZero.Nat
import Mathlib.Algebra.Order.BigOperators.Group.Multiset

/-! Counters with one total for each label, as metrics libraries offer them: what an
increment does to the totals, and what the totals of counted events add up to. -/
namespace MonitoringForDevOps.Library

variable {κ : Type} [DecidableEq κ]

structure LabelledCounter (κ : Type) [DecidableEq κ] where
  State : Type
  zero : State
  add : State → ℕ → κ → State
  total : State → κ → ℕ
  series : State → List κ
  totalZero : ∀ k, total zero k = 0
  totalAdd : ∀ s delta k k', total (add s delta k) k' = total s k' + if k' = k then delta else 0
  seriesDistinct : ∀ s, (series s).Nodup
  seriesTotal : ∀ s k, total s k ≠ 0 → k ∈ series s

namespace LabelledCounter

/- The counter that keeps every measurement and adds up when it is read. -/
def measured (κ : Type) [DecidableEq κ] : LabelledCounter κ where
  State := List (ℕ × κ)
  zero := []
  add s delta k := s ++ [(delta,k)]
  total s k := ((s.filter (fun entry => entry.2 = k)).map Prod.fst).sum
  series s := (s.map Prod.snd).dedup
  totalZero := fun _ => rfl
  totalAdd := by
    intro s delta k k'
    rw [List.filter_append, List.map_append, List.sum_append]
    by_cases own : k' = k
    · simp [own]
    · have other : ¬ k = k' := fun h => own h.symm
      simp [own, other]
  seriesDistinct := fun s => List.nodup_dedup _
  seriesTotal := by
    intro s k counted
    rw [List.mem_dedup]
    by_contra absent
    have none_ : s.filter (fun entry => entry.2 = k) = [] := by
      rw [List.filter_eq_nil_iff]
      intro entry mem same
      exact absent (List.mem_map.mpr ⟨entry,mem,of_decide_eq_true same⟩)
    rw [none_] at counted
    exact counted rfl

variable (counter : LabelledCounter κ)

/- The totals of all labels together. -/
def sum (s : counter.State) : ℕ := ((counter.series s).map (counter.total s)).sum

/- The totals are the numbers of occurrences in a list of counted labels. -/
def Counts (s : counter.State) (counted : List κ) : Prop :=
  ∀ k, counter.total s k = counted.count k

theorem countsZero : counter.Counts counter.zero [] := by
  intro k
  rw [counter.totalZero, List.count_nil]

theorem countsAdd {s : counter.State} {counted : List κ} (counts : counter.Counts s counted)
    (k : κ) : counter.Counts (counter.add s 1 k) (counted ++ [k]) := by
  intro k'
  rw [counter.totalAdd, counts k', List.count_append, List.count_singleton]
  congr 1
  by_cases own : k' = k
  · simp [own]
  · have other : ¬ k = k' := fun h => own h.symm
    simp [own, other]

theorem sumCounts {s : counter.State} {counted : List κ} (counts : counter.Counts s counted) :
    counter.sum s = counted.length := by
  have listed : ∀ k ∈ (counted : Multiset κ), k ∈ (counter.series s).toFinset := by
    intro k mem
    have positive : counter.total s k ≠ 0 := by
      rw [counts k]
      exact (List.count_pos_iff.mpr mem).ne'
    exact List.mem_toFinset.mpr (counter.seriesTotal s k positive)
  have all := Multiset.sum_count_eq_card listed
  rw [List.sum_toFinset _ (counter.seriesDistinct s)] at all
  have totals : counter.total s = fun k => Multiset.count k (counted : Multiset κ) := by
    funext k
    rw [counts k, Multiset.coe_count]
  rw [sum, totals, all, Multiset.coe_card]

end LabelledCounter
end MonitoringForDevOps.Library
