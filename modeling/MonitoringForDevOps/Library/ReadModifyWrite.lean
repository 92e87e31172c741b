import Mathlib.Algebra.BigOperators.Group.List.Basic
import Mathlib.Algebra.Order.BigOperators.Group.List
import Mathlib.Data.List.Sublists
import Mathlib.Tactic.Abel

/-! A register that many writers read, lower by an amount and write back. A write
forgets what was written since its read, so the value is the opening value less
some of the amounts written, the last of them always among these. -/
namespace MonitoringForDevOps.Library.ReadModifyWrite

section Group
variable {M : Type} [AddCommGroup M]

/- The value counts some of the amounts written. -/
def Explained (opening : M) (written : List M) (value : M) : Prop :=
  ∃ counted : List M, counted.Sublist written ∧ value = opening - counted.sum

/- The value counts the last amount written and some of the earlier ones. -/
def Latest (opening : M) (written : List M) (value : M) : Prop :=
  (written = [] ∧ value = opening) ∨
    ∃ earlier last, written = earlier ++ [last] ∧ Explained opening earlier (value + last)

theorem latestOpening (opening : M) : Latest opening [] opening := .inl ⟨rfl,rfl⟩

theorem latestExplained {opening : M} {written value} (latest : Latest opening written value) :
    Explained opening written value := by
  rcases latest with ⟨empty,same⟩ | ⟨earlier,last,split,counted,inside,sum⟩
  · subst empty same
    exact ⟨[],List.Sublist.refl [],by simp⟩
  · subst split
    refine ⟨counted ++ [last],inside.append (List.Sublist.refl [last]),?_⟩
    rw [List.sum_append, List.sum_singleton, ← sub_sub, ← sum]
    abel

theorem explainedLater {opening : M} {written value} (explained : Explained opening written value)
    (more : List M) : Explained opening (written ++ more) value := by
  obtain ⟨counted,inside,sum⟩ := explained
  exact ⟨counted,inside.trans (List.sublist_append_left written more),sum⟩

theorem latestWrite {opening : M} {written seen} (read : Explained opening written seen) (amount : M) :
    Latest opening (written ++ [amount]) (seen - amount) := by
  refine .inr ⟨written,amount,rfl,?_⟩
  rw [sub_add_cancel]
  exact read

end Group

/- Amounts that only lower the register keep it between its opening value and the
opening value less all of them. -/
theorem explainedBounds {opening : ℤ} {written value} (explained : Explained opening written value)
    (lowers : ∀ amount ∈ written, 0 ≤ amount) :
    opening - written.sum ≤ value ∧ value ≤ opening := by
  obtain ⟨counted,inside,same⟩ := explained
  have less : counted.sum ≤ written.sum := inside.sum_le_sum lowers
  have none_ : 0 ≤ counted.sum := List.sum_nonneg fun amount mem => lowers amount (inside.subset mem)
  omega

end MonitoringForDevOps.Library.ReadModifyWrite
