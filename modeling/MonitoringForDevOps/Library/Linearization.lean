import Mathlib.Data.List.Perm.Basic
import MonitoringForDevOps.Library.Interleaving

/-! Processes that each complete one operation on a shared state. Where a process
changes the state only in the step that completes its operation, and as the whole
operation would, a run leaves the state of some sequence of the completed ones. -/
namespace MonitoringForDevOps.Library.Linearization
open Runs Interleaving

variable {σ κ α : Type}

theorem completedSet (completed : κ → Option α) {procs : List κ} {i l} (found : procs[i]? = some l)
    (pending : completed l = none) (l' : κ) :
    ((procs.set i l').filterMap completed).Perm
      ((completed l').toList ++ procs.filterMap completed) := by
  obtain ⟨bound,same⟩ := List.getElem?_eq_some_iff.mp found
  have after_ := (List.set_perm_cons_eraseIdx bound l').filterMap completed
  have before := (List.getElem_cons_eraseIdx_perm bound).filterMap completed
  rw [same, List.filterMap_cons_none pending] at before
  rw [List.filterMap_cons] at after_
  cases done : completed l' with
  | none =>
    rw [done] at after_
    exact after_.trans before
  | some a =>
    rw [done] at after_
    exact after_.trans (before.cons a)

theorem completedKept (completed : κ → Option α) {procs : List κ} {i l l'}
    (found : procs[i]? = some l) (same : completed l' = completed l) :
    ((procs.set i l').filterMap completed) = procs.filterMap completed := by
  induction procs generalizing i with
  | nil => rfl
  | cons head tail ih =>
    cases i with
    | zero =>
      cases Option.some.inj found
      simp only [List.set_cons_zero, List.filterMap_cons, same]
    | succ i =>
      have rest := ih (i := i) (by simpa using found)
      simp only [List.set_cons_succ, List.filterMap_cons, rest]

/- One step either completes nothing and changes nothing, or is a whole operation. -/
def ActsAtOnce (next : σ → α → σ) (completed : κ → Option α) (s : σ) (l : κ) (s' : σ) (l' : κ) :
    Prop :=
  (s' = s ∧ completed l' = completed l) ∨
    ∃ a, completed l = none ∧ completed l' = some a ∧ s' = next s a

theorem linearized {prog : ℕ → σ → κ → σ → κ → Prop} (next : σ → α → σ) (completed : κ → Option α)
    (good : Config σ κ → Prop) {start : Config σ κ}
    (always : ∀ schedule c, Run (Step prog) start schedule c → good c)
    (acts : ∀ i c l s' l', good c → c.procs[i]? = some l → prog i c.shared l s' l' →
      ActsAtOnce next completed c.shared l s' l')
    (nothing : start.procs.filterMap completed = []) {schedule c}
    (run : Run (Step prog) start schedule c) :
    ∃ order, order.Perm (c.procs.filterMap completed) ∧ c.shared = after next start.shared order := by
  induction run with
  | nil => exact ⟨[],by rw [nothing],rfl⟩
  | @snoc events c i c' before last ih =>
    obtain ⟨order,same,state⟩ := ih
    cases last with
    | @move l s' l' found act =>
      rcases acts i c l s' l' (always events c before) found act with ⟨quiet,kept⟩ | ⟨a,none_,done,moved⟩
      · refine ⟨order,?_,?_⟩
        · simp only [completedKept completed found kept]
          exact same
        · exact quiet.trans state
      · refine ⟨order ++ [a],?_,?_⟩
        · have collected := completedSet completed found none_ l'
          rw [done] at collected
          exact (List.perm_append_comm.trans (same.cons a)).trans collected.symm
        · rw [afterSnoc, ← state]
          exact moved

end MonitoringForDevOps.Library.Linearization
