import Mathlib.Algebra.BigOperators.Group.List.Basic
import Mathlib.Algebra.Order.BigOperators.Group.List
import Mathlib.Tactic.Abel
import Mathlib.Tactic.Linarith
import MonitoringForDevOps.Library.Runs

/-! Any number of processes over one shared state, interleaved step by step.
A process is a local state; its position in the list is its identity. -/
namespace MonitoringForDevOps.Library.Interleaving
open Runs

structure Config (σ κ : Type) where
  shared : σ
  procs : List κ
  deriving DecidableEq

variable {σ κ : Type}

inductive Step (prog : ℕ → σ → κ → σ → κ → Prop) : Config σ κ → ℕ → Config σ κ → Prop where
  | move {c i l s' l'} (found : c.procs[i]? = some l) (act : prog i c.shared l s' l') :
      Step prog c i ⟨s',c.procs.set i l'⟩

theorem stepLength {prog : ℕ → σ → κ → σ → κ → Prop} {c i c'} (step : Step prog c i c') :
    c'.procs.length = c.procs.length := by
  cases step with
  | move found act => simp

theorem runLength {prog : ℕ → σ → κ → σ → κ → Prop} {start schedule c}
    (run : Run (Step prog) start schedule c) : c.procs.length = start.procs.length :=
  runInvariant (fun c => c.procs.length = start.procs.length) rfl
    (fun _ _ _ same step => (stepLength step).trans same) run

theorem sumSet {M : Type} [AddCommMonoid M] (g : κ → M) (procs : List κ) (i : ℕ) (l l' : κ)
    (found : procs[i]? = some l) :
    ((procs.set i l').map g).sum + g l = (procs.map g).sum + g l' := by
  induction procs generalizing i with
  | nil => simp at found
  | cons head tail ih =>
    cases i with
    | zero =>
      simp only [List.getElem?_cons_zero, Option.some.injEq] at found
      subst found
      simp only [List.set_cons_zero, List.map_cons, List.sum_cons]
      abel
    | succ i =>
      have rest := ih i (by simpa using found)
      simp only [List.set_cons_succ, List.map_cons, List.sum_cons, add_assoc, rest]

theorem mapSetSame {β : Type} (f : κ → β) {procs : List κ} {i : ℕ} {l l' : κ}
    (found : procs[i]? = some l) (same : f l' = f l) : (procs.set i l').map f = procs.map f := by
  induction procs generalizing i with
  | nil => rfl
  | cons head tail ih =>
    cases i with
    | zero =>
      cases Option.some.inj found
      simp only [List.set_cons_zero, List.map_cons, same]
    | succ i =>
      have rest := ih (i := i) (by simpa using found)
      simp only [List.set_cons_succ, List.map_cons, rest]

/- Where no process has more of one quantity than of another, the difference of any
one process fits between the sums. -/
theorem sumBound {g h : κ → ℤ} {procs : List κ} (below : ∀ l ∈ procs, g l ≤ h l) {i : ℕ} {l : κ}
    (found : procs[i]? = some l) : (procs.map g).sum + h l ≤ (procs.map h).sum + g l := by
  induction procs generalizing i with
  | nil => simp at found
  | cons head tail ih =>
    have first := below head List.mem_cons_self
    have later : ∀ l ∈ tail, g l ≤ h l := fun l mem => below l (List.mem_cons_of_mem head mem)
    simp only [List.map_cons, List.sum_cons]
    cases i with
    | zero =>
      cases Option.some.inj found
      have rest : (tail.map g).sum ≤ (tail.map h).sum := List.sum_le_sum later
      omega
    | succ i =>
      have rest := ih later (i := i) (by simpa using found)
      omega

/- The shared assertion and every process's own assertion hold throughout a run
when a step keeps its own process's assertion and disturbs no other one. -/
theorem everyAssertion {prog : ℕ → σ → κ → σ → κ → Prop}
    (inv : σ → Prop) (asserts : ℕ → σ → κ → Prop) {start : Config σ κ}
    (initially : inv start.shared)
    (initiallyOwn : ∀ i l, start.procs[i]? = some l → asserts i start.shared l)
    (own : ∀ i s l s' l', inv s → asserts i s l → prog i s l s' l' → inv s' ∧ asserts i s' l')
    (others : ∀ i j s l s' l' k, i ≠ j → inv s → asserts i s l → asserts j s k →
      prog i s l s' l' → asserts j s' k)
    {schedule c} (run : Run (Step prog) start schedule c) :
    inv c.shared ∧ ∀ i l, c.procs[i]? = some l → asserts i c.shared l := by
  refine runInvariant
    (fun c => inv c.shared ∧ ∀ i l, c.procs[i]? = some l → asserts i c.shared l)
    ⟨initially,initiallyOwn⟩ ?_ run
  rintro c i c' ⟨shared,each⟩ step
  cases step with
  | @move l s' l' found act =>
    have mine := own i _ _ _ _ shared (each i l found) act
    refine ⟨mine.1,?_⟩
    intro j k at_
    by_cases same : i = j
    · subst same
      have bound : i < c.procs.length := (List.getElem?_eq_some_iff.mp found).1
      simp only [List.getElem?_set_self bound, Option.some.injEq] at at_
      subst at_
      exact mine.2
    · simp only [List.getElem?_set_ne same] at at_
      exact others i j _ _ _ _ k same shared (each i l found) (each j k at_) act

/- A quantity spread over the shared state and the processes is conserved by a
run when each step, taken in a good configuration, moves it only between the
shared state and its own process. -/
theorem conserved {M : Type} [AddCommGroup M] {prog : ℕ → σ → κ → σ → κ → Prop}
    (f : σ → M) (g : κ → M) (good : Config σ κ → Prop) {start : Config σ κ}
    (always : ∀ schedule c, Run (Step prog) start schedule c → good c)
    (balance : ∀ i c l s' l', good c → c.procs[i]? = some l → prog i c.shared l s' l' →
      f s' + g l' = f c.shared + g l)
    {schedule c} (run : Run (Step prog) start schedule c) :
    f c.shared + (c.procs.map g).sum = f start.shared + (start.procs.map g).sum := by
  induction run with
  | nil => rfl
  | @snoc events c i c' before last total =>
    cases last with
    | @move l s' l' found act =>
      have own := balance i c l s' l' (always events c before) found act
      have moved := sumSet g c.procs i l l' found
      have shift : f s' + ((c.procs.set i l').map g).sum + (g l + g l') =
          f c.shared + (c.procs.map g).sum + (g l + g l') := by
        calc f s' + ((c.procs.set i l').map g).sum + (g l + g l')
            = (f s' + g l') + (((c.procs.set i l').map g).sum + g l) := by abel
          _ = (f c.shared + g l) + ((c.procs.map g).sum + g l') := by rw [own,moved]
          _ = f c.shared + (c.procs.map g).sum + (g l + g l') := by abel
      exact (add_right_cancel shift).trans total

/- A quantity spread over the shared state and the processes never falls in a run when
no step, taken in a good configuration, lowers what it moves. -/
theorem neverFalls {prog : ℕ → σ → κ → σ → κ → Prop} (f : σ → ℤ) (g : κ → ℤ)
    (good : Config σ κ → Prop) {start : Config σ κ}
    (always : ∀ schedule c, Run (Step prog) start schedule c → good c)
    (keeps : ∀ i c l s' l', good c → c.procs[i]? = some l → prog i c.shared l s' l' →
      f c.shared + g l ≤ f s' + g l')
    {schedule c} (run : Run (Step prog) start schedule c) :
    f start.shared + (start.procs.map g).sum ≤ f c.shared + (c.procs.map g).sum := by
  induction run with
  | nil => exact le_rfl
  | @snoc events c i c' before last total =>
    cases last with
    | @move l s' l' found act =>
      have own := keeps i c l s' l' (always events c before) found act
      have moved := sumSet g c.procs i l l' found
      change _ ≤ f s' + ((c.procs.set i l').map g).sum
      omega

theorem sumNegated (member : κ → Bool) (procs : List κ) :
    (procs.map (fun l => -(member l).toInt)).sum = -(procs.countP member : ℤ) := by
  induction procs with
  | nil => rfl
  | cons head tail ih =>
    cases inside : member head with
    | false => simp [inside, ih]
    | true => simp [inside, ih, add_comm]

theorem sumMembers (member : κ → Bool) (procs : List κ) :
    (procs.map (fun l => (member l).toInt)).sum = (procs.countP member : ℤ) := by
  induction procs with
  | nil => rfl
  | cons head tail ih =>
    cases inside : member head with
    | false => simp [inside, ih]
    | true => simp [inside, ih, add_comm]

theorem countSplit (whole left right : κ → Bool)
    (parts : ∀ l, (whole l).toNat = (left l).toNat + (right l).toNat) (procs : List κ) :
    procs.countP whole = procs.countP left + procs.countP right := by
  induction procs with
  | nil => rfl
  | cons head tail ih =>
    have own := parts head
    cases a : whole head <;> cases b : left head <;> cases c : right head <;>
      simp [a, b, c, ih] at own ⊢ <;> omega

/- A shared number that every step moves exactly as its own process enters or
leaves a class counts the processes of that class. -/
theorem counted {prog : ℕ → σ → κ → σ → κ → Prop} (f : σ → ℤ) (member : κ → Bool)
    (balance : ∀ i s l s' l', prog i s l s' l' →
      f s' + (member l).toInt = f s + (member l').toInt)
    {start schedule c} (run : Run (Step prog) start schedule c) :
    f c.shared + start.procs.countP member = f start.shared + c.procs.countP member := by
  have total := conserved f (fun l => -(member l).toInt) (fun _ => True) (fun _ _ _ => trivial)
    (fun i c l s' l' _ _ act => by linarith [balance i c.shared l s' l' act]) run
  simp only [sumNegated] at total
  linarith

def restricted (guard : σ → κ → Prop) (prog : ℕ → σ → κ → σ → κ → Prop) :
    ℕ → σ → κ → σ → κ → Prop := fun i s l s' l' => guard s l ∧ prog i s l s' l'

theorem restrictedRun {guard : σ → κ → Prop} {prog : ℕ → σ → κ → σ → κ → Prop} {start schedule c}
    (run : Run (Step (restricted guard prog)) start schedule c) :
    Run (Step prog) start schedule c := by
  refine runMono ?_ run
  intro c i c' step
  cases step with
  | move found act => exact .move found act.2

end MonitoringForDevOps.Library.Interleaving
