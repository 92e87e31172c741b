import MonitoringForDevOps.Library.Interleaving

/-! Processes that never wait for each other. A rank that falls with every step of
its process bounds the turns of the process, and a process that has a step until it
is done is done whenever a schedule cannot go on. -/
namespace MonitoringForDevOps.Library.Progress
open Runs Interleaving

variable {σ κ : Type}

def Falls (prog : ℕ → σ → κ → σ → κ → Prop) (rank : κ → ℕ) : Prop :=
  ∀ i s l s' l', prog i s l s' l' → rank l' < rank l

def NeverWaits (prog : ℕ → σ → κ → σ → κ → Prop) (done : κ → Bool) : Prop :=
  ∀ i s l, done l = false → ∃ s' l', prog i s l s' l'

/- The turns process `i` may still take. -/
def turnsLeft (rank : κ → ℕ) (procs : List κ) (i : ℕ) : ℕ := (procs[i]?.map rank).getD 0

theorem turnsLeftSome {rank : κ → ℕ} {procs : List κ} {i l} (found : procs[i]? = some l) :
    turnsLeft rank procs i = rank l := by
  simp only [turnsLeft, found, Option.map_some, Option.getD_some]

theorem runCons {ε : Type} {step : σ → ε → σ → Prop} {s e t events u} (first : step s e t)
    (run : Run step t events u) : Run step s (e :: events) u := by
  induction run with
  | nil => exact runSingle first
  | snoc before last ih => exact .snoc ih last

section Bounded
variable {prog : ℕ → σ → κ → σ → κ → Prop} {rank : κ → ℕ}

theorem stepTurns (falls : Falls prog rank) {c i c'} (step : Step prog c i c') (j : ℕ) :
    turnsLeft rank c'.procs j + [i].count j ≤ turnsLeft rank c.procs j := by
  cases step with
  | @move l s' l' found act =>
    have bound : i < c.procs.length := (List.getElem?_eq_some_iff.mp found).1
    have fewer := falls i c.shared l s' l' act
    by_cases mine : i = j
    · subst mine
      rw [turnsLeftSome found, turnsLeftSome (List.getElem?_set_self bound)]
      simp only [List.count_singleton_self]
      omega
    · simp only [turnsLeft, List.getElem?_set_ne mine, List.count_singleton, beq_iff_eq, mine,
        if_false, add_zero, le_refl]

theorem runTurns (falls : Falls prog rank) {start schedule c}
    (run : Run (Step prog) start schedule c) (j : ℕ) :
    turnsLeft rank c.procs j + schedule.count j ≤ turnsLeft rank start.procs j := by
  induction run with
  | nil => simp
  | snoc before last ih =>
    have one := stepTurns falls last j
    rw [List.count_append]
    omega

theorem stepTotal (falls : Falls prog rank) {c i c'} (step : Step prog c i c') :
    (c'.procs.map rank).sum < (c.procs.map rank).sum := by
  cases step with
  | @move l s' l' found act =>
    have fewer := falls i c.shared l s' l' act
    have moved := sumSet rank c.procs i l l' found
    simp only
    omega

theorem runTotal (falls : Falls prog rank) {start schedule c}
    (run : Run (Step prog) start schedule c) :
    (c.procs.map rank).sum + schedule.length ≤ (start.procs.map rank).sum := by
  induction run with
  | nil => simp
  | snoc before last ih =>
    have one := stepTotal falls last
    rw [List.length_append, List.length_singleton]
    omega

end Bounded

section Finishing
variable {prog : ℕ → σ → κ → σ → κ → Prop} {done : κ → Bool}

theorem canMove (never : NeverWaits prog done) {c : Config σ κ} {i l}
    (found : c.procs[i]? = some l) (unfinished : done l = false) : ∃ c', Step prog c i c' := by
  obtain ⟨s',l',act⟩ := never i c.shared l unfinished
  exact ⟨_,.move found act⟩

theorem stuckDone (never : NeverWaits prog done) {c : Config σ κ}
    (stuck : ∀ i c', ¬ Step prog c i c') : ∀ l ∈ c.procs, done l = true := by
  intro l mem
  obtain ⟨i,found⟩ := List.mem_iff_getElem?.mp mem
  cases finished : done l with
  | true => rfl
  | false =>
    obtain ⟨c',step⟩ := canMove never found finished
    exact absurd step (stuck i c')

/- From every configuration some schedule brings all processes to their end. -/
theorem ledToEnd {rank : κ → ℕ} (falls : Falls prog rank) (never : NeverWaits prog done)
    (c : Config σ κ) :
    ∃ rest c', Run (Step prog) c rest c' ∧ ∀ l ∈ c'.procs, done l = true := by
  induction left : (c.procs.map rank).sum using Nat.strong_induction_on generalizing c with
  | _ n ih =>
    by_cases moves : ∃ i c', Step prog c i c'
    · obtain ⟨i,c',step⟩ := moves
      obtain ⟨rest,last,run,finished⟩ := ih _ (left ▸ stepTotal falls step) c' rfl
      exact ⟨i :: rest,last,runCons step run,finished⟩
    · refine ⟨[],c,.nil,stuckDone never ?_⟩
      intro i c' step
      exact moves ⟨i,c',step⟩

end Finishing
end MonitoringForDevOps.Library.Progress
