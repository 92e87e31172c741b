import MonitoringForDevOps.Library.Interleaving

/-! Two programs for the same processes, one with finer steps. Where each fine step
is seen as a coarse one or is invisible, an interleaving of the fine program is seen as
one of the coarse program; where each coarse step is one or two fine ones, the coarse
interleavings are fine ones. -/
namespace MonitoringForDevOps.Library.Refinement
open Runs Interleaving

variable {σ κ σ' κ' : Type}

/- The configuration as it is seen by the coarse program. -/
def viewed (look : σ → σ') (seen : κ → κ') (c : Config σ κ) : Config σ' κ' :=
  ⟨look c.shared,c.procs.map seen⟩

theorem viewedSelf {seen : κ → κ} {c : Config σ κ} (same : ∀ l ∈ c.procs, seen l = l) :
    viewed id seen c = c := by
  unfold viewed
  rw [List.map_congr_left same, List.map_id', id]

/- A fine step is a coarse step, or changes nothing that is seen. -/
def Refines (look : σ → σ') (seen : κ → κ') (asserts : κ → Prop)
    (fine : ℕ → σ → κ → σ → κ → Prop) (coarse : ℕ → σ' → κ' → σ' → κ' → Prop) : Prop :=
  ∀ i s l s' l', asserts l → fine i s l s' l' →
    asserts l' ∧ (look s' = look s ∧ seen l' = seen l ∨
      coarse i (look s) (seen l) (look s') (seen l'))

section Refined
variable {look : σ → σ'} {seen : κ → κ'} {asserts : κ → Prop}
variable {fine : ℕ → σ → κ → σ → κ → Prop} {coarse : ℕ → σ' → κ' → σ' → κ' → Prop}

theorem refinedStep (refines : Refines look seen asserts fine coarse) {c : Config σ κ}
    (good : ∀ l ∈ c.procs, asserts l) {i c'} (step : Step fine c i c') :
    (∀ l ∈ c'.procs, asserts l) ∧ (viewed look seen c' = viewed look seen c ∨
      Step coarse (viewed look seen c) i (viewed look seen c')) := by
  cases step with
  | @move l s' l' found act =>
    obtain ⟨kept,matched⟩ := refines i c.shared l s' l' (good l (List.mem_of_getElem? found)) act
    refine ⟨?_,?_⟩
    · intro other mem
      rcases List.mem_or_eq_of_mem_set mem with old | new
      · exact good other old
      · rw [new]; exact kept
    · have there : (c.procs.map seen)[i]? = some (seen l) := by
        rw [List.getElem?_map, found, Option.map_some]
      rcases matched with ⟨quiet,same⟩ | coarse
      · refine .inl ?_
        simp only [viewed, quiet, mapSetSame seen found same]
      · refine .inr ?_
        simp only [viewed, List.map_set]
        exact .move there coarse

/- A fine run is, seen through the map, a coarse run of some of its turns. -/
theorem refinedRun (refines : Refines look seen asserts fine coarse) {start : Config σ κ}
    (initially : ∀ l ∈ start.procs, asserts l) {schedule c}
    (run : Run (Step fine) start schedule c) :
    (∀ l ∈ c.procs, asserts l) ∧ ∃ turns, turns.Sublist schedule ∧
      Run (Step coarse) (viewed look seen start) turns (viewed look seen c) := by
  induction run with
  | nil => exact ⟨initially,[],List.Sublist.refl [],.nil⟩
  | @snoc schedule c i c' before last ih =>
    obtain ⟨good,turns,inside,coarse⟩ := ih
    obtain ⟨kept,quiet | moved⟩ := refinedStep refines good last
    · refine ⟨kept,turns,inside.trans (List.sublist_append_left schedule [i]),?_⟩
      rw [quiet]
      exact coarse
    · exact ⟨kept,turns ++ [i],inside.append (List.Sublist.refl [i]),.snoc coarse moved⟩

end Refined

/- A coarse step is a fine step, or two of the same process with nothing between. -/
def Expands (coarse fine : ℕ → σ → κ → σ → κ → Prop) : Prop :=
  ∀ i s l s' l', coarse i s l s' l' →
    fine i s l s' l' ∨ ∃ mid, fine i s l s mid ∧ fine i s mid s' l'

theorem expandedRun {coarse fine : ℕ → σ → κ → σ → κ → Prop} (expands : Expands coarse fine)
    {start : Config σ κ} {schedule c} (run : Run (Step coarse) start schedule c) :
    ∃ turns, schedule.Sublist turns ∧ Run (Step fine) start turns c := by
  induction run with
  | nil => exact ⟨[],List.Sublist.refl [],.nil⟩
  | @snoc schedule c i c' before last ih =>
    obtain ⟨turns,inside,run⟩ := ih
    cases last with
    | @move l s' l' found act =>
      rcases expands i c.shared l s' l' act with one | ⟨mid,first,second⟩
      · exact ⟨turns ++ [i],inside.append (List.Sublist.refl [i]),.snoc run (.move found one)⟩
      · have bound : i < c.procs.length := (List.getElem?_eq_some_iff.mp found).1
        have halfway : (c.procs.set i mid)[i]? = some mid := List.getElem?_set_self bound
        have later : Step fine ⟨c.shared,c.procs.set i mid⟩ i
            ⟨s',(c.procs.set i mid).set i l'⟩ := .move halfway second
        rw [List.set_set] at later
        refine ⟨turns ++ [i] ++ [i],?_,.snoc (.snoc run (.move found first)) later⟩
        exact (inside.append (List.Sublist.refl [i])).trans (List.sublist_append_left _ [i])

end MonitoringForDevOps.Library.Refinement
