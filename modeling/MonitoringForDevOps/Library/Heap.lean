import Mathlib.Data.List.Induction
import MonitoringForDevOps.Library.KeyedList

/-! Objects reached by reference: a heap of cells, lists of references into it, and
what a write through one reference changes for every other reader. -/
namespace MonitoringForDevOps.Library
open KeyedList

abbrev Reference := ℕ

structure Heap (α : Type) where
  cells : List α
  deriving DecidableEq

namespace Heap

variable {α κ : Type}

def read (heap : Heap α) (r : Reference) : Option α := heap.cells[r]?

def write (heap : Heap α) (r : Reference) (value : α) : Heap α := ⟨heap.cells.set r value⟩

/- A new object for each value, and the references to them. -/
def allocated (values : List α) : Heap α × List Reference :=
  (⟨values⟩,List.range values.length)

/- The objects behind a list of references, as they are now. -/
def contents (heap : Heap α) (refs : List Reference) : List α := refs.filterMap heap.read

/- The first reference whose object has the key, with the object. -/
def firstRef [DecidableEq κ] (heap : Heap α) (key : α → κ) (k : κ) :
    List Reference → Option (Reference × α)
  | [] => none
  | r :: refs =>
      match heap.read r with
      | some value => if key value = k then some (r,value) else firstRef heap key k refs
      | none => firstRef heap key k refs

theorem readOther (heap : Heap α) {r r' : Reference} (other : r ≠ r') (value : α) :
    (heap.write r value).read r' = heap.read r' := by
  simp only [read, write, List.getElem?_set_ne other]

theorem readWritten {heap : Heap α} {r : Reference} {old} (found : heap.read r = some old)
    (value : α) : (heap.write r value).read r = some value := by
  obtain ⟨inside,_⟩ := List.getElem?_eq_some_iff.mp found
  simp only [read, write, List.getElem?_set_self inside]

theorem contentsOther (heap : Heap α) {r : Reference} {refs} (absent : r ∉ refs) (value : α) :
    (heap.write r value).contents refs = heap.contents refs := by
  refine List.filterMap_congr ?_
  intro r' mem
  have other : r ≠ r' := fun same => absent (same ▸ mem)
  exact readOther heap other value

theorem allocatedDistinct (values : List α) : (allocated values).2.Nodup := List.nodup_range

theorem allocatedContents (values : List α) :
    (allocated values).1.contents (allocated values).2 = values := by
  simp only [allocated, contents]
  induction values using List.reverseRecOn with
  | nil => rfl
  | append_singleton values value ih =>
    have before : (List.range values.length).filterMap (⟨values ++ [value]⟩ : Heap α).read =
        (List.range values.length).filterMap (⟨values⟩ : Heap α).read := by
      refine List.filterMap_congr ?_
      intro r mem
      exact List.getElem?_append_left (List.mem_range.mp mem)
    rw [List.length_append, List.length_singleton, List.range_succ, List.filterMap_append,
      before, ih]
    simp [read]

section Keyed
variable [DecidableEq κ] (key : α → κ)

theorem firstRefSome {heap : Heap α} {k : κ} {refs r value}
    (found : heap.firstRef key k refs = some (r,value)) :
    r ∈ refs ∧ heap.read r = some value ∧ key value = k := by
  induction refs with
  | nil => cases found
  | cons head refs ih =>
    simp only [firstRef] at found
    split at found
    · rename_i first here
      split at found
      · rename_i hit
        cases found
        exact ⟨List.mem_cons_self,here,hit⟩
      · obtain ⟨mem,rest⟩ := ih found
        exact ⟨List.mem_cons_of_mem _ mem,rest⟩
    · obtain ⟨mem,rest⟩ := ih found
      exact ⟨List.mem_cons_of_mem _ mem,rest⟩

/- A search by reference finds the object that a search of the contents finds. -/
theorem firstRefContents (heap : Heap α) (k : κ) (refs : List Reference) :
    (heap.firstRef key k refs).map Prod.snd = firstWith key k (heap.contents refs) := by
  induction refs with
  | nil => rfl
  | cons head refs ih =>
    simp only [firstRef, contents, List.filterMap_cons]
    cases here : heap.read head with
    | none => exact ih
    | some value =>
      by_cases hit : key value = k
      · simp [firstWith, hit]
      · simp only [if_neg hit]
        rw [ih]
        simp [firstWith, contents, hit]

/- With no object referred to twice, a write through the found reference is seen
by every reader of the list as a write to its first row with the key. -/
theorem contentsWrite {heap : Heap α} {k : κ} {refs r value} (distinct : refs.Nodup)
    (found : heap.firstRef key k refs = some (r,value)) (change : α → α) :
    (heap.write r (change value)).contents refs =
      writeFirst key k change (heap.contents refs) := by
  induction refs with
  | nil => cases found
  | cons head refs ih =>
    obtain ⟨fresh,rest⟩ := List.nodup_cons.mp distinct
    simp only [firstRef] at found
    cases here : heap.read head with
    | none =>
      simp only [here] at found
      have other : r ≠ head := fun same => fresh (same ▸ (firstRefSome key found).1)
      have step := ih rest found
      simp only [contents, List.filterMap_cons, readOther heap other, here] at step ⊢
      exact step
    | some first =>
      simp only [here] at found
      split at found
      · rename_i hit
        cases found
        have others := contentsOther heap fresh (change value)
        simp only [contents] at others
        simp only [contents, List.filterMap_cons, readWritten here, here, writeFirst, if_pos hit,
          others]
      · rename_i miss
        have other : r ≠ head := fun same => fresh (same ▸ (firstRefSome key found).1)
        have step := ih rest found
        simp only [contents, List.filterMap_cons, readOther heap other, here, writeFirst,
          if_neg miss] at step ⊢
        rw [step]

end Keyed
end Heap
end MonitoringForDevOps.Library
