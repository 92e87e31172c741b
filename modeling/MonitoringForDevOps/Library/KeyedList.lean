import Mathlib.Algebra.BigOperators.Group.List.Basic
import Mathlib.Data.List.Nodup
import Mathlib.Tactic.Abel

/-! Lists of rows found by a key: the first row with a key is the one that is read
and written. With distinct keys that is the only row with it. -/
namespace MonitoringForDevOps.Library.KeyedList

variable {κ α β : Type} [DecidableEq κ] (key : α → κ)

def firstWith (k : κ) (rows : List α) : Option α := rows.find? (fun row => key row == k)

/- Writes through to the first row with the key. -/
def writeFirst (k : κ) (write : α → α) : List α → List α
  | [] => []
  | row :: rows => if key row = k then write row :: rows else row :: writeFirst k write rows

/- The last entry with the key. -/
def lastWith (k : κ) (rows : List α) : Option α := firstWith key k rows.reverse

theorem firstWithSome {k : κ} {rows : List α} {row} (found : firstWith key k rows = some row) :
    row ∈ rows ∧ key row = k :=
  ⟨List.mem_of_find?_eq_some found,by simpa using List.find?_some found⟩

theorem firstWithNone {k : κ} {rows : List α} :
    firstWith key k rows = none ↔ k ∉ rows.map key := by
  simp [firstWith, List.find?_eq_none]

theorem firstWithMember {rows : List α} (keys : (rows.map key).Nodup) {row} (mem : row ∈ rows) :
    firstWith key (key row) rows = some row := by
  induction rows with
  | nil => simp at mem
  | cons head tail ih =>
    obtain ⟨fresh,rest⟩ := List.nodup_cons.mp keys
    rcases List.mem_cons.mp mem with same | inside
    · subst same
      simp [firstWith]
    · have other : key head ≠ key row := by
        intro same
        exact fresh (List.mem_map.mpr ⟨row,inside,same.symm⟩)
      have step := ih rest inside
      simpa [firstWith, other] using step

/- With distinct keys no row but the first one has the key. -/
theorem filterKey {rows : List α} (keys : (rows.map key).Nodup) (k : κ) :
    rows.filter (fun row => key row == k) = (firstWith key k rows).toList := by
  induction rows with
  | nil => rfl
  | cons head tail ih =>
    obtain ⟨fresh,rest⟩ := List.nodup_cons.mp keys
    have others := ih rest
    by_cases hit : key head = k
    · subst hit
      rw [(firstWithNone key).mpr fresh] at others
      simp [firstWith, others]
    · simpa [firstWith, hit] using others

theorem lastWithNone {k : κ} {rows : List α} :
    lastWith key k rows = none ↔ k ∉ rows.map key := by
  rw [lastWith, firstWithNone]
  simp

theorem lastWithSnoc (k : κ) (rows : List α) (row : α) :
    lastWith key k (rows ++ [row]) = if key row = k then some row else lastWith key k rows := by
  simp only [lastWith, firstWith, List.reverse_append, List.reverse_singleton,
    List.singleton_append, List.find?_cons, beq_eq_decide]
  split <;> simp_all

/- What a write does not change stays as it is in every row. -/
theorem writeFirstKeeps (k : κ) {write : α → α} (read : α → β) (keeps : ∀ row, read (write row) = read row)
    (rows : List α) : (writeFirst key k write rows).map read = rows.map read := by
  induction rows with
  | nil => rfl
  | cons row rows ih =>
    simp only [writeFirst]
    split
    · simp only [List.map_cons, keeps]
    · simp only [List.map_cons, ih]

theorem writeFirstOther {k : κ} {write : α → α} {rows : List α} (absent : k ∉ rows.map key) :
    writeFirst key k write rows = rows := by
  induction rows with
  | nil => rfl
  | cons row rows ih =>
    simp only [List.map_cons, List.mem_cons, not_or] at absent
    obtain ⟨other,rest⟩ := absent
    simp only [writeFirst, if_neg (Ne.symm other), ih rest]

theorem writeFirstMember {k : κ} {write : α → α} {rows : List α} {row}
    (mem : row ∈ writeFirst key k write rows) :
    row ∈ rows ∨ ∃ old ∈ rows, key old = k ∧ row = write old := by
  induction rows with
  | nil => cases mem
  | cons head tail ih =>
    simp only [writeFirst] at mem
    split at mem
    · rename_i hit
      rcases List.mem_cons.mp mem with same | inside
      · exact .inr ⟨head,List.mem_cons_self,hit,same⟩
      · exact .inl (List.mem_cons_of_mem _ inside)
    · rcases List.mem_cons.mp mem with same | inside
      · subst same
        exact .inl List.mem_cons_self
      · rcases ih inside with old | ⟨old,oldMem,oldKey,same⟩
        · exact .inl (List.mem_cons_of_mem _ old)
        · exact .inr ⟨old,List.mem_cons_of_mem _ oldMem,oldKey,same⟩

/- A write that keeps the keys changes what is found under its own key only. -/
theorem firstAfterWrite {k : κ} {write : α → α} (keeps : ∀ row, key (write row) = key row)
    (k' : κ) (rows : List α) :
    firstWith key k' (writeFirst key k write rows) =
      if k' = k then (firstWith key k rows).map write else firstWith key k' rows := by
  induction rows with
  | nil => simp [writeFirst, firstWith]
  | cons head tail ih =>
    simp only [firstWith] at ih ⊢
    simp only [writeFirst]
    by_cases hit : key head = k
    · by_cases same : k' = k
      · subst same
        simp [hit, keeps]
      · have other : ¬ k = k' := fun h => same h.symm
        simp [hit, keeps, same, other]
    · by_cases found : key head = k'
      · have other : ¬ k' = k := fun h => hit (found.trans h)
        simp [found, other]
      · simp [hit, found, ih]

theorem writeFirstMap {rows : List α} (keys : (rows.map key).Nodup) (k : κ) (write : α → α) :
    writeFirst key k write rows = rows.map (fun row => if key row = k then write row else row) := by
  induction rows with
  | nil => rfl
  | cons row rows ih =>
    obtain ⟨fresh,rest⟩ := List.nodup_cons.mp keys
    simp only [writeFirst, List.map_cons]
    split
    · rename_i same
      subst same
      have others : rows.map (fun x => if key x = key row then write x else x) = rows := by
        rw [← ih rest, writeFirstOther key fresh]
      rw [others]
    · rw [ih rest]

/- A write changes a sum over the rows by what it does to the row that is found. -/
theorem writeFirstSum {M : Type} [AddCommMonoid M] {k : κ} {write : α → α} (value : α → M)
    {rows : List α} {row} (found : firstWith key k rows = some row) :
    ((writeFirst key k write rows).map value).sum + value row =
      (rows.map value).sum + value (write row) := by
  induction rows with
  | nil => cases found
  | cons head tail ih =>
    simp only [firstWith, List.find?_cons, beq_eq_decide] at found ih
    simp only [writeFirst]
    by_cases hit : key head = k
    · simp only [hit, decide_true, Option.some.injEq] at found
      subst found
      simp only [hit, if_true, List.map_cons, List.sum_cons]
      abel
    · simp only [hit, decide_false] at found
      have rest := ih found
      simp only [hit, if_false, List.map_cons, List.sum_cons, add_assoc, rest]

end MonitoringForDevOps.Library.KeyedList
