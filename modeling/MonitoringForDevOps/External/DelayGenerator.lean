import Mathlib.Algebra.Group.Int.Defs
import MonitoringForDevOps.Library.Runs
import MonitoringForDevOps.Library.WrappingInt

/-! The delay generator of the external service: two bounds that clamp each other
and the wait drawn between them. Integer arithmetic wraps. -/
namespace MonitoringForDevOps.External
open Library WrappingInt Runs

structure DelayGenerator where
  min : Int32
  max : Int32
  deriving DecidableEq, Repr

namespace DelayGenerator

def initial : DelayGenerator := ⟨0,250⟩

def setMin (g : DelayGenerator) (value : Int32) : DelayGenerator :=
  if value ≤ 10 then { g with min := 0 }
  else if g.max < value then { g with min := g.max - 10 }
  else { g with min := value }

def setMax (g : DelayGenerator) (value : Int32) : DelayGenerator :=
  if value ≤ g.min then { g with max := g.min + 10 }
  else { g with max := value }

end DelayGenerator

inductive Assignment where
  | min (value : Int32)
  | max (value : Int32)
  deriving DecidableEq, Repr

def assign (g : DelayGenerator) : Assignment → DelayGenerator
  | .min value => g.setMin value
  | .max value => g.setMax value

def generatorAfter (assignments : List Assignment) : DelayGenerator :=
  after assign .initial assignments

inductive Wait where
  | completes
  | neverCompletes
  | throws
  deriving DecidableEq, Repr

/- The values Random.Next may return: the upper bound is exclusive unless both are equal. -/
def Draws (g : DelayGenerator) (draw : Int32) : Prop :=
  g.min ≤ draw ∧ (draw < g.max ∨ g.min = g.max ∧ draw = g.min)

/- Task.Delay rejects a delay below -1 ms and waits forever for -1 ms. -/
def delay (milliseconds : Int32) : Wait :=
  if milliseconds < -1 then .throws
  else if milliseconds = -1 then .neverCompletes
  else .completes

def waitAsync (g : DelayGenerator) (draw : Int32) : Wait :=
  if g.max < g.min then .throws else delay draw

structure Usable (g : DelayGenerator) : Prop where
  low : 0 ≤ g.min.toInt
  ordered : g.min.toInt ≤ g.max.toInt

def Waits (g : DelayGenerator) : Prop :=
  g.min ≤ g.max ∧ ∀ draw, Draws g draw → waitAsync g draw = .completes

def StaysUsable : Prop := ∀ assignments, Usable (generatorAfter assignments)

/- Max may be set below 10, and Min is then clamped to Max - 10. -/
theorem smallMaxBreaksRange : ¬ StaysUsable := by
  intro claim
  have low := (claim [.max 5,.min 20]).low
  have negative : (generatorAfter [.max 5,.min 20]).min.toInt = -5 := by decide
  omega

def KeepsRange (g : DelayGenerator) : Assignment → Prop
  | .min value => ¬ (10 < value.toInt ∧ g.max.toInt < 10)
  | .max value => ¬ (value.toInt ≤ g.min.toInt ∧ 2 ^ 31 - 1 < g.min.toInt + 10)

theorem setMinExactly {g : DelayGenerator} (usable : Usable g) (value : Int32) :
    Usable (g.setMin value) ↔ KeepsRange g (.min value) := by
  obtain ⟨low,ordered⟩ := usable
  have high := toIntBounds g.max
  have ten : (10 : Int32).toInt = 10 := rfl
  unfold DelayGenerator.setMin KeepsRange
  split
  · rename_i small
    rw [Int32.le_iff_toInt_le, ten] at small
    have above : 0 ≤ g.max.toInt := by omega
    have kept : Usable ⟨0,g.max⟩ := ⟨Int.le_refl 0,above⟩
    exact iff_of_true kept (by omega)
  · rename_i large
    rw [Int32.le_iff_toInt_le, ten] at large
    split
    · rename_i above
      rw [Int32.lt_iff_toInt_lt] at above
      have clamped : (g.max - 10).toInt = g.max.toInt - 10 := subExact (by omega) (by omega)
      constructor
      · rintro ⟨low',_⟩
        simp only [clamped] at low'
        omega
      · intro keeps
        refine ⟨?_,?_⟩
        · simp only [clamped]; omega
        · simp only [clamped]; omega
    · rename_i inside
      rw [Int32.lt_iff_toInt_lt] at inside
      have kept : Usable ⟨value,g.max⟩ := ⟨by simp only; omega,by simp only; omega⟩
      exact iff_of_true kept (by omega)

theorem setMaxExactly {g : DelayGenerator} (usable : Usable g) (value : Int32) :
    Usable (g.setMax value) ↔ KeepsRange g (.max value) := by
  obtain ⟨low,ordered⟩ := usable
  have high := toIntBounds g.min
  have ten : (10 : Int32).toInt = 10 := rfl
  unfold DelayGenerator.setMax KeepsRange
  split
  · rename_i below
    rw [Int32.le_iff_toInt_le] at below
    by_cases fits : g.min.toInt + 10 ≤ 2147483647
    · have raised : (g.min + 10).toInt = g.min.toInt + 10 := addExact (by omega) (by omega)
      have kept : Usable ⟨g.min,g.min + 10⟩ := ⟨low,by simp only [raised]; omega⟩
      exact iff_of_true kept (by omega)
    · have wrapped : (g.min + 10).toInt = g.min.toInt + 10 - 4294967296 := addWraps (by omega)
      have broken : ¬ Usable ⟨g.min,g.min + 10⟩ := by
        rintro ⟨_,ordered'⟩
        simp only [wrapped] at ordered'
        omega
      exact iff_of_false broken (by omega)
  · rename_i above
    rw [Int32.le_iff_toInt_le] at above
    have kept : Usable ⟨g.min,value⟩ := ⟨low,by simp only; omega⟩
    exact iff_of_true kept (by omega)

theorem assignExactly {g : DelayGenerator} (usable : Usable g) (a : Assignment) :
    Usable (assign g a) ↔ KeepsRange g a := by
  cases a with
  | min value => exact setMinExactly usable value
  | max value => exact setMaxExactly usable value

theorem waitsUsable {g : DelayGenerator} (usable : Usable g) : Waits g := by
  obtain ⟨low,ordered⟩ := usable
  refine ⟨Int32.le_iff_toInt_le.mpr ordered,?_⟩
  rintro draw ⟨above,_⟩
  have ordered' : ¬ g.max < g.min := by rw [Int32.lt_iff_toInt_lt]; omega
  rw [Int32.le_iff_toInt_le] at above
  have minusOne : (-1 : Int32).toInt = -1 := rfl
  have notBelow : ¬ draw < -1 := by rw [Int32.lt_iff_toInt_lt]; omega
  have notMinusOne : ¬ draw = -1 := by
    intro same
    rw [same] at above
    omega
  simp only [waitAsync, delay, if_neg ordered', if_neg notBelow, if_neg notMinusOne]

theorem staysUsableExactly (assignments : List Assignment) :
    (∀ before, before <+: assignments →
      Usable (generatorAfter before) ∧ Waits (generatorAfter before)) ↔
    ∀ before a, before ++ [a] <+: assignments → KeepsRange (generatorAfter before) a := by
  have initially : Usable .initial := ⟨by decide,by decide⟩
  have steps := alwaysIffEveryStep assign initially (fun g a usable => assignExactly usable a)
    assignments
  refine Iff.trans ?_ steps
  constructor
  · intro both before inside
    exact (both before inside).1
  · intro usable before inside
    exact ⟨usable before inside,waitsUsable (usable before inside)⟩

section Reconfigure
variable (g : DelayGenerator) {v w : Int32}

theorem setMinKeepsMax (value : Int32) : (g.setMin value).max = g.max := by
  unfold DelayGenerator.setMin
  split
  · rfl
  · split <;> rfl

theorem setMaxKeepsMin (value : Int32) : (g.setMax value).min = g.min := by
  unfold DelayGenerator.setMax
  split <;> rfl

theorem setMinSurvives (large : 10 < v.toInt) :
    (g.setMin v).min = v ↔ v ≤ g.max ∨ g.max - 10 = v := by
  have ten : (10 : Int32).toInt = 10 := rfl
  have notSmall : ¬ v ≤ 10 := by rw [Int32.le_iff_toInt_le]; omega
  simp only [DelayGenerator.setMin, if_neg notSmall]
  split
  · rename_i above
    have notBelow : ¬ v ≤ g.max := by
      rw [Int32.lt_iff_toInt_lt] at above
      rw [Int32.le_iff_toInt_le]
      omega
    exact (or_iff_right notBelow).symm
  · rename_i inside
    have below : v ≤ g.max := by
      rw [Int32.lt_iff_toInt_lt] at inside
      rw [Int32.le_iff_toInt_le]
      omega
    exact iff_of_true rfl (.inl below)

/- A clamped Max lies above the value asked for, or wraps below it. -/
theorem setMaxSurvives (large : 10 < w.toInt) : (g.setMax w).max = w ↔ g.min < w := by
  have ten : (10 : Int32).toInt = 10 := rfl
  unfold DelayGenerator.setMax
  split
  · rename_i below
    rw [Int32.le_iff_toInt_le] at below
    have notAbove : ¬ g.min < w := by rw [Int32.lt_iff_toInt_lt]; omega
    have different : g.min + 10 ≠ w := by
      intro same
      have value := congrArg Int32.toInt same
      have bounds := toIntBounds g.min
      by_cases fits : g.min.toInt + 10 ≤ 2147483647
      · rw [addExact (by omega) (by omega)] at value
        omega
      · rw [addWraps (by omega)] at value
        omega
    exact iff_of_false different notAbove
  · rename_i above
    rw [Int32.le_iff_toInt_le] at above
    exact iff_of_true rfl (by rw [Int32.lt_iff_toInt_lt]; omega)

theorem minThenMax (large : 10 < v.toInt) (ordered : v.toInt < w.toInt) :
    after assign g [.min v,.max w] = ⟨v,w⟩ ↔ v ≤ g.max ∨ g.max - 10 = v := by
  rw [← setMinSurvives g large]
  change (g.setMin v).setMax w = ⟨v,w⟩ ↔ _
  constructor
  · intro reached
    have low := congrArg DelayGenerator.min reached
    rwa [setMaxKeepsMin] at low
  · intro survives
    have above : (g.setMin v).min < w := by
      rw [survives, Int32.lt_iff_toInt_lt]
      exact ordered
    have high := (setMaxSurvives (g.setMin v) (by omega)).mpr above
    have low := setMaxKeepsMin (g.setMin v) w
    rw [survives] at low
    exact congrArg₂ DelayGenerator.mk low high

theorem maxThenMin (large : 10 < v.toInt) (ordered : v.toInt < w.toInt) :
    after assign g [.max w,.min v] = ⟨v,w⟩ ↔ g.min < w := by
  rw [← setMaxSurvives g (by omega : 10 < w.toInt)]
  change (g.setMax w).setMin v = ⟨v,w⟩ ↔ _
  constructor
  · intro reached
    have high := congrArg DelayGenerator.max reached
    rwa [setMinKeepsMax] at high
  · intro survives
    have below : v ≤ (g.setMax w).max := by
      rw [survives, Int32.le_iff_toInt_le]
      omega
    have low := (setMinSurvives (g.setMax w) large).mpr (.inl below)
    have high := setMinKeepsMax (g.setMax w) v
    rw [survives] at high
    exact congrArg₂ DelayGenerator.mk low high

end Reconfigure

def OrderDoesNotMatter : Prop :=
  ∀ (assignments : List Assignment) (v w : Int32), 10 < v.toInt → v.toInt < w.toInt →
    after assign (generatorAfter assignments) [.min v,.max w] =
      after assign (generatorAfter assignments) [.max w,.min v] ∧
    after assign (generatorAfter assignments) [.min v,.max w] = ⟨v,w⟩

/- A new range above the old one: Min asked for first is clamped below the old Max. -/
theorem newRangeAbove : ¬ OrderDoesNotMatter := by
  intro claim
  have reached := (claim [] 300 400 (by decide) (by decide)).2
  exact absurd reached (by decide)

theorem reconfiguredExactly (assignments : List Assignment) (v w : Int32) (large : 10 < v.toInt)
    (ordered : v.toInt < w.toInt) :
    let g := generatorAfter assignments
    (after assign g [.min v,.max w] = ⟨v,w⟩ ↔ v ≤ g.max ∨ g.max - 10 = v) ∧
    (after assign g [.max w,.min v] = ⟨v,w⟩ ↔ g.min < w) ∧
    (after assign g [.min v,.max w] = after assign g [.max w,.min v] ∧
        after assign g [.min v,.max w] = ⟨v,w⟩ ↔
      (v ≤ g.max ∨ g.max - 10 = v) ∧ g.min < w) := by
  have first := minThenMax (generatorAfter assignments) large ordered
  have second := maxThenMin (generatorAfter assignments) large ordered
  refine ⟨first,second,?_⟩
  rw [← first, ← second]
  constructor
  · rintro ⟨same,reached⟩
    exact ⟨reached,same.symm.trans reached⟩
  · rintro ⟨reached,reached'⟩
    exact ⟨reached.trans reached'.symm,reached⟩

theorem reconfiguredExactlyNested :
    after assign (generatorAfter []) [.min 20,.max 100] =
      after assign (generatorAfter []) [.max 100,.min 20] :=
  ((reconfiguredExactly [] 20 100 (by decide) (by decide)).2.2.mpr
    ⟨.inl (by decide),by decide⟩).1

end MonitoringForDevOps.External
