import MonitoringForDevOps.External.DelayGenerator
import MonitoringForDevOps.Library.Linearization

/-! The delay generator is a singleton without a lock: requests to it interleave
between the reads and writes of its two fields. -/
namespace MonitoringForDevOps.External.DelayRace
open Library WrappingInt Runs Interleaving Linearization

inductive Request where
  | settingMin (value : Int32)
  | clampingMin (value : Int32)
  | storingMin (value newMin : Int32)
  | settingMax (value : Int32)
  | clampingMax (value : Int32)
  | storingMax (value newMax : Int32)
  | answered (asked : Assignment) (stored : Int32)
  | waiting
  | readMin (min : Int32)
  | drawing (min max : Int32)
  | waited (wait : Wait)
  deriving DecidableEq, Repr

/- The clamping setters read the other field a second time for the value they store. -/
inductive RequestStep : ℕ → DelayGenerator → Request → DelayGenerator → Request → Prop where
  | minSmall {i g value} (small : value ≤ 10) :
      RequestStep i g (.settingMin value) g (.storingMin value 0)
  | minAbove {i g value} (large : ¬ value ≤ 10) (above : g.max < value) :
      RequestStep i g (.settingMin value) g (.clampingMin value)
  | minInside {i g value} (large : ¬ value ≤ 10) (inside : ¬ g.max < value) :
      RequestStep i g (.settingMin value) g (.storingMin value value)
  | minClamps {i g value} :
      RequestStep i g (.clampingMin value) g (.storingMin value (g.max - 10))
  | minStores {i g value newMin} :
      RequestStep i g (.storingMin value newMin) { g with min := newMin }
        (.answered (.min value) newMin)
  | maxBelow {i g value} (below : value ≤ g.min) :
      RequestStep i g (.settingMax value) g (.clampingMax value)
  | maxInside {i g value} (inside : ¬ value ≤ g.min) :
      RequestStep i g (.settingMax value) g (.storingMax value value)
  | maxClamps {i g value} :
      RequestStep i g (.clampingMax value) g (.storingMax value (g.min + 10))
  | maxStores {i g value newMax} :
      RequestStep i g (.storingMax value newMax) { g with max := newMax }
        (.answered (.max value) newMax)
  | readsMin {i g} : RequestStep i g .waiting g (.readMin g.min)
  | readsMax {i g min} : RequestStep i g (.readMin min) g (.drawing min g.max)
  | draws {i g min max draw} (drawn : Draws ⟨min,max⟩ draw) :
      RequestStep i g (.drawing min max) g (.waited (waitAsync ⟨min,max⟩ draw))
  | drawThrows {i g min max} (crossed : max < min) :
      RequestStep i g (.drawing min max) g (.waited .throws)

def Request.arrived : Request → Prop
  | .settingMin _ => True
  | .settingMax _ => True
  | .waiting => True
  | _ => False

def started (requests : List Request) : Config DelayGenerator Request := ⟨.initial,requests⟩

section Apart
variable (requests : List Request)

/- What Min and Max may become when no setter clamps. -/
def Low (n : Int32) : Prop := n = 0 ∨ (.settingMin n ∈ requests ∧ 10 < n.toInt)

def High (n : Int32) : Prop := n = 250 ∨ .settingMax n ∈ requests

/- Every Min asked for that is not turned into 0 lies below every Max asked for. -/
def Apart : Prop :=
  ∀ v w, .settingMin v ∈ requests → 10 < v.toInt → .settingMax w ∈ requests → v.toInt < w.toInt

/- Every Min asked for lies below the default Max, every Max above the default Min. -/
structure WithinDefaults : Prop where
  below : ∀ v, .settingMin v ∈ requests → v.toInt < 250
  above : ∀ w, .settingMax w ∈ requests → 0 < w.toInt

def storedFor : Assignment → Int32
  | .min value => if value ≤ 10 then 0 else value
  | .max value => value

def Unclamped : Request → Prop
  | .settingMin value => .settingMin value ∈ requests
  | .settingMax value => .settingMax value ∈ requests
  | .clampingMin _ => False
  | .clampingMax _ => False
  | .storingMin value newMin => Low requests newMin ∧ newMin = storedFor (.min value)
  | .storingMax value newMax => High requests newMax ∧ newMax = storedFor (.max value)
  | .answered asked stored => stored = storedFor asked
  | .waiting => True
  | .readMin min => Low requests min
  | .drawing min max => Low requests min ∧ High requests max
  | .waited wait => wait = .completes

structure RangeKept (g : DelayGenerator) : Prop where
  low : Low requests g.min
  high : High requests g.max

variable {requests}

theorem lowNonneg {n} (low : Low requests n) : 0 ≤ n.toInt := by
  rcases low with zero | ⟨_,large⟩
  · subst zero
    exact Int.le_refl 0
  · omega

theorem lowBelowHigh (apart : Apart requests) (within : WithinDefaults requests) {n m}
    (low : Low requests n) (high : High requests m) : n.toInt < m.toInt := by
  rcases low with zero | ⟨asked,large⟩
  · subst zero
    rcases high with default_ | asked'
    · subst default_
      decide
    · exact within.above m asked'
  · rcases high with default_ | asked'
    · subst default_
      exact within.below n asked
    · exact apart n m asked large asked'

theorem rangeUsable (apart : Apart requests) (within : WithinDefaults requests) {n m}
    (low : Low requests n) (high : High requests m) : Usable ⟨n,m⟩ :=
  ⟨lowNonneg low,Int.le_of_lt (lowBelowHigh apart within low high)⟩

theorem unclampedStep (apart : Apart requests) (within : WithinDefaults requests) {i g l g' l'}
    (kept : RangeKept requests g) (own : Unclamped requests l) (step : RequestStep i g l g' l') :
    RangeKept requests g' ∧ Unclamped requests l' := by
  have ten : (10 : Int32).toInt = 10 := rfl
  cases step with
  | minSmall small => exact ⟨kept,.inl rfl,(if_pos small).symm⟩
  | @minAbove value large above =>
    rw [Int32.le_iff_toInt_le, ten] at large
    rw [Int32.lt_iff_toInt_lt] at above
    have below := lowBelowHigh apart within (.inr ⟨own,by omega⟩) kept.high
    omega
  | minInside large inside =>
    refine ⟨kept,.inr ⟨own,?_⟩,(if_neg large).symm⟩
    rw [Int32.le_iff_toInt_le, ten] at large
    omega
  | minClamps => exact own.elim
  | minStores => exact ⟨⟨own.1,kept.high⟩,own.2⟩
  | @maxBelow value below =>
    rw [Int32.le_iff_toInt_le] at below
    have above := lowBelowHigh apart within kept.low (.inr own)
    omega
  | maxInside inside => exact ⟨kept,.inr own,rfl⟩
  | maxClamps => exact own.elim
  | maxStores => exact ⟨⟨kept.low,own.1⟩,own.2⟩
  | readsMin => exact ⟨kept,kept.low⟩
  | readsMax => exact ⟨kept,own,kept.high⟩
  | draws drawn =>
    exact ⟨kept,(waitsUsable (rangeUsable apart within own.1 own.2)).2 _ drawn⟩
  | drawThrows crossed =>
    rw [Int32.lt_iff_toInt_lt] at crossed
    have ordered := lowBelowHigh apart within own.1 own.2
    omega

theorem reachedUnclamped (arrived : ∀ request ∈ requests, request.arrived)
    (apart : Apart requests) (within : WithinDefaults requests) {schedule c}
    (run : Run (Step RequestStep) (started requests) schedule c) :
    RangeKept requests c.shared ∧
      ∀ (i : ℕ) request, c.procs[i]? = some request → Unclamped requests request := by
  refine everyAssertion (RangeKept requests) (fun _ _ request => Unclamped requests request)
    ?_ ?_ ?_ ?_ run
  · exact ⟨.inl rfl,.inl rfl⟩
  · intro i request found
    have mem := List.mem_of_getElem? found
    have start := arrived request mem
    cases request with
    | settingMin value => exact mem
    | settingMax value => exact mem
    | waiting => exact trivial
    | _ => exact start.elim
  · intro i g l g' l' kept own step
    exact unclampedStep apart within kept own step
  · intro i j g l g' l' other _ _ _ own _
    exact own

def assignment : Request → Option Assignment
  | .answered asked _ => some asked
  | _ => none

/- An unclamped setter stores what the assignment would store at that moment. -/
theorem storesAtOnce (apart : Apart requests) (within : WithinDefaults requests) {i g l g' l'}
    (kept : RangeKept requests g) (own : Unclamped requests l) (step : RequestStep i g l g' l') :
    ActsAtOnce assign assignment g l g' l' := by
  cases step with
  | @minStores value newMin =>
    obtain ⟨low,same⟩ := own
    refine .inr ⟨.min value,rfl,rfl,?_⟩
    have below := lowBelowHigh apart within low kept.high
    subst same
    simp only [assign, DelayGenerator.setMin, storedFor] at below ⊢
    split
    · rfl
    · rename_i large
      rw [if_neg large] at below
      rw [if_neg (by rw [Int32.lt_iff_toInt_lt]; omega)]
  | @maxStores value newMax =>
    obtain ⟨high,same⟩ := own
    refine .inr ⟨.max value,rfl,rfl,?_⟩
    have above := lowBelowHigh apart within kept.low high
    subst same
    simp only [assign, DelayGenerator.setMax] at above ⊢
    rw [if_neg (by rw [Int32.le_iff_toInt_le]; omega)]
  | _ => exact .inl ⟨rfl,rfl⟩

theorem nothingAnswered (arrived : ∀ request ∈ requests, request.arrived) :
    requests.filterMap assignment = [] := by
  rw [List.filterMap_eq_nil_iff]
  intro request mem
  have start := arrived request mem
  cases request with
  | answered asked stored => exact start.elim
  | _ => rfl

theorem linearizedAssignments (arrived : ∀ request ∈ requests, request.arrived)
    (apart : Apart requests) (within : WithinDefaults requests) {schedule c}
    (run : Run (Step RequestStep) (started requests) schedule c) :
    ∃ order, order.Perm (c.procs.filterMap assignment) ∧ c.shared = generatorAfter order := by
  refine linearized assign assignment
    (fun c => RangeKept requests c.shared ∧
      ∀ (i : ℕ) request, c.procs[i]? = some request → Unclamped requests request)
    (fun _ _ before => reachedUnclamped arrived apart within before) ?_
    (nothingAnswered arrived) run
  intro i c l g' l' good found act
  exact storesAtOnce apart within good.1 (good.2 i l found) act

/- Both setters check against the defaults before either stores. -/
theorem crossedRange (within : WithinDefaults requests) {v w}
    (lower : .settingMin v ∈ requests) (large : 10 < v.toInt) (upper : .settingMax w ∈ requests) :
    ∃ schedule c, Run (Step RequestStep) (started requests) schedule c ∧ c.shared = ⟨v,w⟩ := by
  obtain ⟨i,atMin⟩ := List.mem_iff_getElem?.mp lower
  obtain ⟨j,atMax⟩ := List.mem_iff_getElem?.mp upper
  have different : i ≠ j := by
    intro same
    subst same
    cases atMin.symm.trans atMax
  have boundMin : i < requests.length := (List.getElem?_eq_some_iff.mp atMin).1
  have boundMax : j < requests.length := (List.getElem?_eq_some_iff.mp atMax).1
  have ten : (10 : Int32).toInt = 10 := rfl
  have zero : (0 : Int32).toInt = 0 := rfl
  have default_ : (250 : Int32).toInt = 250 := rfl
  have below := within.below v lower
  have positive := within.above w upper
  have notSmall : ¬ v ≤ 10 := by rw [Int32.le_iff_toInt_le]; omega
  have inside : ¬ (250 : Int32) < v := by rw [Int32.lt_iff_toInt_lt]; omega
  have above : ¬ w ≤ 0 := by rw [Int32.le_iff_toInt_le]; omega
  have checkMin : Step RequestStep (started requests) i
      ⟨.initial,requests.set i (.storingMin v v)⟩ := .move atMin (.minInside notSmall inside)
  have nextMax : (requests.set i (.storingMin v v))[j]? = some (.settingMax w) := by
    rw [List.getElem?_set_ne different, atMax]
  have checkMax : Step RequestStep ⟨.initial,requests.set i (.storingMin v v)⟩ j
      ⟨.initial,(requests.set i (.storingMin v v)).set j (.storingMax w w)⟩ :=
    .move nextMax (.maxInside above)
  have thenMin : ((requests.set i (.storingMin v v)).set j (.storingMax w w))[i]? =
      some (.storingMin v v) := by
    rw [List.getElem?_set_ne (Ne.symm different), List.getElem?_set_self boundMin]
  have storeMin : Step RequestStep
      ⟨.initial,(requests.set i (.storingMin v v)).set j (.storingMax w w)⟩ i
      ⟨⟨v,250⟩,((requests.set i (.storingMin v v)).set j (.storingMax w w)).set i
        (.answered (.min v) v)⟩ := .move thenMin .minStores
  have thenMax : (((requests.set i (.storingMin v v)).set j (.storingMax w w)).set i
      (.answered (.min v) v))[j]? = some (.storingMax w w) := by
    rw [List.getElem?_set_ne different, List.getElem?_set_self (by rw [List.length_set]; exact boundMax)]
  have storeMax : Step RequestStep
      ⟨⟨v,250⟩,((requests.set i (.storingMin v v)).set j (.storingMax w w)).set i
        (.answered (.min v) v)⟩ j
      ⟨⟨v,w⟩,(((requests.set i (.storingMin v v)).set j (.storingMax w w)).set i
        (.answered (.min v) v)).set j (.answered (.max w) w)⟩ := .move thenMax .maxStores
  exact ⟨_,_,.snoc (.snoc (.snoc (runSingle checkMin) checkMax) storeMin) storeMax,rfl⟩

end Apart

theorem rangeKeptExactly (requests : List Request)
    (arrived : ∀ request ∈ requests, request.arrived) (within : WithinDefaults requests) :
    ((∀ schedule c, Run (Step RequestStep) (started requests) schedule c →
        c.shared.min.toInt < c.shared.max.toInt) ↔ Apart requests) ∧
    (Apart requests → ∀ schedule c, Run (Step RequestStep) (started requests) schedule c →
      (∃ order, order.Perm (c.procs.filterMap assignment) ∧ c.shared = generatorAfter order) ∧
      (∀ asked stored, .answered asked stored ∈ c.procs → stored = storedFor asked) ∧
      ∀ wait, .waited wait ∈ c.procs → wait = .completes) := by
  refine ⟨⟨?_,?_⟩,?_⟩
  · intro ordered v w lower large upper
    obtain ⟨schedule,c,run,same⟩ := crossedRange within lower large upper
    have inOrder := ordered schedule c run
    rw [same] at inOrder
    exact inOrder
  · intro apart schedule c run
    have kept := (reachedUnclamped arrived apart within run).1
    exact lowBelowHigh apart within kept.low kept.high
  · intro apart schedule c run
    obtain ⟨_,each⟩ := reachedUnclamped arrived apart within run
    refine ⟨linearizedAssignments arrived apart within run,?_,?_⟩
    · intro asked stored mem
      obtain ⟨i,found⟩ := List.mem_iff_getElem?.mp mem
      exact each i _ found
    · intro wait mem
      obtain ⟨i,found⟩ := List.mem_iff_getElem?.mp mem
      exact each i _ found

theorem rangeKeptExactlyCrossed :
    ¬ ∀ schedule c, Run (Step RequestStep) (started [.settingMin 200,.settingMax 100]) schedule c →
      c.shared.min.toInt < c.shared.max.toInt := by
  have within : WithinDefaults [.settingMin 200,.settingMax 100] := by
    refine ⟨?_,?_⟩
    · intro v mem
      cases mem with
      | head => decide
      | tail _ later => cases List.mem_singleton.mp later
    · intro w mem
      cases mem with
      | tail _ later =>
        cases List.mem_singleton.mp later
        decide
  have arrived : ∀ request ∈ [Request.settingMin 200,.settingMax 100], request.arrived := by
    intro request mem
    cases mem with
    | head => exact trivial
    | tail _ later => cases List.mem_singleton.mp later; exact trivial
  intro ordered
  have apart := (rangeKeptExactly [.settingMin 200,.settingMax 100] arrived within).1.mp ordered
  have below := apart 200 100 (.head _) (by decide) (.tail _ (.head _))
  exact absurd below (by decide)

end MonitoringForDevOps.External.DelayRace
