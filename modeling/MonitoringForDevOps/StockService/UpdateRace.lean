import MonitoringForDevOps.Library.Interleaving
import MonitoringForDevOps.StockService.ProductRepository

/-! UpdateProducts on the singleton repository, which takes no lock: other calls
may run between the check of a call and its store. -/
namespace MonitoringForDevOps.StockService.UpdateRace
open Library Common WrappingInt Runs Interleaving

inductive UpdateCall where
  | waiting (id : Guid) (quantity : Int32)
  | checked (id : Guid) (quantity seen newQuantity : Int32)
  | accepted (id : Guid) (quantity : Int32)
  | threw (id : Guid) (quantity : Int32) (e : Exn)
  deriving DecidableEq

inductive UpdateStep : ℕ → List Product → UpdateCall → List Product → UpdateCall → Prop where
  | check {i items id q seen n} (read : quantityOf items id = some seen)
      (ok : checkUpdate items id q = .ok n) :
      UpdateStep i items (.waiting id q) items (.checked id q seen n)
  | throws {i items id q e} (error : checkUpdate items id q = .error e) :
      UpdateStep i items (.waiting id q) items (.threw id q e)
  | store {i items id q seen n} :
      UpdateStep i items (.checked id q seen n) (storeQuantity id n items) (.accepted id q)

def requested (s : Stock) (calls : List (Guid × Int32)) : Config (List Product) UpdateCall :=
  ⟨s.items,calls.map (fun call => .waiting call.1 call.2)⟩

def UpdateCall.betweenSteps : UpdateCall → Bool
  | .checked _ _ _ _ => true
  | _ => false

def UpdateCall.asked : UpdateCall → Guid × Int32
  | .waiting id q => (id,q)
  | .checked id q _ _ => (id,q)
  | .accepted id q => (id,q)
  | .threw id q _ => (id,q)

def UpdateCall.acceptedFor (id : Guid) : UpdateCall → ℤ
  | .accepted j q => if j = id then q.toInt else 0
  | _ => 0

def acceptedTotal (c : Config (List Product) UpdateCall) (id : Guid) : ℤ :=
  (c.procs.map (UpdateCall.acceptedFor id)).sum

def Accounted (s : Stock) (c : Config (List Product) UpdateCall) : Prop :=
  ∀ id p, firstOrDefault id s.items = some p → ∃ now, quantityOf c.shared id = some now ∧
    now.toInt = p.quantity.toInt - acceptedTotal c id

def NoLostUpdate (s : Stock) : Prop :=
  ∀ (calls : List (Guid × Int32)) schedule c,
    Run (Step UpdateStep) (requested s calls) schedule c →
    (∀ call ∈ c.procs, call.betweenSteps = false) → Accounted s c

/- Two calls read 41 before either stores: the first store of 36 is overwritten. -/
theorem overlappingCallsLoseUpdate : ¬ NoLostUpdate Stock.initial := by
  intro claim
  have checkFirst : Step UpdateStep (requested Stock.initial [(lenovo,5),(lenovo,7)]) 0
      ⟨items,[.checked lenovo 5 41 36,.waiting lenovo 7]⟩ := .move rfl (.check rfl rfl)
  have checkSecond : Step UpdateStep ⟨items,[.checked lenovo 5 41 36,.waiting lenovo 7]⟩ 1
      ⟨items,[.checked lenovo 5 41 36,.checked lenovo 7 41 34]⟩ := .move rfl (.check rfl rfl)
  have storeFirst : Step UpdateStep ⟨items,[.checked lenovo 5 41 36,.checked lenovo 7 41 34]⟩ 0
      ⟨storeQuantity lenovo 36 items,[.accepted lenovo 5,.checked lenovo 7 41 34]⟩ :=
    .move rfl .store
  have storeSecond : Step UpdateStep
      ⟨storeQuantity lenovo 36 items,[.accepted lenovo 5,.checked lenovo 7 41 34]⟩ 1
      ⟨storeQuantity lenovo 34 (storeQuantity lenovo 36 items),
        [.accepted lenovo 5,.accepted lenovo 7]⟩ := .move rfl .store
  have run := Run.snoc (.snoc (.snoc (runSingle checkFirst) checkSecond) storeFirst) storeSecond
  obtain ⟨now,stored,account⟩ := claim _ _ _ run (by decide) lenovo _ rfl
  have last : quantityOf (storeQuantity lenovo 34 (storeQuantity lenovo 36 items)) lenovo =
      some 34 := by decide
  cases Option.some.inj (last.symm.trans stored)
  exact absurd account (by decide)

/- The Quantity a call read in its check is still the product's when it stores. -/
def readStillCurrent (items : List Product) : UpdateCall → Prop
  | .checked id _ seen _ => quantityOf items id = some seen
  | _ => True

def Prepared (s : Stock) : UpdateCall → Prop
  | .checked id q seen n => 0 ≤ n.toInt ∧ n.toInt = seen.toInt - q.toInt ∧
      ∃ p, firstOrDefault id s.items = some p
  | _ => True

theorem updateKeeps {s : Stock} {i items call items' call'} (became : s.Became items)
    (prepared : Prepared s call) (step : UpdateStep i items call items' call') :
    s.Became items' ∧ Prepared s call' := by
  cases step with
  | @check id q seen n read ok =>
    have kept := became
    obtain ⟨s',same,_⟩ := became
    subst same
    obtain ⟨p,found,_,whole,nonneg⟩ := checkUpdateOk s'.nonneg ok
    have current : quantityOf s'.items id = some p.quantity := by
      simp only [quantityOf, found, Option.map_some]
    cases Option.some.inj (read.symm.trans current)
    obtain ⟨original,first,_⟩ := Stock.becameBack kept found
    exact ⟨kept,nonneg,whole,original,first⟩
  | throws error => exact ⟨became,trivial⟩
  | store => exact ⟨Stock.becameStore became prepared.1,trivial⟩

theorem updateAsked {i items call items' call'} (step : UpdateStep i items call items' call') :
    call'.asked = call.asked := by
  cases step <;> rfl

theorem reachedPrepared {s : Stock} {calls schedule c}
    (run : Run (Step UpdateStep) (requested s calls) schedule c) :
    s.Became c.shared ∧ ∀ (i : ℕ) call, c.procs[i]? = some call → Prepared s call := by
  refine everyAssertion s.Became (fun _ _ call => Prepared s call) ?_ ?_ ?_ ?_ run
  · exact s.becameSelf
  · intro i call found
    obtain ⟨request,_,same⟩ := List.mem_map.mp (List.mem_of_getElem? found)
    subst same
    exact trivial
  · intro i items call items' call' became prepared step
    exact updateKeeps became prepared step
  · intro i j items call items' call' other different became prepared kept step
    exact kept

def levelOf (id : Guid) (items : List Product) : ℤ :=
  ((quantityOf items id).map Int32.toInt).getD 0

theorem levelOfSome {items : List Product} {id now} (h : quantityOf items id = some now) :
    levelOf id items = now.toInt := by
  simp [levelOf, h]

theorem levelOfStore {items : List Product} {id p} (found : firstOrDefault id items = some p)
    (j : Guid) (n : Int32) :
    levelOf j (storeQuantity id n items) = if j = id then n.toInt else levelOf j items := by
  simp only [levelOf, quantityOf, firstAfterStore]
  split
  · simp [found]
  · rfl

/- An account of the levels is an account of the stored quantities. -/
theorem levelAccount {s : Stock} {items id p} (became : s.Became items)
    (found : firstOrDefault id s.items = some p) {taken : ℤ}
    (balance : levelOf id items + taken = levelOf id s.items) :
    ∃ now, quantityOf items id = some now ∧ now.toInt = p.quantity.toInt - taken := by
  obtain ⟨p',found',_⟩ := Stock.becameFound became found
  have now : quantityOf items id = some p'.quantity := by simp [quantityOf, found']
  have before : quantityOf s.items id = some p.quantity := by simp [quantityOf, found]
  rw [levelOfSome now, levelOfSome before] at balance
  exact ⟨p'.quantity,now,by omega⟩

/- A fresh store moves exactly the call's quantity from the level to the total. -/
theorem freshBalance {s : Stock} {i items call items' call'} (became : s.Became items)
    (prepared : Prepared s call)
    (step : restricted readStillCurrent UpdateStep i items call items' call') (j : Guid) :
    levelOf j items' + call'.acceptedFor j = levelOf j items + call.acceptedFor j := by
  obtain ⟨fresh,step⟩ := step
  cases step with
  | check read ok => rfl
  | throws error => rfl
  | @store id q seen n =>
    obtain ⟨_,whole,original,first⟩ := prepared
    obtain ⟨p,found,_⟩ := Stock.becameFound became first
    have current : quantityOf items id = some seen := fresh
    rw [levelOfStore found]
    by_cases same : j = id
    · subst same
      simp only [UpdateCall.acceptedFor, levelOfSome current, if_true]
      omega
    · have other : ¬ id = j := fun h => same h.symm
      simp only [UpdateCall.acceptedFor, if_neg same, if_neg other]

theorem requestedTotal (s : Stock) (calls : List (Guid × Int32)) (id : Guid) :
    acceptedTotal (requested s calls) id = 0 := by
  simp only [acceptedTotal, requested, List.map_map]
  induction calls with
  | nil => rfl
  | cons call calls ih => simpa [UpdateCall.acceptedFor] using ih

theorem freshAccounted {s : Stock} {calls schedule c}
    (run : Run (Step (restricted readStillCurrent UpdateStep)) (requested s calls) schedule c) :
    Accounted s c := by
  intro id p found
  have total := conserved (levelOf id) (UpdateCall.acceptedFor id)
    (fun c => s.Became c.shared ∧ ∀ (i : ℕ) call, c.procs[i]? = some call → Prepared s call)
    (fun _ _ before => reachedPrepared (restrictedRun before))
    (fun i c call items' call' good at_ step => freshBalance good.1 (good.2 i call at_) step id) run
  have none_ : ((requested s calls).procs.map (UpdateCall.acceptedFor id)).sum = 0 :=
    requestedTotal s calls id
  rw [none_, add_zero] at total
  exact levelAccount (reachedPrepared (restrictedRun run)).1 found total

/- One step further, the account stays right exactly when the step is fresh. -/
theorem accountedExactly {s : Stock} {calls schedule c i c'}
    (run : Run (Step UpdateStep) (requested s calls) schedule c) (right : Accounted s c)
    (step : Step UpdateStep c i c') :
    Accounted s c' ↔ ∀ call, c.procs[i]? = some call → readStillCurrent c.shared call := by
  obtain ⟨became,prepared⟩ := reachedPrepared run
  cases step with
  | @move call items' call' found act =>
    constructor
    · intro after_ call₁ at_
      cases Option.some.inj (found.symm.trans at_)
      cases act with
      | check _ _ => exact trivial
      | throws _ => exact trivial
      | @store id q seen n =>
        obtain ⟨_,whole,original,first⟩ := prepared i _ found
        obtain ⟨p,found',_⟩ := Stock.becameFound became first
        obtain ⟨now,current,before⟩ := right id original first
        obtain ⟨then_,stored,later⟩ := after_ id original first
        have moved := sumSet (UpdateCall.acceptedFor id) c.procs i _ (.accepted id q) found
        have newQuantity : n.toInt = then_.toInt := by
          rw [← levelOfSome stored, levelOfStore found', if_pos rfl]
        simp only [acceptedTotal, UpdateCall.acceptedFor, if_true, add_zero] at before later moved
        have same : now = seen := Int32.toInt.inj (by omega)
        simpa only [readStillCurrent, same] using current
    · intro fresh id p first
      obtain ⟨now,current,before⟩ := right id p first
      obtain ⟨p',found',_⟩ := Stock.becameFound
        (updateKeeps became (prepared i call found) act).1 first
      have now' : quantityOf items' id = some p'.quantity := by simp [quantityOf, found']
      refine ⟨p'.quantity,now',?_⟩
      have own := freshBalance became (prepared i call found) ⟨fresh call found,act⟩ id
      have moved := sumSet (UpdateCall.acceptedFor id) c.procs i call call' found
      rw [levelOfSome current, levelOfSome now'] at own
      simp only [acceptedTotal] at before ⊢
      omega

theorem lostUpdateExactly (s : Stock) (calls : List (Guid × Int32)) (schedule : List ℕ)
    (c : Config (List Product) UpdateCall)
    (run : Run (Step (restricted readStillCurrent UpdateStep)) (requested s calls) schedule c) :
    Accounted s c ∧
    (∀ id p, firstOrDefault id s.items = some p → acceptedTotal c id ≤ p.quantity.toInt) ∧
    ∀ i c', Step UpdateStep c i c' →
      (Accounted s c' ↔ ∀ call, c.procs[i]? = some call → readStillCurrent c.shared call) := by
  have right := freshAccounted run
  refine ⟨right,?_,?_⟩
  · intro id p found
    obtain ⟨now,current,account⟩ := right id p found
    obtain ⟨s',same,_⟩ := (reachedPrepared (restrictedRun run)).1
    rw [← same] at current
    obtain ⟨p',found',hit⟩ := Option.map_eq_some_iff.mp current
    have nonneg := s'.nonneg p' (firstOrDefaultSome found').1
    rw [hit] at nonneg
    omega
  · intro i c' step
    exact accountedExactly (restrictedRun run) right step

section Sequence

def twoStored : List Product := storeQuantity lenovo 29 (storeQuantity lenovo 36 items)

/- Two calls on one product, one after the other. -/
theorem lostUpdateExactlyInTurn :
    Accounted Stock.initial ⟨twoStored,[.accepted lenovo 5,.accepted lenovo 7]⟩ ∧
    acceptedTotal ⟨twoStored,[.accepted lenovo 5,.accepted lenovo 7]⟩ lenovo ≤ 41 := by
  have checkFirst : Step (restricted readStillCurrent UpdateStep)
      (requested Stock.initial [(lenovo,5),(lenovo,7)]) 0
      ⟨items,[.checked lenovo 5 41 36,.waiting lenovo 7]⟩ := .move rfl ⟨trivial,.check rfl rfl⟩
  have storeFirst : Step (restricted readStillCurrent UpdateStep)
      ⟨items,[.checked lenovo 5 41 36,.waiting lenovo 7]⟩ 0
      ⟨storeQuantity lenovo 36 items,[.accepted lenovo 5,.waiting lenovo 7]⟩ :=
    .move rfl ⟨rfl,.store⟩
  have checkSecond : Step (restricted readStillCurrent UpdateStep)
      ⟨storeQuantity lenovo 36 items,[.accepted lenovo 5,.waiting lenovo 7]⟩ 1
      ⟨storeQuantity lenovo 36 items,[.accepted lenovo 5,.checked lenovo 7 36 29]⟩ :=
    .move rfl ⟨trivial,.check rfl rfl⟩
  have storeSecond : Step (restricted readStillCurrent UpdateStep)
      ⟨storeQuantity lenovo 36 items,[.accepted lenovo 5,.checked lenovo 7 36 29]⟩ 1
      ⟨twoStored,[.accepted lenovo 5,.accepted lenovo 7]⟩ := .move rfl ⟨rfl,.store⟩
  have run := Run.snoc (.snoc (.snoc (runSingle checkFirst) storeFirst) checkSecond) storeSecond
  have result := lostUpdateExactly Stock.initial [(lenovo,5),(lenovo,7)] _ _ run
  exact ⟨result.1,result.2.1 lenovo _ rfl⟩

end Sequence
end MonitoringForDevOps.StockService.UpdateRace
