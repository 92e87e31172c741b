import MonitoringForDevOps.Library.Refinement
import MonitoringForDevOps.UI.OrderAtomicity

/-! The interleavings in which every store finds the quantity its call has checked
are those of UpdateProducts calls that run in one step. -/
namespace MonitoringForDevOps.UI.OrderRefinement
open Library Common WrappingInt Runs Interleaving Refinement StockService PaymentService UpdateRace
  OrderInterleaving OrderAtomicity

/- A call between its check and its store has not acted yet. -/
def callSettled : UpdateCall → UpdateCall
  | .checked id q _ _ => .waiting id q
  | call => call

def phaseSettled : Phase → Phase
  | .reserving product call => .reserving product (callSettled call)
  | phase => phase

def clientSettled : Client → Client
  | .order order phase => .order order (phaseSettled phase)
  | .direct call => .direct (callSettled call)

def clientReadsCurrent (s : Services) : Client → Prop
  | .order _ (.reserving _ call) => readStillCurrent s.items call
  | .direct call => readStillCurrent s.items call
  | _ => True

/- What a check has computed from the quantity it read. -/
def CallChecked : UpdateCall → Prop
  | .checked _ q seen n => n = seen - q ∧ ¬ seen - q < 0
  | _ => True

def ClientChecked : Client → Prop
  | .order _ (.reserving _ call) => CallChecked call
  | .direct call => CallChecked call
  | _ => True

theorem checkRead {items id seen} (read : quantityOf items id = some seen) (q : Int32) :
    checkUpdate items id q =
      if seen - q < 0 then .error (.argument "quantity") else .ok (seen - q) := by
  obtain ⟨p,found,same⟩ := Option.map_eq_some_iff.mp read
  subst same
  simp only [checkUpdate, found]

theorem storeAccepts {items id q seen n} (fresh : quantityOf items id = some seen)
    (checked : CallChecked (.checked id q seen n)) :
    updateProducts items id q = .ok (storeQuantity id n items) := by
  obtain ⟨same,positive⟩ := checked
  simp only [updateProducts, checkRead fresh, if_neg positive, same, bind, Except.bind, pure,
    Except.pure]

theorem callRefines {i items call items' call'} (checked : CallChecked call)
    (fresh : readStillCurrent items call) (step : UpdateStep i items call items' call') :
    CallChecked call' ∧ ((items' = items ∧ callSettled call' = callSettled call ∧
      ∀ j items, acceptedEntry j items call' = []) ∨
      AtomicUpdate i items (callSettled call) items' (callSettled call')) := by
  cases step with
  | @check id q seen n read ok =>
    rw [checkRead read] at ok
    split at ok
    · cases ok
    · rename_i positive
      cases ok
      exact ⟨⟨rfl,positive⟩,.inl ⟨rfl,rfl,fun _ _ => rfl⟩⟩
  | @throws id q e error =>
    refine ⟨trivial,.inr (.throws ?_)⟩
    simp only [updateProducts, error, bind, Except.bind]
  | store => exact ⟨trivial,.inr (.accepts (storeAccepts fresh checked))⟩

theorem settledEntry (i : ℕ) (items : List Product) (call : UpdateCall) :
    acceptedEntry i items (callSettled call) = acceptedEntry i items call := by
  cases call <;> rfl

theorem settledAnswer {call response} (answered : putAnswer call = some response) :
    callSettled call = call := by
  cases call <;> first | rfl | cases answered

theorem updatedQuiet {s : Services} {i items' call'} (same : items' = s.items)
    (silent : ∀ j items, acceptedEntry j items call' = []) : s.updated i items' call' = s := by
  subst same
  simp [Services.updated, silent]

theorem updatedSettled (s : Services) (i : ℕ) (items' : List Product) (call' : UpdateCall) :
    s.updated i items' (callSettled call') = s.updated i items' call' := by
  simp only [Services.updated, settledEntry]

theorem clientRefines : Refines id clientSettled ClientChecked
    (restricted clientReadsCurrent (ClientStep UpdateStep)) (ClientStep AtomicUpdate) := by
  intro i s client s' client' checked step
  obtain ⟨fresh,step⟩ := step
  cases step with
  | @reserve order product call items' call' act =>
    obtain ⟨kept,⟨same,quiet,silent⟩ | atomic⟩ := callRefines checked fresh act
    · refine ⟨kept,.inl ⟨updatedQuiet same silent,?_⟩⟩
      simp only [clientSettled, phaseSettled, quiet]
    · refine ⟨kept,.inr ?_⟩
      rw [← updatedSettled]
      exact .reserve atomic
  | @direct call items' call' act =>
    obtain ⟨kept,⟨same,quiet,silent⟩ | atomic⟩ := callRefines checked fresh act
    · refine ⟨kept,.inl ⟨updatedQuiet same silent,?_⟩⟩
      simp only [clientSettled, quiet]
    · refine ⟨kept,.inr ?_⟩
      rw [← updatedSettled]
      exact .direct atomic
  | list => exact ⟨trivial,.inr .list⟩
  | lookup ok => exact ⟨trivial,.inr (.lookup ok)⟩
  | lookupThrows error => exact ⟨trivial,.inr (.lookupThrows error)⟩
  | pay answered ok made =>
    refine ⟨trivial,.inr ?_⟩
    simp only [clientSettled, phaseSettled, settledAnswer answered]
    exact .pay answered ok made
  | overflows answered ok error =>
    refine ⟨trivial,.inr ?_⟩
    simp only [clientSettled, phaseSettled, settledAnswer answered]
    exact .overflows answered ok error
  | stockThrows answered error =>
    refine ⟨trivial,.inr ?_⟩
    simp only [clientSettled, phaseSettled, settledAnswer answered]
    exact .stockThrows answered error
  | charge providers => exact ⟨trivial,.inr (.charge providers)⟩
  | returns ok => exact ⟨trivial,.inr (.returns ok)⟩
  | paymentThrows error => exact ⟨trivial,.inr (.paymentThrows error)⟩

/- An atomic call waits, so it may be checked at once; its store is then fresh. -/
theorem atomicFresh {i items call items' call'} (act : AtomicUpdate i items call items' call') :
    readStillCurrent items call := by
  cases act <;> exact trivial

theorem answeredCurrent {call response} (answered : putAnswer call = some response)
    (items : List Product) : readStillCurrent items call := by
  cases call with
  | checked id q seen n => cases answered
  | _ => exact trivial

theorem clientExpands : Expands (ClientStep AtomicUpdate)
    (restricted clientReadsCurrent (ClientStep UpdateStep)) := by
  intro i s client s' client' step
  cases step with
  | @reserve order product call items' call' act =>
    have fresh := atomicFresh act
    rcases atomicSplit act with fine | ⟨between,check,current,silent,store⟩
    · exact .inl ⟨fresh,.reserve fine⟩
    · have first : ClientStep UpdateStep i s (.order order (.reserving product call))
          (s.updated i s.items between) (.order order (.reserving product between)) :=
        .reserve check
      rw [updatedQuiet rfl silent] at first
      exact .inr ⟨_,⟨fresh,first⟩,⟨current,.reserve store⟩⟩
  | @direct call items' call' act =>
    have fresh := atomicFresh act
    rcases atomicSplit act with fine | ⟨between,check,current,silent,store⟩
    · exact .inl ⟨fresh,.direct fine⟩
    · have first : ClientStep UpdateStep i s (.direct call) (s.updated i s.items between)
          (.direct between) := .direct check
      rw [updatedQuiet rfl silent] at first
      exact .inr ⟨_,⟨fresh,first⟩,⟨current,.direct store⟩⟩
  | list => exact .inl ⟨trivial,.list⟩
  | lookup ok => exact .inl ⟨trivial,.lookup ok⟩
  | lookupThrows error => exact .inl ⟨trivial,.lookupThrows error⟩
  | pay answered ok made =>
    exact .inl ⟨answeredCurrent answered s.items,.pay answered ok made⟩
  | overflows answered ok error =>
    exact .inl ⟨answeredCurrent answered s.items,.overflows answered ok error⟩
  | stockThrows answered error =>
    exact .inl ⟨answeredCurrent answered s.items,.stockThrows answered error⟩
  | charge providers => exact .inl ⟨trivial,.charge providers⟩
  | returns ok => exact .inl ⟨trivial,.returns ok⟩
  | paymentThrows error => exact .inl ⟨trivial,.paymentThrows error⟩

theorem freshSettled {client : Client} (fresh : client.fresh) :
    clientSettled client = client ∧ ClientChecked client := by
  cases client with
  | order order phase => cases fresh; exact ⟨rfl,trivial⟩
  | direct call =>
    obtain ⟨id,q,same⟩ := fresh
    subst same
    exact ⟨rfl,trivial⟩

theorem freshRunsAreAtomic (stock : Stock) (clients : List Client)
    (fresh : ∀ client ∈ clients, client.fresh) :
    (∀ schedule c,
      Run (Step (restricted clientReadsCurrent (ClientStep UpdateStep))) (opening stock clients)
        schedule c →
      ∃ turns, turns.Sublist schedule ∧
        Run (Step (ClientStep AtomicUpdate)) (opening stock clients) turns
          (viewed id clientSettled c)) ∧
    ∀ schedule c, Run (Step (ClientStep AtomicUpdate)) (opening stock clients) schedule c →
      ∃ turns, schedule.Sublist turns ∧
        Run (Step (restricted clientReadsCurrent (ClientStep UpdateStep))) (opening stock clients)
          turns c := by
  refine ⟨?_,fun _ _ run => expandedRun clientExpands run⟩
  intro schedule c run
  have checked : ∀ client ∈ (opening stock clients).procs, ClientChecked client :=
    fun client mem => (freshSettled (fresh client mem)).2
  have start : viewed id clientSettled (opening stock clients) = opening stock clients :=
    viewedSelf fun client mem => (freshSettled (fresh client mem)).1
  obtain ⟨_,turns,inside,atomic⟩ := refinedRun clientRefines checked run
  rw [start] at atomic
  exact ⟨turns,inside,atomic⟩

section Apart

def lenovoAndGeoBook : List Product := storeQuantity geoBook 98 (storeQuantity lenovo 36 items)

def bothStored : List Entry :=
  [.reserved 0 lenovo 5 (storeQuantity lenovo 36 items),.reserved 1 geoBook 1 lenovoAndGeoBook]

/- Two PUTs overlap on different products. -/
theorem freshRunsAreAtomicApart :
    ∃ turns, turns.Sublist [0,1,0,1] ∧
      Run (Step (ClientStep AtomicUpdate))
        (opening Stock.initial [.direct (.waiting lenovo 5),.direct (.waiting geoBook 1)]) turns
        ⟨⟨lenovoAndGeoBook,bothStored⟩,
          [.direct (.accepted lenovo 5),.direct (.accepted geoBook 1)]⟩ := by
  have checkFirst : Step (restricted clientReadsCurrent (ClientStep UpdateStep))
      (opening Stock.initial [.direct (.waiting lenovo 5),.direct (.waiting geoBook 1)]) 0
      ⟨⟨items,[]⟩,[.direct (.checked lenovo 5 41 36),.direct (.waiting geoBook 1)]⟩ :=
    .move rfl ⟨trivial,.direct (UpdateStep.check rfl rfl)⟩
  have checkSecond : Step (restricted clientReadsCurrent (ClientStep UpdateStep))
      ⟨⟨items,[]⟩,[.direct (.checked lenovo 5 41 36),.direct (.waiting geoBook 1)]⟩ 1
      ⟨⟨items,[]⟩,[.direct (.checked lenovo 5 41 36),.direct (.checked geoBook 1 99 98)]⟩ :=
    .move rfl ⟨trivial,.direct (UpdateStep.check rfl rfl)⟩
  have storeFirst : Step (restricted clientReadsCurrent (ClientStep UpdateStep))
      ⟨⟨items,[]⟩,[.direct (.checked lenovo 5 41 36),.direct (.checked geoBook 1 99 98)]⟩ 0
      ⟨⟨storeQuantity lenovo 36 items,[.reserved 0 lenovo 5 (storeQuantity lenovo 36 items)]⟩,
        [.direct (.accepted lenovo 5),.direct (.checked geoBook 1 99 98)]⟩ :=
    .move rfl ⟨rfl,.direct UpdateStep.store⟩
  have storeSecond : Step (restricted clientReadsCurrent (ClientStep UpdateStep))
      ⟨⟨storeQuantity lenovo 36 items,[.reserved 0 lenovo 5 (storeQuantity lenovo 36 items)]⟩,
        [.direct (.accepted lenovo 5),.direct (.checked geoBook 1 99 98)]⟩ 1
      ⟨⟨lenovoAndGeoBook,bothStored⟩,
        [.direct (.accepted lenovo 5),.direct (.accepted geoBook 1)]⟩ :=
    .move rfl ⟨rfl,.direct UpdateStep.store⟩
  exact (freshRunsAreAtomic Stock.initial
    [.direct (.waiting lenovo 5),.direct (.waiting geoBook 1)] (by simp [Client.fresh])).1 _ _
    (.snoc (.snoc (.snoc (runSingle checkFirst) checkSecond) storeFirst) storeSecond)

end Apart
end MonitoringForDevOps.UI.OrderRefinement
