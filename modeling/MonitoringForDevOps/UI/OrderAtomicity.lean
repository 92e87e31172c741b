import MonitoringForDevOps.UI.OrderInterleaving

/-! Order runs over atomic UpdateProducts calls. They are runs of the finer system,
and the stock accounts for exactly the runs whose product PUT was accepted. -/
namespace MonitoringForDevOps.UI.OrderAtomicity
open Library Common WrappingInt Runs Interleaving StockService PaymentService UpdateRace OrderInterleaving

theorem acceptsSplit {items id q updated} (ok : updateProducts items id q = .ok updated) :
    ∃ seen n, quantityOf items id = some seen ∧ checkUpdate items id q = .ok n ∧
      updated = storeQuantity id n items := by
  simp only [updateProducts, bind, Except.bind] at ok
  cases check : checkUpdate items id q with
  | error e => rw [check] at ok; cases ok
  | ok n =>
    rw [check] at ok
    cases found : firstOrDefault id items with
    | none => rw [checkUpdateNone found] at check; cases check
    | some p => exact ⟨p.quantity,n,by simp only [quantityOf, found, Option.map_some],rfl,by cases ok; rfl⟩

theorem throwsCheck {items id q e} (error : updateProducts items id q = .error e) :
    checkUpdate items id q = .error e := by
  simp only [updateProducts, bind, Except.bind] at error
  cases check : checkUpdate items id q with
  | error e' => rw [check] at error; cases error; rfl
  | ok n => rw [check] at error; cases error

/- An atomic call is one fine step, or a check with the store right after it. -/
theorem atomicSplit {i items call items' call'} (act : AtomicUpdate i items call items' call') :
    UpdateStep i items call items' call' ∨
      ∃ between, UpdateStep i items call items between ∧ readStillCurrent items between ∧
        (∀ j items, acceptedEntry j items between = []) ∧
        UpdateStep i items between items' call' := by
  cases act with
  | accepts ok =>
    obtain ⟨seen,n,read,check,same⟩ := acceptsSplit ok
    subst same
    exact .inr ⟨_,.check read check,read,fun _ _ => rfl,.store⟩
  | throws error => exact .inl (.throws (throwsCheck error))

theorem twoMoves {c : Config Services Client} {i client mid s' client'}
    (found : c.procs[i]? = some client) (first : ClientStep UpdateStep i c.shared client c.shared mid)
    (second : ClientStep UpdateStep i c.shared mid s' client') :
    ∃ between, Step (ClientStep UpdateStep) c i between ∧
      Step (ClientStep UpdateStep) between i ⟨s',c.procs.set i client'⟩ := by
  have bound : i < c.procs.length := (List.getElem?_eq_some_iff.mp found).1
  have halfway : (c.procs.set i mid)[i]? = some mid := List.getElem?_set_self bound
  have last : Step (ClientStep UpdateStep) ⟨c.shared,c.procs.set i mid⟩ i
      ⟨s',(c.procs.set i mid).set i client'⟩ := .move halfway second
  rw [List.set_set] at last
  exact ⟨_,.move found first,last⟩

theorem atomicStep {c i c'} (step : Step (ClientStep AtomicUpdate) c i c') :
    Step (ClientStep UpdateStep) c i c' ∨ ∃ mid, Step (ClientStep UpdateStep) c i mid ∧
      Step (ClientStep UpdateStep) mid i c' := by
  cases step with
  | @move client s' client' found act =>
    have silent (call : UpdateCall) (none_ : ∀ j items, acceptedEntry j items call = []) :
        c.shared.updated i c.shared.items call = c.shared := by
      simp [Services.updated, none_]
    cases act with
    | @reserve order product call items' call' act =>
      rcases atomicSplit act with fine | ⟨between,check,_,none_,store⟩
      · exact .inl (.move found (.reserve fine))
      · have first : ClientStep UpdateStep i c.shared (.order order (.reserving product call))
            (c.shared.updated i c.shared.items between)
            (.order order (.reserving product between)) := .reserve check
        rw [silent between none_] at first
        exact .inr (twoMoves found first (.reserve store))
    | @direct call items' call' act =>
      rcases atomicSplit act with fine | ⟨between,check,_,none_,store⟩
      · exact .inl (.move found (.direct fine))
      · have first : ClientStep UpdateStep i c.shared (.direct call)
            (c.shared.updated i c.shared.items between) (.direct between) := .direct check
        rw [silent between none_] at first
        exact .inr (twoMoves found first (.direct store))
    | list => exact .inl (.move found .list)
    | lookup ok => exact .inl (.move found (.lookup ok))
    | lookupThrows error => exact .inl (.move found (.lookupThrows error))
    | pay answered ok made => exact .inl (.move found (.pay answered ok made))
    | overflows answered ok error => exact .inl (.move found (.overflows answered ok error))
    | stockThrows answered error => exact .inl (.move found (.stockThrows answered error))
    | charge providers => exact .inl (.move found (.charge providers))
    | returns ok => exact .inl (.move found (.returns ok))
    | paymentThrows error => exact .inl (.move found (.paymentThrows error))

theorem atomicRun {start schedule c} (run : Run (Step (ClientStep AtomicUpdate)) start schedule c) :
    ∃ finer, Run (Step (ClientStep UpdateStep)) start finer c := by
  induction run with
  | nil => exact ⟨[],.nil⟩
  | snoc before last ih =>
    obtain ⟨finer,run⟩ := ih
    rcases atomicStep last with one | ⟨mid,first,second⟩
    · exact ⟨_,.snoc run one⟩
    · exact ⟨_,.snoc (.snoc run first) second⟩

def orderRuns (stock : Stock) (orders : List Order) : Config Services Client :=
  opening stock (orders.map (fun order => .order order .started))

def Client.finished : Client → Bool
  | .order _ .returned => true
  | .order _ (.threw _ _) => true
  | _ => false

def Client.returnedFor (id : Guid) : Client → ℤ
  | .order order .returned => if order.id = id then order.quantity.toInt else 0
  | _ => 0

def Client.returnedOrUnpaidFor (id : Guid) : Client → ℤ
  | .order order .returned => if order.id = id then order.quantity.toInt else 0
  | .order order (.threw .payment _) => if order.id = id then order.quantity.toInt else 0
  | _ => 0

def LeavesStock (stock : Stock) (takes : Guid → Client → ℤ) (c : Config Services Client) : Prop :=
  ∀ id p, firstOrDefault id stock.items = some p → ∃ now,
    quantityOf c.shared.items id = some now ∧
    now.toInt = p.quantity.toInt - (c.procs.map (takes id)).sum

def OrdersAreAtomic (stock : Stock) : Prop :=
  ∀ orders : List Order, (∀ order ∈ orders, 0 < order.quantity.toInt) →
    ∀ schedule c, Run (Step (ClientStep AtomicUpdate)) (orderRuns stock orders) schedule c →
      (∀ client ∈ c.procs, Client.finished client = true) → LeavesStock stock Client.returnedFor c

section Unnamed

def unnamed : Order := ⟨lenovo,1,some "",some "visa",some "4111"⟩

def unnamedPayment : Payment := ⟨some "visa",some "4111",some "",lenovoPrice⟩

def unnamedLeft : List Product := storeQuantity lenovo 40 items

def unnamedEnd : Config Services Client :=
  ⟨⟨unnamedLeft,[.reserved 0 lenovo 1 unnamedLeft,.received 0 unnamedPayment unnamedLeft]⟩,
    [.order unnamed (.threw .payment .httpRequest)]⟩

/- The payment service refuses a payment without a name after the stock is taken. -/
theorem unnamedRun :
    Run (Step (ClientStep AtomicUpdate)) (orderRuns Stock.initial [unnamed])
      [0,0,0,0,0,0] unnamedEnd := by
  have list : Step (ClientStep AtomicUpdate) (orderRuns Stock.initial [unnamed]) 0
      ⟨⟨items,[]⟩,[.order unnamed (.listed items)]⟩ := .move rfl .list
  have lookup : Step (ClientStep AtomicUpdate) ⟨⟨items,[]⟩,[.order unnamed (.listed items)]⟩ 0
      ⟨⟨items,[]⟩,[.order unnamed (.reserving lenovoProduct (.waiting lenovo 1))]⟩ :=
    .move rfl (.lookup rfl)
  have reserve : Step (ClientStep AtomicUpdate)
      ⟨⟨items,[]⟩,[.order unnamed (.reserving lenovoProduct (.waiting lenovo 1))]⟩ 0
      ⟨⟨unnamedLeft,[.reserved 0 lenovo 1 unnamedLeft]⟩,
        [.order unnamed (.reserving lenovoProduct (.accepted lenovo 1))]⟩ :=
    .move rfl (.reserve (AtomicUpdate.accepts rfl))
  have pay : Step (ClientStep AtomicUpdate)
      ⟨⟨unnamedLeft,[.reserved 0 lenovo 1 unnamedLeft]⟩,
        [.order unnamed (.reserving lenovoProduct (.accepted lenovo 1))]⟩ 0
      ⟨⟨unnamedLeft,[.reserved 0 lenovo 1 unnamedLeft]⟩,
        [.order unnamed (.charging unnamedPayment)]⟩ := .move rfl (.pay rfl rfl rfl)
  have charge : Step (ClientStep AtomicUpdate)
      ⟨⟨unnamedLeft,[.reserved 0 lenovo 1 unnamedLeft]⟩,
        [.order unnamed (.charging unnamedPayment)]⟩ 0
      ⟨unnamedEnd.shared,[.order unnamed (.charged (.badRequest (some "Missing Name")))]⟩ :=
    .move rfl (.charge ⟨.answered 200,.answered 200⟩)
  have refuse : Step (ClientStep AtomicUpdate)
      ⟨unnamedEnd.shared,[.order unnamed (.charged (.badRequest (some "Missing Name")))]⟩ 0
      unnamedEnd := .move rfl (.paymentThrows rfl)
  exact .snoc (.snoc (.snoc (.snoc (.snoc (runSingle list) lookup) reserve) pay) charge) refuse

theorem failedPaymentKeepsReservation : ¬ OrdersAreAtomic Stock.initial := by
  intro claim
  obtain ⟨now,current,account⟩ := claim [unnamed] (by decide) _ _ unnamedRun (by decide) lenovo _ rfl
  have last : quantityOf unnamedEnd.shared.items lenovo = some 40 := by decide
  cases Option.some.inj (last.symm.trans current)
  exact absurd account (by decide)

end Unnamed

/- What a run has taken out of the stock so far, in any phase. -/
def Client.heldFor (id : Guid) : Client → ℤ
  | .order order phase =>
      match phase with
      | .started | .listed _ | .threw .lookup _ | .threw .stock _ => 0
      | .reserving _ call => call.acceptedFor id
      | .charging _ | .charged _ | .returned | .threw .payment _ =>
          if order.id = id then order.quantity.toInt else 0
  | .direct call => call.acceptedFor id

theorem atomicBalance {stock : Stock} {i items call items' call'} (became : stock.Became items)
    (prepared : Prepared stock call) (act : AtomicUpdate i items call items' call') (id : Guid) :
    levelOf id items' + call'.acceptedFor id = levelOf id items + call.acceptedFor id := by
  have unchecked : readStillCurrent items call := by
    cases act <;> exact trivial
  rcases atomicSplit act with fine | ⟨between,check,fresh,_,store⟩
  · exact freshBalance became prepared ⟨unchecked,fine⟩ id
  · have first := freshBalance became prepared ⟨unchecked,check⟩ id
    have second := freshBalance became (updateKeeps became prepared check).2 ⟨fresh,store⟩ id
    exact second.trans first

theorem clientBalance {stock : Stock} {clients i s client s' client'}
    (sound : ServicesSound stock clients s) (here : ClientSound stock clients i s.log client)
    (step : ClientStep AtomicUpdate i s client s' client') (id : Guid) :
    levelOf id s'.items + Client.heldFor id client' =
      levelOf id s.items + Client.heldFor id client := by
  have accepted {order : Order} {call response} (asked : call.asked = (order.id,order.quantity))
      (answered : putAnswer call = some response)
      (ok : ensureSuccessStatusCode response.statusCode = .ok ()) :
      call.acceptedFor id = if order.id = id then order.quantity.toInt else 0 := by
    obtain ⟨id',q,same⟩ := answeredOk answered ok
    subst same
    cases asked
    rfl
  cases step with
  | reserve act => exact atomicBalance sound.1 here.2.2.1 act id
  | direct act => exact atomicBalance sound.1 here.2.1 act id
  | pay answered ok made =>
    exact congrArg (levelOf id s.items + ·) (accepted here.2.2.2.1 answered ok).symm
  | overflows answered ok error =>
    exact congrArg (levelOf id s.items + ·) (accepted here.2.2.2.1 answered ok).symm
  | stockThrows answered error =>
    obtain ⟨id',q,e',same⟩ := answeredError answered error
    subst same
    rfl
  | _ => rfl

theorem nothingHeld (stock : Stock) (orders : List Order) (id : Guid) :
    ((orderRuns stock orders).procs.map (Client.heldFor id)).sum = 0 := by
  simp only [orderRuns, opening, List.map_map]
  induction orders with
  | nil => rfl
  | cons order orders ih => simpa [Client.heldFor] using ih

theorem heldAccounted {stock : Stock} {orders schedule c}
    (run : Run (Step (ClientStep AtomicUpdate)) (orderRuns stock orders) schedule c) :
    LeavesStock stock Client.heldFor c := by
  have fresh : ∀ client ∈ orders.map (fun order => Client.order order .started), client.fresh := by
    intro client mem
    obtain ⟨order,_,same⟩ := List.mem_map.mp mem
    subst same
    rfl
  have good (schedule : List ℕ) (c : Config Services Client)
      (run : Run (Step (ClientStep AtomicUpdate)) (orderRuns stock orders) schedule c) :=
    reachedSound fresh (atomicRun run).choose_spec
  intro id p found
  have total := conserved (fun s => levelOf id s.items) (Client.heldFor id) _ good
    (fun i c client s' client' sound at_ step =>
      clientBalance sound.1 (sound.2 i client at_) step id) run
  rw [nothingHeld stock orders id, add_zero] at total
  exact levelAccount (good _ _ run).1.1 found total

theorem orderStockAccounted (stock : Stock) (orders : List Order) (schedule : List ℕ)
    (c : Config Services Client)
    (run : Run (Step (ClientStep AtomicUpdate)) (orderRuns stock orders) schedule c)
    (quiet : ∀ client ∈ c.procs, Client.finished client = true) :
    LeavesStock stock Client.returnedOrUnpaidFor c := by
  intro id p found
  obtain ⟨now,current,account⟩ := heldAccounted run id p found
  refine ⟨now,current,?_⟩
  have same : c.procs.map (Client.returnedOrUnpaidFor id) = c.procs.map (Client.heldFor id) := by
    apply List.map_congr_left
    intro client mem
    have finished := quiet client mem
    cases client with
    | direct call => cases finished
    | order order phase =>
      cases phase with
      | returned => rfl
      | threw stage e => cases stage <;> rfl
      | _ => cases finished
  rw [same]
  exact account

theorem orderStockAccountedUnnamed :
    LeavesStock Stock.initial Client.returnedOrUnpaidFor unnamedEnd :=
  orderStockAccounted Stock.initial [unnamed] _ _ unnamedRun (by decide)

end MonitoringForDevOps.UI.OrderAtomicity
