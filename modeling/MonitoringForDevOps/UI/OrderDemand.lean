import MonitoringForDevOps.UI.OrderAtomicity
import MonitoringForDevOps.UI.OrderSurvivors

/-! Orders and PUTs that together ask for no more than the stock. Lost updates only
leave more in stock than was taken, so none of them is ever refused. -/
namespace MonitoringForDevOps.UI.OrderDemand
open Library Common WrappingInt Runs Interleaving ReadModifyWrite StockService PaymentService
  UpdateRace OrderInterleaving OrderAtomicity OrderSurvivors

def asked : Client → Guid × Int32
  | .order order _ => (order.id,order.quantity)
  | .direct call => call.asked

def demandFor (id : Guid) (ask : Guid × Int32) : ℤ := if ask.1 = id then ask.2.toInt else 0

/- All asks are for stocked products, and no product is asked for beyond its stock. -/
structure Affordable (stock : Stock) (asks : List (Guid × Int32)) : Prop where
  stocked : ∀ ask ∈ asks, ∃ p, firstOrDefault ask.1 stock.items = some p
  nonneg : ∀ ask ∈ asks, 0 ≤ ask.2.toInt
  within : ∀ id p, firstOrDefault id stock.items = some p →
    (asks.map (demandFor id)).sum ≤ p.quantity.toInt

def refused : Client → Bool
  | .order _ (.reserving _ (.threw _ _ _)) => true
  | .order _ (.threw .lookup _) => true
  | .order _ (.threw .stock _) => true
  | .direct (.threw _ _ _) => true
  | _ => false

theorem stepAsked {i s client s' client'} (step : ClientStep UpdateStep i s client s' client') :
    asked client' = asked client := by
  cases step with
  | direct act => exact updateAsked act
  | _ => rfl

theorem askedKept {stock : Stock} {clients schedule c}
    (run : Run (Step (ClientStep UpdateStep)) (opening stock clients) schedule c) :
    c.procs.map asked = clients.map asked := by
  refine runInvariant (fun c => c.procs.map asked = clients.map asked) rfl ?_ run
  intro c i c' same step
  cases step with
  | move found act =>
    rw [← same]
    exact mapSetSame asked found (stepAsked act)

theorem demandNonneg {ask : Guid × Int32} (nonneg : 0 ≤ ask.2.toInt) (id : Guid) :
    0 ≤ demandFor id ask := by
  unfold demandFor
  split
  · exact nonneg
  · exact Int.le_refl 0

theorem acceptedWithdrawn (id : Guid) (i : ℕ) (items : List Product) (call : UpdateCall) :
    (withdrawals id (acceptedEntry i items call)).sum = call.acceptedFor id := by
  cases call with
  | accepted j q =>
    rw [withdrawalsAccepted]
    simp only [UpdateCall.acceptedFor]
    split <;> simp
  | _ => rfl

theorem unacceptedHeld {i items call items' call'} (step : UpdateStep i items call items' call')
    (id : Guid) : call.acceptedFor id = 0 := by
  cases step <;> rfl

/- What the clients hold is what the log has withdrawn. -/
theorem stepWithdrawn {stock : Stock} {clients i s client s' client'}
    (here : ClientSound stock clients i s.log client)
    (step : ClientStep UpdateStep i s client s' client') (id : Guid) :
    (withdrawals id s'.log).sum + -Client.heldFor id client' =
      (withdrawals id s.log).sum + -Client.heldFor id client := by
  have accepted {order : Order} {call response} (asked : call.asked = (order.id,order.quantity))
      (answered : putAnswer call = some response)
      (ok : ensureSuccessStatusCode response.statusCode = .ok ()) :
      call.acceptedFor id = if order.id = id then order.quantity.toInt else 0 := by
    obtain ⟨id',q,same⟩ := answeredOk answered ok
    subst same
    cases asked
    rfl
  cases step with
  | reserve act =>
    simp only [Services.updated, withdrawalsAppend, List.sum_append, acceptedWithdrawn,
      Client.heldFor, unacceptedHeld act id]
    omega
  | direct act =>
    simp only [Services.updated, withdrawalsAppend, List.sum_append, acceptedWithdrawn,
      Client.heldFor, unacceptedHeld act id]
    omega
  | pay answered ok made =>
    simp only [Client.heldFor, accepted here.2.2.2.1 answered ok]
  | overflows answered ok error =>
    simp only [Client.heldFor, accepted here.2.2.2.1 answered ok]
  | stockThrows answered error =>
    obtain ⟨id',q,e',same⟩ := answeredError answered error
    subst same
    rfl
  | @charge order payment providers =>
    have silent : withdrawals id [.received i payment s.items] = [] := rfl
    simp only [Services.paid, withdrawalsAppend, silent, List.append_nil]
    rfl
  | _ => rfl

theorem freshHeld {client : Client} (fresh : client.fresh) (id : Guid) :
    Client.heldFor id client = 0 := by
  cases client with
  | order order phase => cases fresh; rfl
  | direct call =>
    obtain ⟨j,q,same⟩ := fresh
    subst same
    rfl

theorem freshHeldSum {clients : List Client} (fresh : ∀ client ∈ clients, client.fresh)
    (id : Guid) : (clients.map (fun client => -Client.heldFor id client)).sum = 0 := by
  refine List.sum_eq_zero ?_
  intro held mem
  obtain ⟨client,inside,same⟩ := List.mem_map.mp mem
  rw [← same, freshHeld (fresh client inside) id]
  rfl

theorem heldSum (id : Guid) (procs : List Client) :
    (procs.map (fun client => -Client.heldFor id client)).sum =
      -(procs.map (Client.heldFor id)).sum := by
  rw [List.sum_neg, List.map_map]
  rfl

section Reached
variable {stock : Stock} {clients : List Client} {schedule : List ℕ} {c : Config Services Client}

theorem heldWithdrawn (fresh : ∀ client ∈ clients, client.fresh)
    (run : Run (Step (ClientStep UpdateStep)) (opening stock clients) schedule c) (id : Guid) :
    (c.procs.map (Client.heldFor id)).sum = (withdrawals id c.shared.log).sum := by
  have total := conserved (fun s => (withdrawals id s.log).sum)
    (fun client => -Client.heldFor id client) _ (fun _ _ before => reachedSound fresh before)
    (fun i c client s' client' sound found step => stepWithdrawn (sound.2 i client found) step id)
    run
  have opened : ((opening stock clients).procs.map
      (fun client => -Client.heldFor id client)).sum = 0 := freshHeldSum fresh id
  have empty : (withdrawals id (opening stock clients).shared.log).sum = 0 := rfl
  rw [opened, empty, heldSum] at total
  omega

theorem callAsked {i log client call} (sound : ClientSound stock clients i log client)
    (is : callOf client = some call) : call.asked = asked client := by
  cases client with
  | direct call' => cases is; rfl
  | order order phase =>
    cases phase with
    | reserving product call' => cases is; exact sound.2.2.2.1
    | _ => cases is

theorem heldAsked {i log client} (sound : ClientSound stock clients i log client)
    (nonneg : 0 ≤ (asked client).2.toInt) (id : Guid) :
    Client.heldFor id client ≤ demandFor id (asked client) := by
  have positive : 0 ≤ demandFor id (asked client) := demandNonneg nonneg id
  have ofCall (call : UpdateCall) (same : call.asked = asked client) :
      call.acceptedFor id ≤ demandFor id (asked client) := by
    cases call with
    | accepted j q => rw [← same]; exact Int.le_refl _
    | _ => exact positive
  cases client with
  | direct call => exact ofCall call rfl
  | order order phase =>
    cases phase with
    | reserving product call => exact ofCall call sound.2.2.2.1
    | threw stage e =>
      cases stage with
      | payment => exact Int.le_refl _
      | _ => exact positive
    | charging payment => exact Int.le_refl _
    | charged response => exact Int.le_refl _
    | returned => exact Int.le_refl _
    | _ => exact positive

theorem askedMember (run : Run (Step (ClientStep UpdateStep)) (opening stock clients) schedule c)
    {client} (mem : client ∈ c.procs) : asked client ∈ clients.map asked := by
  rw [← askedKept run]
  exact List.mem_map_of_mem mem

theorem withdrawnNonneg (fresh : ∀ client ∈ clients, client.fresh)
    (nonneg : ∀ ask ∈ clients.map asked, 0 ≤ ask.2.toInt)
    (run : Run (Step (ClientStep UpdateStep)) (opening stock clients) schedule c) (id : Guid) :
    ∀ amount ∈ withdrawals id c.shared.log, 0 ≤ amount := by
  refine runReached (fun _ c => ∀ amount ∈ withdrawals id c.shared.log, 0 ≤ amount)
    (List.forall_mem_nil _) ?_ run
  intro events c i c' before kept step
  cases step with
  | @move client s' client' found act =>
    rcases stepActs act with ⟨call,call',here,_,update,log⟩ | ⟨_,quiet | ⟨payment,paid⟩,_⟩
    · intro amount mem
      simp only [log, withdrawalsAppend] at mem
      rcases List.mem_append.mp mem with old | new
      · exact kept amount old
      · have sound := (reachedSound fresh before).2 i client found
        have same := (updateAsked update).trans (callAsked sound here)
        have ask := nonneg _ (askedMember before (List.mem_of_getElem? found))
        rw [← same] at ask
        cases call' with
        | accepted j q =>
          rw [withdrawalsAccepted] at new
          split at new
          · rw [List.mem_singleton.mp new]
            exact ask
          · cases new
        | _ => cases new
    · simp only [quiet]
      exact kept
    · have silent : withdrawals id [.received i payment c.shared.items] = [] := rfl
      simp only [paid, withdrawalsAppend, silent, List.append_nil]
      exact kept

/- A PUT that waits finds at least what it asks for, whatever the others do. -/
theorem enoughLeft (fresh : ∀ client ∈ clients, client.fresh)
    (affordable : Affordable stock (clients.map asked))
    (run : Run (Step (ClientStep UpdateStep)) (opening stock clients) schedule c)
    {i : ℕ} {client id q} (found : c.procs[i]? = some client)
    (waits : callOf client = some (.waiting id q)) :
    ∃ n, checkUpdate c.shared.items id q = .ok n := by
  obtain ⟨services,each⟩ := reachedSound fresh run
  have ask : (id,q) = asked client := callAsked (each i client found) waits
  have mem := askedMember run (List.mem_of_getElem? found)
  rw [← ask] at mem
  obtain ⟨p,stocked⟩ := affordable.stocked _ mem
  have nonneg := affordable.nonneg _ mem
  obtain ⟨p',there,_⟩ := Stock.becameFound services.1 stocked
  have level : levelOf id c.shared.items = p'.quantity.toInt :=
    levelOfSome (by simp only [quantityOf, there, Option.map_some])
  have counted := (reachedCounted fresh run).levels id p stocked
  have bounds := explainedBounds (latestExplained counted)
    (withdrawnNonneg fresh affordable.nonneg run id)
  have below : ∀ client ∈ c.procs, Client.heldFor id client ≤ demandFor id (asked client) := by
    intro client mem
    obtain ⟨j,at_⟩ := List.mem_iff_getElem?.mp mem
    exact heldAsked (each j client at_) (affordable.nonneg _ (askedMember run mem)) id
  have fits := sumBound below found
  have nothing : Client.heldFor id client = 0 := by
    cases client with
    | direct call => cases waits; rfl
    | order order phase =>
      cases phase with
      | reserving product call => cases waits; rfl
      | _ => cases waits
  have own : demandFor id (asked client) = q.toInt := by
    rw [← ask]
    exact if_pos rfl
  have total : c.procs.map (fun client => demandFor id (asked client)) =
      (clients.map asked).map (demandFor id) := by
    rw [← askedKept run, List.map_map]
    rfl
  have within := affordable.within id p stocked
  rw [total, nothing, own, heldWithdrawn fresh run id] at fits
  rw [level] at bounds
  have high := toIntBounds p'.quantity
  simp only at nonneg
  refine ⟨p'.quantity - q,?_⟩
  rw [checkUpdateSome there (by omega), if_pos (by omega)]

theorem stepUnrefused (fresh : ∀ client ∈ clients, client.fresh)
    (affordable : Affordable stock (clients.map asked))
    (run : Run (Step (ClientStep UpdateStep)) (opening stock clients) schedule c)
    {i : ℕ} {client s' client'} (found : c.procs[i]? = some client)
    (unrefused : refused client = false)
    (step : ClientStep UpdateStep i c.shared client s' client') : refused client' = false := by
  have callKept {call items' call'} (here : callOf client = some call)
      (act : UpdateStep i c.shared.items call items' call') : ∀ id q e, call' ≠ .threw id q e := by
    intro id q e threw
    subst threw
    cases act with
    | throws error =>
      obtain ⟨n,ok⟩ := enoughLeft fresh affordable run found here
      cases ok.symm.trans error
  cases step with
  | @reserve order product call items' call' act =>
    have kept := callKept rfl act
    cases call' with
    | threw id q e => exact absurd rfl (kept id q e)
    | _ => rfl
  | @direct call items' call' act =>
    have kept := callKept rfl act
    cases call' with
    | threw id q e => exact absurd rfl (kept id q e)
    | _ => rfl
  | @lookupThrows order products e error =>
    obtain ⟨_,_,catalogue⟩ := (reachedSound fresh run).2 i _ found
    obtain ⟨p,stocked⟩ := affordable.stocked _ (askedMember run (List.mem_of_getElem? found))
    have listed : products.map Product.id = stock.items.map Product.id := by
      have ids := congrArg (List.map Prod.fst) catalogue
      rw [List.map_map, List.map_map] at ids
      exact ids
    have ids : (products.map Product.id).Nodup := by rw [listed]; exact stock.ids
    have ⟨inStock,same⟩ := firstOrDefaultSome stocked
    have there : order.id ∈ products.map Product.id := by
      rw [listed]
      exact List.mem_map.mpr ⟨p,inStock,same⟩
    rw [singleDistinct ids] at error
    cases first : firstOrDefault order.id products with
    | some product => rw [first] at error; cases error
    | none =>
      obtain ⟨product,inside,hit⟩ := List.mem_map.mp there
      exact absurd hit (firstOrDefaultNone.mp first product inside)
  | stockThrows answered error =>
    obtain ⟨id,q,e,same⟩ := answeredError answered error
    subst same
    cases unrefused
  | _ => rfl

end Reached

theorem affordableNeverRefused (stock : Stock) (clients : List Client)
    (fresh : ∀ client ∈ clients, client.fresh) (affordable : Affordable stock (clients.map asked))
    (schedule : List ℕ) (c : Config Services Client)
    (run : Run (Step (ClientStep UpdateStep)) (opening stock clients) schedule c) :
    ∀ client ∈ c.procs, refused client = false := by
  refine runReached (fun _ c => ∀ client ∈ c.procs, refused client = false) ?_ ?_ run
  · intro client mem
    have start := fresh client mem
    cases client with
    | order order phase => cases start; rfl
    | direct call =>
      obtain ⟨id,q,same⟩ := start
      subst same
      rfl
  · intro events c i c' before kept step
    cases step with
    | @move client s' client' found act =>
      intro other mem
      rcases List.mem_or_eq_of_mem_set mem with old | new
      · exact kept other old
      · rw [new]
        exact stepUnrefused fresh affordable before found (kept client (List.mem_of_getElem? found)) act

section Lenovo

theorem lenovoAffordable : Affordable Stock.initial (lenovoClients.map asked) where
  stocked := by
    intro ask mem
    cases mem with
    | head => exact ⟨_,rfl⟩
    | tail _ later =>
      cases List.mem_singleton.mp later
      exact ⟨_,rfl⟩
  nonneg := by
    intro ask mem
    cases mem with
    | head => decide
    | tail _ later =>
      cases List.mem_singleton.mp later
      decide
  within := by
    intro id p found
    by_cases same : lenovo = id
    · subst same
      cases found
      decide
    · have none_ : ((lenovoClients.map asked).map (demandFor id)).sum = 0 := by
        simp [lenovoClients, asked, demandFor, lenovoOrder, UpdateCall.asked, same]
      rw [none_]
      exact Stock.initial.nonneg p (firstOrDefaultSome found).1

theorem affordableNeverRefusedLenovo :
    ∃ c, Run (Step (ClientStep UpdateStep)) (opening Stock.initial lenovoClients)
        [0,1,1,0,0,0,0,0] c ∧
      c.shared.log.length = 3 ∧ ∀ client ∈ c.procs, refused client = false :=
  ⟨lenovoServed,lenovoRun,rfl,affordableNeverRefused Stock.initial lenovoClients
    (by simp [lenovoClients, Client.fresh]) lenovoAffordable _ _ lenovoRun⟩

end Lenovo
end MonitoringForDevOps.UI.OrderDemand
