import MonitoringForDevOps.Library.SharedLog
import MonitoringForDevOps.StockService.UpdateRace
import MonitoringForDevOps.UI.OrderRepository

/-! Any number of order runs and direct product PUTs against one stock service and
one payment service. A request or response in flight is a phase of its client;
the log records what the services saw, in order, with the stock at that moment. -/
namespace MonitoringForDevOps.UI.OrderInterleaving
open Library Common WrappingInt Runs Interleaving SharedLog StockService PaymentService UpdateRace

inductive Stage where
  | lookup
  | stock
  | payment
  deriving DecidableEq, Repr

inductive Phase where
  | started
  | listed (products : List Product)
  | reserving (product : Product) (call : UpdateCall)
  | charging (payment : Payment)
  | charged (response : HttpResult)
  | returned
  | threw (stage : Stage) (e : Exn)
  deriving DecidableEq

inductive Client where
  | order (order : Order) (phase : Phase)
  | direct (call : UpdateCall)
  deriving DecidableEq

inductive Entry where
  | reserved (client : ℕ) (id : Guid) (quantity : Int32) (items : List Product)
  | received (client : ℕ) (payment : Payment) (items : List Product)
  deriving DecidableEq

def Entry.client : Entry → ℕ
  | .reserved client _ _ _ => client
  | .received client _ _ => client

def Entry.isPayment : Entry → Bool
  | .reserved _ _ _ _ => false
  | .received _ _ _ => true

/- The payments among the entries, in their order. -/
def paymentsOf (entries : List Entry) : List Payment :=
  entries.filterMap (fun
    | .reserved _ _ _ _ => none
    | .received _ payment _ => some payment)

theorem paymentsAppend (log more : List Entry) :
    paymentsOf (log ++ more) = paymentsOf log ++ paymentsOf more := List.filterMap_append

structure Services where
  items : List Product
  log : List Entry
  deriving DecidableEq

def acceptedEntry (client : ℕ) (items : List Product) : UpdateCall → List Entry
  | .accepted id q => [.reserved client id q items]
  | _ => []

def Services.updated (s : Services) (client : ℕ) (items : List Product) (call : UpdateCall) :
    Services := ⟨items,s.log ++ acceptedEntry client items call⟩

def Services.paid (s : Services) (client : ℕ) (payment : Payment) : Services :=
  ⟨s.items,s.log ++ [.received client payment s.items]⟩

def putAnswer : UpdateCall → Option HttpResult
  | .accepted _ _ => some .accepted
  | .threw _ _ e => some (catchUpdate e)
  | _ => none

abbrev Update := ℕ → List Product → UpdateCall → List Product → UpdateCall → Prop

/- UpdateProducts in one step, where no other request runs in between. -/
inductive AtomicUpdate : Update where
  | accepts {i items id q updated} (ok : updateProducts items id q = .ok updated) :
      AtomicUpdate i items (.waiting id q) updated (.accepted id q)
  | throws {i items id q e} (error : updateProducts items id q = .error e) :
      AtomicUpdate i items (.waiting id q) items (.threw id q e)

inductive ClientStep (update : Update) : ℕ → Services → Client → Services → Client → Prop where
  | list {i s order} :
      ClientStep update i s (.order order .started)
        s (.order order (.listed (mapGetProducts s.items)))
  | lookup {i s order products product} (ok : single products order.id = .ok product) :
      ClientStep update i s (.order order (.listed products))
        s (.order order (.reserving product (.waiting order.id order.quantity)))
  | lookupThrows {i s order products e} (error : single products order.id = .error e) :
      ClientStep update i s (.order order (.listed products)) s (.order order (.threw .lookup e))
  | reserve {i s order product call items call'} (act : update i s.items call items call') :
      ClientStep update i s (.order order (.reserving product call))
        (s.updated i items call') (.order order (.reserving product call'))
  | pay {i s order product call response payment} (answered : putAnswer call = some response)
      (ok : ensureSuccessStatusCode response.statusCode = .ok ())
      (made : paymentFor product order = .ok payment) :
      ClientStep update i s (.order order (.reserving product call))
        s (.order order (.charging payment))
  | overflows {i s order product call response e} (answered : putAnswer call = some response)
      (ok : ensureSuccessStatusCode response.statusCode = .ok ())
      (error : paymentFor product order = .error e) :
      ClientStep update i s (.order order (.reserving product call))
        s (.order order (.threw .payment e))
  | stockThrows {i s order product call response e} (answered : putAnswer call = some response)
      (error : ensureSuccessStatusCode response.statusCode = .error e) :
      ClientStep update i s (.order order (.reserving product call))
        s (.order order (.threw .stock e))
  | charge {i s order payment} (providers : Providers) :
      ClientStep update i s (.order order (.charging payment))
        (s.paid i payment) (.order order (.charged (mapPutPayments providers payment).2))
  | returns {i s order response} (ok : ensureSuccessStatusCode response.statusCode = .ok ()) :
      ClientStep update i s (.order order (.charged response)) s (.order order .returned)
  | paymentThrows {i s order response e}
      (error : ensureSuccessStatusCode response.statusCode = .error e) :
      ClientStep update i s (.order order (.charged response)) s (.order order (.threw .payment e))
  | direct {i s call items call'} (act : update i s.items call items call') :
      ClientStep update i s (.direct call) (s.updated i items call') (.direct call')

def Client.fresh : Client → Prop
  | .order _ phase => phase = .started
  | .direct call => ∃ id q, call = .waiting id q

def opening (stock : Stock) (clients : List Client) : Config Services Client :=
  ⟨⟨stock.items,[]⟩,clients⟩

theorem answeredOk {call response} (answered : putAnswer call = some response)
    (ok : ensureSuccessStatusCode response.statusCode = .ok ()) :
    ∃ id q, call = .accepted id q := by
  have accepted := ensureSuccessIff.mp ok
  subst accepted
  cases call with
  | waiting id q => cases answered
  | checked id q seen n => cases answered
  | accepted id q => exact ⟨id,q,rfl⟩
  | threw id q e =>
    simp only [putAnswer, catchUpdate, Option.some.injEq] at answered
    split at answered
    · cases answered
    · split at answered <;> cases answered

theorem answeredError {call response e} (answered : putAnswer call = some response)
    (error : ensureSuccessStatusCode response.statusCode = .error e) :
    ∃ id q e', call = .threw id q e' := by
  cases call with
  | waiting id q => cases answered
  | checked id q seen n => cases answered
  | accepted id q =>
    cases answered
    cases error
  | threw id q e' => exact ⟨id,q,e',rfl⟩

def Listed (stock : Stock) (order : Order) (product : Product) : Prop :=
  product.id = order.id ∧ product.catalogue ∈ stock.items.map Product.catalogue

def Priced (stock : Stock) (order : Order) (payment : Payment) : Prop :=
  ∃ p, firstOrDefault order.id stock.items = some p ∧
    payment.amount.value = p.price.value * order.quantity.toInt

def ReservedOnce (stock : Stock) (i : ℕ) (order : Order) (entries : List Entry) : Prop :=
  ∃ items, stock.Became items ∧ entries = [.reserved i order.id order.quantity items]

def ChargedOnce (stock : Stock) (i : ℕ) (order : Order) (entries : List Entry) : Prop :=
  ∃ items items' payment, stock.Became items ∧ stock.Became items' ∧ Priced stock order payment ∧
    entries = [.reserved i order.id order.quantity items,.received i payment items']

/- What the log says of a run's own requests, phase by phase. -/
def PhaseSound (stock : Stock) (i : ℕ) (order : Order) (entries : List Entry) : Phase → Prop
  | .started => entries = []
  | .listed products =>
      entries = [] ∧ products.map Product.catalogue = stock.items.map Product.catalogue
  | .reserving product call =>
      Listed stock order product ∧ Prepared stock call ∧ call.asked = (order.id,order.quantity) ∧
      ((∀ id q, call ≠ .accepted id q) → entries = []) ∧
      (∀ id q, call = .accepted id q → ReservedOnce stock i order entries)
  | .charging payment => Priced stock order payment ∧ ReservedOnce stock i order entries
  | .charged _ => ChargedOnce stock i order entries
  | .returned => ChargedOnce stock i order entries
  | .threw .payment _ => ChargedOnce stock i order entries
  | .threw _ _ => entries = []

def ClientSound (stock : Stock) (clients : List Client) (i : ℕ) (log : List Entry) :
    Client → Prop
  | .order order phase => clients[i]? = some (.order order .started) ∧
      PhaseSound stock i order (own Entry.client i log) phase
  | .direct call => i < clients.length ∧ Prepared stock call ∧
      ∀ e ∈ own Entry.client i log, e.isPayment = false

def ServicesSound (stock : Stock) (clients : List Client) (s : Services) : Prop :=
  stock.Became s.items ∧ ∀ e ∈ s.log, e.client < clients.length

theorem listedPrice {stock : Stock} {order product} (listed : Listed stock order product) :
    ∃ p, firstOrDefault order.id stock.items = some p ∧ p.price = product.price ∧
      product.price.mantissa.natAbs < 2 ^ 65 := by
  obtain ⟨id,mem⟩ := listed
  obtain ⟨p,inStock,same⟩ := List.mem_map.mp mem
  have sameId : p.id = order.id := (congrArg Prod.fst same).trans id
  have samePrice : p.price = product.price := congrArg (fun c => c.2.2) same
  refine ⟨p,?_,samePrice,?_⟩
  · rw [← sameId]; exact firstOrDefaultMember stock.ids inStock
  · rw [← samePrice]; exact (stock.prices p inStock).2

theorem listedPayment {stock : Stock} {order product} (listed : Listed stock order product) :
    ∃ payment, paymentFor product order = .ok payment ∧ Priced stock order payment := by
  obtain ⟨p,found,price,small⟩ := listedPrice listed
  obtain ⟨payment,made,amount,_,_⟩ := paymentForPriced small order
  exact ⟨payment,made,p,found,by rw [amount, price]⟩

theorem entryOwner (i : ℕ) (items : List Product) (call : UpdateCall) :
    own Entry.client i (acceptedEntry i items call) = acceptedEntry i items call := by
  cases call with
  | accepted id q => exact ownMine Entry.client (.reserved i id q items)
  | waiting id q => rfl
  | checked id q seen n => rfl
  | threw id q e => rfl

theorem entryOther {i j : ℕ} (other : i ≠ j) (items : List Product) (call : UpdateCall) :
    own Entry.client j (acceptedEntry i items call) = [] := by
  cases call with
  | accepted id q => exact ownOther Entry.client other
  | waiting id q => rfl
  | checked id q seen n => rfl
  | threw id q e => rfl

theorem stepOther {update : Update} {i j s client s' client'} (other : i ≠ j)
    (step : ClientStep update i s client s' client') :
    own Entry.client j s'.log = own Entry.client j s.log := by
  cases step with
  | reserve act => simp only [Services.updated, ownAppend, entryOther other, List.append_nil]
  | direct act => simp only [Services.updated, ownAppend, entryOther other, List.append_nil]
  | @charge order payment providers =>
    have silent : own Entry.client j [.received i payment s.items] = [] :=
      ownOther Entry.client other
    simp only [Services.paid, ownAppend, silent, List.append_nil]
  | _ => rfl

theorem stepServices {stock : Stock} {clients i s client s' client'}
    (sound : ServicesSound stock clients s) (here : ClientSound stock clients i s.log client)
    (step : ClientStep UpdateStep i s client s' client') : ServicesSound stock clients s' := by
  obtain ⟨became,owned⟩ := sound
  have bound : i < clients.length := by
    cases client with
    | order order phase => exact (List.getElem?_eq_some_iff.mp here.1).1
    | direct call => exact here.1
  have grown (items : List Product) (call : UpdateCall) :
      ∀ e ∈ s.log ++ acceptedEntry i items call, e.client < clients.length := by
    intro e mem
    rcases List.mem_append.mp mem with old | new
    · exact owned e old
    · cases call <;> simp [acceptedEntry] at new
      subst new; exact bound
  cases step with
  | reserve act => exact ⟨(updateKeeps became here.2.2.1 act).1,grown _ _⟩
  | direct act => exact ⟨(updateKeeps became here.2.1 act).1,grown _ _⟩
  | charge providers =>
    refine ⟨became,?_⟩
    intro e mem
    rcases List.mem_append.mp mem with old | new
    · exact owned e old
    · cases List.mem_singleton.mp new; exact bound
  | _ => exact ⟨became,owned⟩

theorem stepPhase {stock : Stock} {clients i s client s' client'}
    (sound : ServicesSound stock clients s) (here : ClientSound stock clients i s.log client)
    (step : ClientStep UpdateStep i s client s' client') :
    ClientSound stock clients i s'.log client' := by
  obtain ⟨became,_⟩ := sound
  cases step with
  | list =>
    obtain ⟨_,_,catalogue⟩ := became
    exact ⟨here.1,here.2,catalogue⟩
  | @lookup order products product ok =>
    obtain ⟨origin,empty,catalogue⟩ := here
    obtain ⟨mem,id⟩ := singleOk ok
    have listed : product.catalogue ∈ products.map Product.catalogue :=
      List.mem_map.mpr ⟨product,mem,rfl⟩
    rw [catalogue] at listed
    exact ⟨origin,⟨id,listed⟩,trivial,rfl,fun _ => empty,nofun⟩
  | lookupThrows error => exact ⟨here.1,here.2.1⟩
  | @reserve order product call items call' act =>
    obtain ⟨origin,listed,prepared,asked,unreserved,_⟩ := here
    obtain ⟨became',prepared'⟩ := updateKeeps became prepared act
    have before : own Entry.client i s.log = [] := by
      apply unreserved
      rintro id q same
      subst same
      cases act
    refine ⟨origin,listed,prepared',(updateAsked act).trans asked,?_,?_⟩
    · intro notAccepted
      simp only [Services.updated, ownAppend, before, entryOwner, List.nil_append]
      cases call' with
      | accepted id q => exact absurd rfl (notAccepted id q)
      | _ => rfl
    · intro id q accepted
      subst accepted
      have args : (id,q) = (order.id,order.quantity) := (updateAsked act).trans asked
      cases args
      simp only [Services.updated, ownAppend, before, entryOwner, List.nil_append]
      exact ⟨items,became',rfl⟩
  | pay answered ok made =>
    obtain ⟨origin,listed,_,_,_,reserved⟩ := here
    obtain ⟨id,q,accepted⟩ := answeredOk answered ok
    obtain ⟨payment,made',priced⟩ := listedPayment listed
    cases Except.ok.inj (made.symm.trans made')
    exact ⟨origin,priced,reserved id q accepted⟩
  | overflows answered ok error =>
    obtain ⟨_,made,_⟩ := listedPayment here.2.1
    cases made.symm.trans error
  | stockThrows answered error =>
    obtain ⟨origin,_,_,_,unreserved,_⟩ := here
    obtain ⟨id,q,e',threw⟩ := answeredError answered error
    refine ⟨origin,unreserved ?_⟩
    subst threw
    exact nofun
  | @charge order payment providers =>
    obtain ⟨origin,priced,items,reserved,only⟩ := here
    have mine : own Entry.client i [.received i payment s.items] = [.received i payment s.items] :=
      ownMine Entry.client (.received i payment s.items)
    refine ⟨origin,items,s.items,payment,reserved,became,priced,?_⟩
    simp only [Services.paid, ownAppend, only, mine, List.cons_append, List.nil_append]
  | returns ok => exact here
  | paymentThrows error => exact here
  | @direct call items call' act =>
    obtain ⟨bound,prepared,puts⟩ := here
    refine ⟨bound,(updateKeeps became prepared act).2,?_⟩
    intro e mem
    simp only [Services.updated, ownAppend, entryOwner] at mem
    rcases List.mem_append.mp mem with old | new
    · exact puts e old
    · cases call' <;> simp [acceptedEntry] at new
      subst new; rfl

theorem freshSound {stock : Stock} {clients : List Client} (fresh : ∀ client ∈ clients, client.fresh)
    {i : ℕ} {client} (found : clients[i]? = some client) :
    ClientSound stock clients i [] client := by
  have start := fresh client (List.mem_of_getElem? found)
  cases client with
  | order order phase =>
    have same : phase = .started := start
    subst same
    exact ⟨found,rfl⟩
  | direct call =>
    obtain ⟨id,q,same⟩ := start
    subst same
    exact ⟨(List.getElem?_eq_some_iff.mp found).1,trivial,nofun⟩

theorem reachedSound {stock : Stock} {clients : List Client}
    (fresh : ∀ client ∈ clients, client.fresh) {schedule c}
    (run : Run (Step (ClientStep UpdateStep)) (opening stock clients) schedule c) :
    ServicesSound stock clients c.shared ∧
      ∀ (i : ℕ) client, c.procs[i]? = some client → ClientSound stock clients i c.shared.log client := by
  refine everyAssertion (ServicesSound stock clients)
    (fun i s client => ClientSound stock clients i s.log client) ?_ ?_ ?_ ?_ run
  · exact ⟨stock.becameSelf,nofun⟩
  · intro i client found
    exact freshSound fresh found
  · intro i s client s' client' sound here step
    exact ⟨stepServices sound here step,stepPhase sound here step⟩
  · intro i j s client s' client' other different sound here there step
    have same := stepOther different step
    cases other with
    | order order phase => exact ⟨there.1,by rw [same]; exact there.2⟩
    | direct call => exact ⟨there.1,there.2.1,by rw [same]; exact there.2.2⟩

theorem paymentPhase {stock : Stock} {i order entries phase e}
    (sound : PhaseSound stock i order entries phase) (mem : e ∈ entries)
    (payment : e.isPayment = true) : ChargedOnce stock i order entries := by
  have notEmpty : entries ≠ [] := List.ne_nil_of_mem mem
  have notReserved : ¬ ReservedOnce stock i order entries := by
    rintro ⟨items,_,same⟩
    subst same
    cases List.mem_singleton.mp mem
    cases payment
  cases phase with
  | started => exact absurd sound notEmpty
  | listed products => exact absurd sound.1 notEmpty
  | reserving product call =>
    obtain ⟨_,_,_,unreserved,reserved⟩ := sound
    cases call with
    | accepted id q => exact absurd (reserved id q rfl) notReserved
    | _ => exact absurd (unreserved nofun) notEmpty
  | charging payment => exact absurd sound.2 notReserved
  | charged response => exact sound
  | returned => exact sound
  | threw stage e' =>
    cases stage with
    | lookup => exact absurd sound notEmpty
    | stock => exact absurd sound notEmpty
    | payment => exact sound

theorem paymentOwner {stock : Stock} {clients : List Client}
    (fresh : ∀ client ∈ clients, client.fresh) {schedule c}
    (run : Run (Step (ClientStep UpdateStep)) (opening stock clients) schedule c) {e}
    (mem : e ∈ c.shared.log) (payment : e.isPayment = true) :
    ∃ order phase, clients[e.client]? = some (.order order .started) ∧
      c.procs[e.client]? = some (.order order phase) ∧
      ChargedOnce stock e.client order (own Entry.client e.client c.shared.log) ∧
      PhaseSound stock e.client order (own Entry.client e.client c.shared.log) phase := by
  obtain ⟨⟨_,owned⟩,each⟩ := reachedSound fresh run
  have bound : e.client < c.procs.length := by
    rw [runLength run]; exact owned e mem
  have mine := ownMember Entry.client mem
  obtain ⟨client,found⟩ : ∃ client, c.procs[e.client]? = some client :=
    ⟨_,List.getElem?_eq_getElem bound⟩
  have sound := each e.client client found
  cases client with
  | direct call =>
    have put := sound.2.2 e mine
    rw [payment] at put
    cases put
  | order order phase =>
    exact ⟨order,phase,sound.1,found,paymentPhase sound.2 mine payment,sound.2⟩

def Client.refused : Client → Prop
  | .order _ (.threw stage _) => stage = .stock
  | .order _ (.reserving _ call) => ∃ id q e, call = .threw id q e
  | _ => False

theorem everyPaymentBacked (stock : Stock) (clients : List Client)
    (fresh : ∀ client ∈ clients, client.fresh) (schedule : List ℕ) (c : Config Services Client)
    (run : Run (Step (ClientStep UpdateStep)) (opening stock clients) schedule c) :
    (∃ backing : ℕ → ℕ,
      (∀ (k : ℕ) client payment items, c.shared.log[k]? = some (.received client payment items) →
        backing k < k ∧ ∃ order itemsThen pThen pNow,
          clients[client]? = some (.order order .started) ∧
          c.shared.log[backing k]? =
            some (.reserved client order.id order.quantity itemsThen) ∧
          firstOrDefault order.id itemsThen = some pThen ∧
          firstOrDefault order.id items = some pNow ∧
          payment.amount.value = pThen.price.value * order.quantity.toInt ∧
          payment.amount.value = pNow.price.value * order.quantity.toInt) ∧
      ∀ (k k' : ℕ) e e', c.shared.log[k]? = some e → c.shared.log[k']? = some e' →
        e.isPayment = true → e'.isPayment = true → backing k = backing k' → k = k') ∧
    ∀ (i : ℕ) order client, clients[i]? = some (.order order .started) →
      c.procs[i]? = some client →
      (∀ p ∈ stock.items, p.id ≠ order.id) ∨ client.refused →
      ∀ payment items, .received i payment items ∉ c.shared.log := by
  refine ⟨?_,?_⟩
  · have shape : ∀ e ∈ c.shared.log, e.isPayment = true →
        ∃ a, own Entry.client e.client c.shared.log = [a,e] ∧ ¬ a.isPayment = true := by
      intro e mem payment
      obtain ⟨order,phase,_,_,⟨items,items',p,_,_,_,pair⟩,_⟩ := paymentOwner fresh run mem payment
      have mine := ownMember Entry.client mem
      rw [pair] at mine ⊢
      rcases List.mem_cons.mp mine with same | last
      · rw [same] at payment; cases payment
      · rw [List.mem_singleton.mp last]
        exact ⟨_,rfl,nofun⟩
    obtain ⟨backing,backed,distinct⟩ := matched shape
    refine ⟨backing,?_,distinct⟩
    intro k client payment items at_
    obtain ⟨before,a,found,pair⟩ := backed k _ at_ rfl
    obtain ⟨order,phase,origin,_,⟨itemsThen,itemsNow,p,becameThen,becameNow,priced,pair'⟩,_⟩ :=
      paymentOwner fresh run (List.mem_of_getElem? at_) rfl
    cases pair.symm.trans pair'
    obtain ⟨p,first,amount⟩ := priced
    obtain ⟨pThen,foundThen,sameThen⟩ := Stock.becameFound becameThen first
    obtain ⟨pNow,foundNow,sameNow⟩ := Stock.becameFound becameNow first
    have priceThen : pThen.price = p.price := congrArg (fun c => c.2.2) sameThen
    have priceNow : pNow.price = p.price := congrArg (fun c => c.2.2) sameNow
    exact ⟨before,order,itemsThen,pThen,pNow,origin,found,foundThen,foundNow,
      by rw [priceThen]; exact amount,by rw [priceNow]; exact amount⟩
  · intro i order client origin at_ why payment items mem
    obtain ⟨order',phase,origin',at_',charged,sound⟩ := paymentOwner fresh run mem rfl
    cases Option.some.inj (origin.symm.trans origin')
    cases Option.some.inj (at_.symm.trans at_')
    obtain ⟨_,_,_,_,_,⟨p,first,_⟩,pair⟩ := charged
    rcases why with unstocked | refused
    · exact unstocked p (firstOrDefaultSome first).1 (firstOrDefaultSome first).2
    · cases phase with
      | threw stage e =>
        have same : stage = .stock := refused
        subst same
        have empty : own Entry.client i c.shared.log = [] := sound
        cases empty.symm.trans pair
      | reserving product call =>
        obtain ⟨id,q,e,same⟩ := refused
        subst same
        have empty : own Entry.client i c.shared.log = [] := sound.2.2.2.1 nofun
        cases empty.symm.trans pair
      | _ => exact refused

def lenovoProduct : Product := ⟨lenovo,"Lenovo G27q-20",lenovoPrice,41⟩

def lenovoPayment : Payment := ⟨some "visa",some "4111",some "Ada",lenovoPrice⟩

def lenovoOrder : Order := ⟨lenovo,1,some "Ada",some "visa",some "4111"⟩

section Lenovo

def lenovoClients : List Client := [.order lenovoOrder .started,.direct (.waiting lenovo 5)]

def lenovoPut : List Product := storeQuantity lenovo 36 items

def lenovoBoth : List Product := storeQuantity lenovo 35 lenovoPut

def lenovoReserved : List Entry := [.reserved 1 lenovo 5 lenovoPut,.reserved 0 lenovo 1 lenovoBoth]

def lenovoServed : Config Services Client :=
  ⟨⟨lenovoBoth,lenovoReserved ++ [.received 0 lenovoPayment lenovoBoth]⟩,
    [.order lenovoOrder (.charged .accepted),.direct (.accepted lenovo 5)]⟩

/- A PUT runs between the listing of an order and its reservation. -/
theorem lenovoRun :
    Run (Step (ClientStep UpdateStep)) (opening Stock.initial lenovoClients) [0,1,1,0,0,0,0,0]
      lenovoServed := by
  have list : Step (ClientStep UpdateStep) (opening Stock.initial lenovoClients) 0
      ⟨⟨items,[]⟩,[.order lenovoOrder (.listed items),.direct (.waiting lenovo 5)]⟩ :=
    .move rfl .list
  have checkPut : Step (ClientStep UpdateStep)
      ⟨⟨items,[]⟩,[.order lenovoOrder (.listed items),.direct (.waiting lenovo 5)]⟩ 1
      ⟨⟨items,[]⟩,[.order lenovoOrder (.listed items),.direct (.checked lenovo 5 41 36)]⟩ :=
    .move rfl (.direct (UpdateStep.check rfl rfl))
  have storePut : Step (ClientStep UpdateStep)
      ⟨⟨items,[]⟩,[.order lenovoOrder (.listed items),.direct (.checked lenovo 5 41 36)]⟩ 1
      ⟨⟨lenovoPut,[.reserved 1 lenovo 5 lenovoPut]⟩,
        [.order lenovoOrder (.listed items),.direct (.accepted lenovo 5)]⟩ :=
    .move rfl (.direct UpdateStep.store)
  have lookup : Step (ClientStep UpdateStep)
      ⟨⟨lenovoPut,[.reserved 1 lenovo 5 lenovoPut]⟩,
        [.order lenovoOrder (.listed items),.direct (.accepted lenovo 5)]⟩ 0
      ⟨⟨lenovoPut,[.reserved 1 lenovo 5 lenovoPut]⟩,
        [.order lenovoOrder (.reserving lenovoProduct (.waiting lenovo 1)),
          .direct (.accepted lenovo 5)]⟩ :=
    .move rfl (.lookup rfl)
  have check : Step (ClientStep UpdateStep)
      ⟨⟨lenovoPut,[.reserved 1 lenovo 5 lenovoPut]⟩,
        [.order lenovoOrder (.reserving lenovoProduct (.waiting lenovo 1)),
          .direct (.accepted lenovo 5)]⟩ 0
      ⟨⟨lenovoPut,[.reserved 1 lenovo 5 lenovoPut]⟩,
        [.order lenovoOrder (.reserving lenovoProduct (.checked lenovo 1 36 35)),
          .direct (.accepted lenovo 5)]⟩ :=
    .move rfl (.reserve (UpdateStep.check rfl rfl))
  have store : Step (ClientStep UpdateStep)
      ⟨⟨lenovoPut,[.reserved 1 lenovo 5 lenovoPut]⟩,
        [.order lenovoOrder (.reserving lenovoProduct (.checked lenovo 1 36 35)),
          .direct (.accepted lenovo 5)]⟩ 0
      ⟨⟨lenovoBoth,lenovoReserved⟩,
        [.order lenovoOrder (.reserving lenovoProduct (.accepted lenovo 1)),
          .direct (.accepted lenovo 5)]⟩ :=
    .move rfl (.reserve UpdateStep.store)
  have pay : Step (ClientStep UpdateStep)
      ⟨⟨lenovoBoth,lenovoReserved⟩,
        [.order lenovoOrder (.reserving lenovoProduct (.accepted lenovo 1)),
          .direct (.accepted lenovo 5)]⟩ 0
      ⟨⟨lenovoBoth,lenovoReserved⟩,
        [.order lenovoOrder (.charging lenovoPayment),.direct (.accepted lenovo 5)]⟩ :=
    .move rfl (.pay rfl rfl rfl)
  have charge : Step (ClientStep UpdateStep)
      ⟨⟨lenovoBoth,lenovoReserved⟩,
        [.order lenovoOrder (.charging lenovoPayment),.direct (.accepted lenovo 5)]⟩ 0
      lenovoServed := .move rfl (.charge ⟨.answered 200,.failed⟩)
  exact .snoc (.snoc (.snoc (.snoc (.snoc (.snoc (.snoc (runSingle list) checkPut) storePut) lookup)
    check) store) pay) charge

theorem everyPaymentBackedLenovo :
    ∃ position, position < 2 ∧ ∃ itemsThen pThen pNow,
      lenovoServed.shared.log[position]? = some (.reserved 0 lenovo 1 itemsThen) ∧
      firstOrDefault lenovo itemsThen = some pThen ∧
      firstOrDefault lenovo lenovoBoth = some pNow ∧
      lenovoPayment.amount.value = pThen.price.value * (1 : Int32).toInt ∧
      lenovoPayment.amount.value = pNow.price.value * (1 : Int32).toInt := by
  obtain ⟨⟨backing,backed,_⟩,_⟩ := everyPaymentBacked Stock.initial lenovoClients
    (by simp [lenovoClients, Client.fresh]) _ _ lenovoRun
  obtain ⟨before,order,itemsThen,pThen,pNow,origin,found,there,now,amount,amount'⟩ :=
    backed 2 0 lenovoPayment lenovoBoth rfl
  cases origin
  exact ⟨backing 2,before,itemsThen,pThen,pNow,found,there,now,amount,amount'⟩

end Lenovo
end MonitoringForDevOps.UI.OrderInterleaving
