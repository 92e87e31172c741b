import MonitoringForDevOps.UI.OrderRepository

/-! The tracing shop: the same stock repository, payment service and order workflow
behind MVC controllers. Neither the form nor a controller checks the quantity. -/
namespace MonitoringForDevOps.Tracing
open Library Common WrappingInt Runs StockService PaymentService UI

def productRepositoryItems : List Product := items

def updateProducts (items : List Product) (id : Guid) (quantity : Int32) :
    Except Exn (List Product) := StockService.updateProducts items id quantity

def productControllerOrderProduct (items : List Product) (productId : Guid) (quantity : Int32) :
    List Product × HttpResult :=
  match updateProducts items productId quantity with
  | .ok updated => (updated,.accepted)
  | .error e => (items,catchUpdate e)

structure OrderViewModel where
  productId : Guid
  productName : Option String
  quantity : Int32
  customer : Option String
  cardType : Option String
  cardNumber : Option String

def orderProduct (providers : Providers) (shop : Shop) (order : Order) : Shop × Except Exn Unit :=
  UI.orderProduct providers shop order

inductive ActionResult where
  | redirectToAction (action controller : String)
  deriving DecidableEq, Repr

/- An exception of the workflow leaves the action uncaught. -/
def create (providers : Providers) (shop : Shop) (vm : OrderViewModel) :
    Shop × Except Exn ActionResult :=
  let result := orderProduct providers shop
    ⟨vm.productId,vm.quantity,vm.customer,vm.cardType,vm.cardNumber⟩
  match result.2 with
  | .error e => (result.1,.error e)
  | .ok () => (result.1,.ok (.redirectToAction "Index" "Product"))

inductive Request where
  | create (vm : OrderViewModel) (providers : Providers)
  | put (productId : Guid) (quantity : Int32)

def Request.id : Request → Guid
  | .create vm _ => vm.productId
  | .put productId _ => productId

def Request.quantity : Request → Int32
  | .create vm _ => vm.quantity
  | .put _ quantity => quantity

def serve (shop : Shop) : Request → Shop
  | .create vm providers => (create providers shop vm).1
  | .put productId quantity =>
      { shop with items := (productControllerOrderProduct shop.items productId quantity).1 }

def shopAfter (requests : List Request) : Shop :=
  after serve (Shop.opened productRepositoryItems) requests

def TakesOnly (before later : Shop) : Prop :=
  (∀ id old new, quantityOf before.items id = some old → quantityOf later.items id = some new →
    new.toInt ≤ old.toInt) ∧
  ∀ payment ∈ later.received.drop before.received.length, 0 ≤ payment.amount.value

def OnlyTakesOut : Prop :=
  ∀ (requests : List Request) (request : Request),
    TakesOnly (shopAfter requests) (shopAfter (requests ++ [request]))

/- A negative quantity is let through: the repository only refuses a new quantity
below zero. -/
theorem negativeOrderRestocks : ¬ OnlyTakesOut := by
  intro claim
  have grows := (claim [] (.put lenovo (-5))).1
    lenovo 41 46 (by decide) (by decide)
  exact absurd grows (by decide)

def Refills (shop : Shop) (request : Request) : Prop :=
  request.quantity.toInt < 0 ∧ ∃ p ∈ shop.items, p.id = request.id ∧
    p.quantity.toInt - request.quantity.toInt ≤ 2 ^ 31 - 1

theorem refillsIff (stock : Stock) {shop : Shop} (here : shop.items = stock.items)
    (request : Request) :
    Refills shop request ↔ request.quantity.toInt < 0 ∧
      stock.ledger.verdict request.id request.quantity.toInt = .granted := by
  simp only [Refills, here, Stock.verdictStocked]
  constructor
  · rintro ⟨negative,p,mem,same,high⟩
    have nonneg := stock.nonneg p mem
    exact ⟨negative,p,mem,same,by omega,high⟩
  · rintro ⟨negative,p,mem,same,_,high⟩
    exact ⟨negative,p,mem,same,high⟩

theorem takesNothing {before later : Shop} (items : later.items = before.items)
    (received : later.received = before.received) : TakesOnly before later := by
  refine ⟨?_,?_⟩
  · intro id old new was is
    rw [items, was] at is
    cases is
    exact le_rfl
  · intro payment mem
    rw [received] at mem
    simp at mem

theorem storeLevel {stock : Stock} {p id} (found : firstOrDefault id stock.items = some p)
    (n : Int32) (j : Guid) (old new : Int32) (was : quantityOf stock.items j = some old)
    (is : quantityOf (storeQuantity id n stock.items) j = some new) :
    j = id ∧ old = p.quantity ∧ new = n ∨ j ≠ id ∧ new = old := by
  simp only [quantityOf, firstAfterStore] at was is
  by_cases same : j = id
  · subst same
    rw [found] at was
    rw [if_pos rfl, found] at is
    cases was
    cases is
    exact .inl ⟨rfl,rfl,rfl⟩
  · rw [if_neg same, was] at is
    cases is
    exact .inr ⟨same,rfl⟩

/- A granted request stores the exact difference, so it takes stock out exactly when
its quantity is not negative; the payment it may send then has the same sign. -/
theorem grantedTakesIff {stock : Stock} {shop later : Shop} {p id} {q : Int32} {sent}
    (here : shop.items = stock.items) (found : firstOrDefault id stock.items = some p)
    (whole : (p.quantity - q).toInt = p.quantity.toInt - q.toInt)
    (items : later.items = storeQuantity id (p.quantity - q) stock.items)
    (received : later.received = shop.received ++ sent)
    (amounts : ∀ payment ∈ sent, payment.amount.value = p.price.value * q.toInt) :
    TakesOnly shop later ↔ ¬ q.toInt < 0 := by
  constructor
  · intro takes negative
    have was : quantityOf shop.items id = some p.quantity := by
      simp only [here, quantityOf, found, Option.map_some]
    have is : quantityOf later.items id = some (p.quantity - q) := by
      simp [items, quantityOf, firstAfterStore, found]
    have shrinks := takes.1 id _ _ was is
    omega
  · intro nonneg
    refine ⟨?_,?_⟩
    · intro j old new was is
      rw [here] at was
      rw [items] at is
      rcases storeLevel found _ j old new was is with ⟨_,isOld,isNew⟩ | ⟨_,same⟩
      · rw [isOld, isNew]; omega
      · rw [same]
    · intro payment mem
      rw [received, List.drop_left] at mem
      have price := Decimal.valuePos (stock.prices p (firstOrDefaultSome found).1).1
      have units : (0 : ℚ) ≤ q.toInt := by exact_mod_cast not_lt.mp nonneg
      rw [amounts payment mem]
      exact mul_nonneg price.le units

theorem putIsHandler (items : List Product) (id : Guid) (q : Int32) :
    productControllerOrderProduct items id q = mapPutProducts items id q := rfl

theorem createShop (providers : Providers) (shop : Shop) (vm : OrderViewModel) :
    (create providers shop vm).1 = (UI.orderProduct providers shop
      ⟨vm.productId,vm.quantity,vm.customer,vm.cardType,vm.cardNumber⟩).1 := by
  simp only [create, orderProduct]
  split <;> rfl

/- One request: the stock stays well formed, and it only takes out exactly when the
request is not a refill. -/
theorem serveExactly (stock : Stock) {shop : Shop} (here : shop.items = stock.items)
    (request : Request) :
    (∃ stock' : Stock, (serve shop request).items = stock'.items) ∧
      (TakesOnly shop (serve shop request) ↔ ¬ Refills shop request) := by
  rw [refillsIff stock here]
  cases request with
  | put id q =>
    have stays : (serve shop (.put id q)).items = (stock.put id q).1.items := by
      simp only [serve, putIsHandler, here]
      rfl
    have kept {e : Exn} (error : checkUpdate stock.items id q = .error e) :
        TakesOnly shop (serve shop (.put id q)) := by
      have items : (serve shop (.put id q)).items = shop.items := by
        rw [stays, Stock.putOfError error, here]
      exact takesNothing items rfl
    refine ⟨⟨_,stays⟩,?_⟩
    have check := stock.checkRefines id q
    simp only [Request.id, Request.quantity]
    cases verdict : stock.ledger.verdict id q.toInt with
    | granted =>
      rw [verdict] at check
      obtain ⟨p,found,same,whole,_⟩ := checkUpdateOk stock.nonneg check
      rw [same] at check whole
      have items : (serve shop (.put id q)).items =
          storeQuantity id (p.quantity - q) stock.items := by
        rw [stays, Stock.putOfOk check]; rfl
      have received : (serve shop (.put id q)).received = shop.received ++ [] :=
        (List.append_nil _).symm
      simpa using grantedTakesIff here found whole items received nofun
    | refused =>
      rw [verdict] at check
      simpa using kept check
    | unknown =>
      rw [verdict] at check
      simpa using kept check
  | create vm providers =>
    let order : Order := ⟨vm.productId,vm.quantity,vm.customer,vm.cardType,vm.cardNumber⟩
    have served : serve shop (.create vm providers) =
        (UI.orderProduct providers shop order).1 := createShop providers shop vm
    rw [served]
    change _ ∧ (_ ↔ ¬ (order.quantity.toInt < 0 ∧
      stock.ledger.verdict order.id order.quantity.toInt = .granted))
    cases verdict : stock.ledger.verdict order.id order.quantity.toInt with
    | granted =>
      obtain ⟨p,payment,found,_,amount,_,_,check,whole,run⟩ :=
        runReserved providers stock shop order here verdict
      rw [run]
      refine ⟨⟨stock.store _ _ (checkNonneg check),rfl⟩,?_⟩
      simpa using grantedTakesIff here found whole rfl rfl
        (by intro sent mem; rw [List.mem_singleton.mp mem]; exact amount)
    | refused =>
      rw [runRefused providers stock shop order here verdict]
      exact ⟨⟨stock,here⟩,by simpa using takesNothing rfl rfl⟩
    | unknown =>
      have absent : firstOrDefault order.id stock.items = none := by
        rw [firstOrDefaultNone]; exact (stock.verdictUnstocked _ _).mp verdict
      rw [runUnknown providers stock shop order here absent]
      exact ⟨⟨stock,here⟩,by simpa using takesNothing rfl rfl⟩

theorem shopAfterStock (requests : List Request) :
    ∃ stock : Stock, (shopAfter requests).items = stock.items := by
  refine afterInvariant serve (fun shop => ∃ stock : Stock, shop.items = stock.items) ?_ ?_ requests
  · exact ⟨Stock.initial,rfl⟩
  · rintro shop request ⟨stock,here⟩
    exact (serveExactly stock here request).1

theorem onlyTakesOutExactly (requests : List Request) :
    (∀ before request, before ++ [request] <+: requests →
      TakesOnly (shopAfter before) (shopAfter (before ++ [request]))) ↔
    ∀ before request, before ++ [request] <+: requests → ¬ Refills (shopAfter before) request := by
  have exactly (before : List Request) (request : Request) :
      TakesOnly (shopAfter before) (shopAfter (before ++ [request])) ↔
        ¬ Refills (shopAfter before) request := by
    obtain ⟨stock,here⟩ := shopAfterStock before
    have step : shopAfter (before ++ [request]) = serve (shopAfter before) request :=
      afterSnoc serve _ before request
    rw [step]
    exact (serveExactly stock here request).2
  constructor
  · intro takes before request inside
    exact (exactly before request).mp (takes before request inside)
  · intro harmless before request inside
    exact (exactly before request).mpr (harmless before request inside)

end MonitoringForDevOps.Tracing
