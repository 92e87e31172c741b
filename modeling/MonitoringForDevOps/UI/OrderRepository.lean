import MonitoringForDevOps.PaymentService.Program
import MonitoringForDevOps.StockService.Program

/-! The order workflow of the UI: read the products, reserve stock, charge the
card. Nothing is undone when a later stage throws. -/
namespace MonitoringForDevOps.UI
open Library Common WrappingInt KeyedList StockService PaymentService

structure Order where
  id : Guid
  quantity : Int32
  customer : Option String
  cardType : Option String
  cardNumber : Option String
  deriving DecidableEq

/- Enumerable.Single: no element and more than one both throw. -/
def single (products : List Product) (id : Guid) : Except Exn Product :=
  match products.filter (fun x => x.id == id) with
  | [product] => .ok product
  | _ => .error .invalidOperation

def paymentFor (product : Product) (order : Order) : Except Exn Payment :=
  match Decimal.mul product.price (Decimal.ofInt32 order.quantity) with
  | none => .error .overflow
  | some amount =>
      .ok { name := order.customer, amount := amount, number := order.cardNumber,
            type := order.cardType }

/- What a run acts on: the stock, the provider calls, and the payment requests the
payment service received and accepted. -/
structure Shop where
  items : List Product
  contacted : List Provider
  received : List Payment
  accepted : List Payment
  deriving DecidableEq

def Shop.opened (items : List Product) : Shop := ⟨items,[],[],[]⟩

def Shop.pay (providers : Providers) (shop : Shop) (payment : Payment) : Shop × HttpResult :=
  let (contacted,response) := mapPutPayments providers payment
  ({ shop with
      contacted := shop.contacted ++ contacted
      received := shop.received ++ [payment]
      accepted := if response = .accepted then shop.accepted ++ [payment] else shop.accepted },
    response)

def orderProduct (providers : Providers) (shop : Shop) (order : Order) : Shop × Except Exn Unit :=
  let products := mapGetProducts shop.items
  match single products order.id with
  | .error e => (shop,.error e)
  | .ok product =>
      let (items,orderResponse) := mapPutProducts shop.items order.id order.quantity
      let reserved := { shop with items := items }
      match ensureSuccessStatusCode orderResponse.statusCode with
      | .error e => (reserved,.error e)
      | .ok () =>
          match paymentFor product order with
          | .error e => (reserved,.error e)
          | .ok payment =>
              let (paid,paymentResponse) := reserved.pay providers payment
              (paid,ensureSuccessStatusCode paymentResponse.statusCode)

theorem singleOk {products : List Product} {id product} (ok : single products id = .ok product) :
    product ∈ products ∧ product.id = id := by
  unfold single at ok
  split at ok
  · rename_i only
    cases ok
    have mem : product ∈ products.filter (fun x => x.id == id) := by rw [only]; simp
    have both := List.mem_filter.mp mem
    exact ⟨both.1,by simpa using both.2⟩
  · cases ok

theorem singleDistinct {products : List Product} (ids : (products.map Product.id).Nodup)
    (id : Guid) :
    single products id = match firstOrDefault id products with
      | some product => .ok product
      | none => .error .invalidOperation := by
  simp only [single, filterKey Product.id ids, ← firstOrDefaultKeyed]
  cases firstOrDefault id products <;> rfl

theorem paymentForPriced {product : Product} (small : product.price.mantissa.natAbs < 2 ^ 65)
    (order : Order) :
    ∃ payment, paymentFor product order = .ok payment ∧
      payment.amount.value = product.price.value * order.quantity.toInt ∧
      payment.name = order.customer ∧ payment.type = order.cardType := by
  obtain ⟨amount,made,value⟩ := Decimal.mulInt32 product.price order.quantity small
  exact ⟨_,by simp only [paymentFor, made]; rfl,value,rfl,rfl⟩

theorem payResponse (providers : Providers) (shop : Shop) (payment : Payment) :
    (shop.pay providers payment).2 = (mapPutPayments providers payment).2 := rfl

theorem payAccepted {providers : Providers} {payment}
    (accepted : (mapPutPayments providers payment).2 = .accepted) (shop : Shop) :
    (shop.pay providers payment).1.accepted = shop.accepted ++ [payment] ∧
      ∃ provider, cardProvider payment.type = some provider ∧
        (shop.pay providers payment).1.contacted = shop.contacted ++ [provider] := by
  have whole : mapPutPayments providers payment =
      ((mapPutPayments providers payment).1,.accepted) := by rw [← accepted]
  obtain ⟨_,provider,known,_,asked⟩ := paymentAccepted.mp whole
  refine ⟨by simp only [Shop.pay, accepted, if_true],provider,known,?_⟩
  simp only [Shop.pay, asked]

section Run
variable (providers : Providers) (stock : Stock) (shop : Shop) (order : Order)

theorem runUnknown (here : shop.items = stock.items)
    (absent : firstOrDefault order.id stock.items = none) :
    orderProduct providers shop order = (shop,.error .invalidOperation) := by
  simp only [orderProduct, mapGetProducts, getProducts, here, singleDistinct stock.ids, absent]

theorem runRefused (here : shop.items = stock.items)
    (refused : stock.ledger.verdict order.id order.quantity.toInt = .refused) :
    orderProduct providers shop order = (shop,.error .httpRequest) := by
  have check := stock.checkRefines order.id order.quantity
  rw [refused] at check
  cases found : firstOrDefault order.id stock.items with
  | none => rw [Ledger.verdictUnknown.mpr (Stock.levelNone found)] at refused; cases refused
  | some p =>
    simp only [orderProduct, mapGetProducts, getProducts, here, singleDistinct stock.ids, found,
      putThrown check]
    rw [← here]
    rfl

theorem runReserved (here : shop.items = stock.items)
    (granted : stock.ledger.verdict order.id order.quantity.toInt = .granted) :
    ∃ p payment, firstOrDefault order.id stock.items = some p ∧
      paymentFor p order = .ok payment ∧
      payment.amount.value = p.price.value * order.quantity.toInt ∧
      payment.name = order.customer ∧ payment.type = order.cardType ∧
      checkUpdate stock.items order.id order.quantity = .ok (p.quantity - order.quantity) ∧
      (p.quantity - order.quantity).toInt = p.quantity.toInt - order.quantity.toInt ∧
      let items := storeQuantity order.id (p.quantity - order.quantity) stock.items
      let paid := Shop.pay providers { shop with items := items } payment
      orderProduct providers shop order =
        (paid.1,ensureSuccessStatusCode paid.2.statusCode) := by
  have check := stock.checkRefines order.id order.quantity
  rw [granted] at check
  obtain ⟨p,found,same,whole,_⟩ := checkUpdateOk stock.nonneg check
  rw [same] at check whole
  obtain ⟨payment,made,amount,name,type⟩ :=
    paymentForPriced (stock.prices p (firstOrDefaultSome found).1).2 order
  refine ⟨p,payment,found,made,amount,name,type,check,whole,?_⟩
  have success : ensureSuccessStatusCode HttpResult.accepted.statusCode = .ok () := by decide
  simp only [orderProduct, mapGetProducts, getProducts, here, singleDistinct stock.ids, found,
    putStored check, success, made]

end Run

theorem orderSucceedsExactly (stock : Stock) (providers : Providers) (order : Order) :
    let result := orderProduct providers (Shop.opened stock.items) order
    (result.2 = .ok () ↔
      (∃ p ∈ stock.items, p.id = order.id ∧
        0 ≤ p.quantity.toInt - order.quantity.toInt ∧
        p.quantity.toInt - order.quantity.toInt ≤ 2 ^ 31 - 1) ∧
      (∃ name, order.customer = some name ∧ name ≠ "") ∧
      ∃ type, order.cardType = some type ∧
        (toLowerInvariant type = "visa" ∧ providers.visa.succeeds = true ∨
          toLowerInvariant type = "master" ∧ providers.master.succeeds = true)) ∧
    (result.2 = .ok () → ∃ p ∈ stock.items, p.id = order.id ∧
      result.1.items = stock.items.map (fun x =>
        if x.id = order.id then { x with quantity := p.quantity - order.quantity } else x) ∧
      (p.quantity - order.quantity).toInt = p.quantity.toInt - order.quantity.toInt ∧
      (∃ payment, result.1.accepted = [payment] ∧
        payment.amount.value = p.price.value * order.quantity.toInt) ∧
      ∃ type, order.cardType = some type ∧
        (toLowerInvariant type = "visa" ∧ result.1.contacted = [.visa] ∨
          toLowerInvariant type = "master" ∧ result.1.contacted = [.master])) := by
  have stocked := stock.verdictStocked order.id order.quantity.toInt
  cases verdict : stock.ledger.verdict order.id order.quantity.toInt with
  | unknown =>
    have absent : firstOrDefault order.id stock.items = none := by
      rw [firstOrDefaultNone]; exact (stock.verdictUnstocked _ _).mp verdict
    rw [runUnknown providers stock _ order rfl absent]
    rw [verdict] at stocked
    refine ⟨⟨nofun,?_⟩,nofun⟩
    rintro ⟨inStock,_,_⟩
    cases stocked.mpr inStock
  | refused =>
    rw [runRefused providers stock _ order rfl verdict]
    rw [verdict] at stocked
    refine ⟨⟨nofun,?_⟩,nofun⟩
    rintro ⟨inStock,_,_⟩
    cases stocked.mpr inStock
  | granted =>
    obtain ⟨p,payment,found,_,amount,name,type,_,whole,run⟩ :=
      runReserved providers stock (Shop.opened stock.items) order rfl verdict
    have inStock := stocked.mp verdict
    have response : (mapPutPayments providers payment).2 = .accepted ↔ _ := paymentAcceptedByType
    rw [run]
    simp only [ensureSuccessIff, payResponse]
    rw [name, type] at response
    refine ⟨response.trans (and_iff_right inStock).symm,?_⟩
    intro accepted
    obtain ⟨charged,provider,known,asked⟩ := payAccepted accepted
      { Shop.opened stock.items with
        items := storeQuantity order.id (p.quantity - order.quantity) stock.items }
    have ⟨mem,same⟩ := firstOrDefaultSome found
    obtain ⟨t,hasType,lowered⟩ := cardProviderSome.mp known
    rw [type] at hasType
    refine ⟨p,mem,same,storeAsMap stock.ids _ _,whole,⟨payment,charged,amount⟩,t,hasType,?_⟩
    rcases lowered with ⟨visa,isVisa⟩ | ⟨master,isMaster⟩
    · subst isVisa; exact .inl ⟨visa,asked⟩
    · subst isMaster; exact .inr ⟨master,asked⟩

end MonitoringForDevOps.UI
