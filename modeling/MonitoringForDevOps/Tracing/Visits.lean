import Mathlib.Tactic.Linarith
import MonitoringForDevOps.Tracing.Shop

/-! Visits to the tracing shop: its pages, its orders and direct PUTs, in any order.
What leaves the stock is worth what the payment service is asked for, and the pages
always show the same catalogue. -/
namespace MonitoringForDevOps.Tracing
open Library Common KeyedList Runs StockService PaymentService UI

structure ProductViewModel where
  id : Guid
  name : String
  price : Decimal
  quantity : Int32

def productControllerGetProducts (items : List Product) : List Product := getProducts items

def orderRepositoryGetProducts (shop : Shop) : List ProductViewModel :=
  (productControllerGetProducts shop.items).map (fun x => ⟨x.id,x.name,x.price,x.quantity⟩)

/- The products of the HomeViewModel. -/
def productIndex (shop : Shop) : List ProductViewModel := orderRepositoryGetProducts shop

inductive FormResult where
  | notFound (productId : Guid)
  | view (vm : OrderViewModel)

def createForm (shop : Shop) (productId : Guid) : FormResult :=
  match (orderRepositoryGetProducts shop).find? (fun x => x.id == productId) with
  | none => .notFound productId
  | some product => .view ⟨product.id,some product.name,0,none,none,none⟩

inductive Visit where
  | index
  | form (productId : Guid)
  | request (request : Request)

def visit (shop : Shop) : Visit → Shop
  | .index => shop
  | .form _ => shop
  | .request request => serve shop request

def shopVisited (stock : Stock) (visits : List Visit) : Shop :=
  after visit (Shop.opened stock.items) visits

/- What a direct PUT takes out is not paid for. -/
def unpaid (shop : Shop) : Visit → ℚ
  | .request (.put id quantity) =>
      match firstOrDefault id shop.items, checkUpdate shop.items id quantity with
      | some p, .ok _ => p.price.value * (quantity.toInt : ℚ)
      | _, _ => 0
  | _ => 0

def unpaidTotal : Shop → List Visit → ℚ
  | _, [] => 0
  | shop, v :: visits => unpaid shop v + unpaidTotal (visit shop v) visits

/- One visit keeps the balance and the catalogue. -/
def Balanced (stock : Stock) (shop : Shop) (v : Visit) : Prop :=
  stock.Became (visit shop v).items ∧
    worth (visit shop v).items + revenue (visit shop v).received + unpaid shop v =
      worth shop.items + revenue shop.received

theorem quietBalanced {stock : Stock} {shop : Shop} {v : Visit} (became : stock.Became shop.items)
    (same : visit shop v = shop) (free : unpaid shop v = 0) : Balanced stock shop v := by
  unfold Balanced
  rw [same, free]
  exact ⟨became,add_zero _⟩

theorem putBalanced {stock : Stock} {shop : Shop} (became : stock.Became shop.items) (id : Guid)
    (q : Int32) : Balanced stock shop (.request (.put id q)) := by
  have ⟨now,here,_⟩ := became
  have served : visit shop (.request (.put id q)) =
      { shop with items := (mapPutProducts shop.items id q).1 } := rfl
  cases check : checkUpdate shop.items id q with
  | error e =>
    refine quietBalanced became ?_ ?_
    · rw [served, putThrown check]
    · simp only [unpaid, check]
      cases firstOrDefault id shop.items <;> rfl
  | ok n =>
    have nonneg : ∀ p ∈ shop.items, 0 ≤ p.quantity.toInt := by rw [← here]; exact now.nonneg
    obtain ⟨p,found,same,whole,_⟩ := checkUpdateOk nonneg check
    subst same
    have less := worthWithdrawn found whole
    unfold Balanced
    rw [served, putStored check]
    refine ⟨Stock.becameStore became (checkNonneg check),?_⟩
    simp only [unpaid, check, found]
    linarith

theorem createBalanced {stock : Stock} {shop : Shop} (became : stock.Became shop.items)
    (vm : OrderViewModel) (providers : Providers) :
    Balanced stock shop (.request (.create vm providers)) := by
  have ⟨now,here,_⟩ := became
  let order : Order := ⟨vm.productId,vm.quantity,vm.customer,vm.cardType,vm.cardNumber⟩
  have served : visit shop (.request (.create vm providers)) =
      (UI.orderProduct providers shop order).1 := createShop providers shop vm
  cases verdict : now.ledger.verdict order.id order.quantity.toInt with
  | granted =>
    obtain ⟨p,payment,found,_,amount,_,_,check,whole,run⟩ :=
      runReserved providers now shop order here.symm verdict
    have stored : (visit shop (.request (.create vm providers))).items =
        storeQuantity order.id (p.quantity - order.quantity) now.items := by
      rw [served, run]
      rfl
    have paid : (visit shop (.request (.create vm providers))).received =
        shop.received ++ [payment] := by
      rw [served, run]
      rfl
    have less := worthWithdrawn found whole
    refine ⟨?_,?_⟩
    · rw [stored, here]
      exact Stock.becameStore became (checkNonneg check)
    · rw [stored, paid, revenueSnoc, amount, ← here, ← less]
      simp only [unpaid]
      ring
  | refused =>
    refine quietBalanced became ?_ rfl
    rw [served, runRefused providers now shop order here.symm verdict]
  | unknown =>
    refine quietBalanced became ?_ rfl
    have absent : firstOrDefault order.id now.items = none := by
      rw [firstOrDefaultNone]; exact (now.verdictUnstocked _ _).mp verdict
    rw [served, runUnknown providers now shop order here.symm absent]

theorem visitBalanced {stock : Stock} {shop : Shop} (became : stock.Became shop.items) (v : Visit) :
    Balanced stock shop v := by
  cases v with
  | index => exact quietBalanced became rfl rfl
  | form productId => exact quietBalanced became rfl rfl
  | request request =>
    cases request with
    | put id q => exact putBalanced became id q
    | create vm providers => exact createBalanced became vm providers

theorem visitsBalanced {stock : Stock} {shop : Shop} (became : stock.Became shop.items)
    (visits : List Visit) :
    stock.Became (after visit shop visits).items ∧
      worth (after visit shop visits).items + revenue (after visit shop visits).received +
        unpaidTotal shop visits = worth shop.items + revenue shop.received := by
  induction visits generalizing shop with
  | nil => exact ⟨became,add_zero _⟩
  | cons v visits ih =>
    obtain ⟨kept,balance⟩ := visitBalanced became v
    obtain ⟨later,total⟩ := ih kept
    refine ⟨later,?_⟩
    have first : after visit shop (v :: visits) = after visit (visit shop v) visits := rfl
    rw [first]
    simp only [unpaidTotal]
    linarith

theorem formFound (shop : Shop) (id : Guid) :
    createForm shop id = match firstOrDefault id shop.items with
      | none => .notFound id
      | some p => .view ⟨p.id,some p.name,0,none,none,none⟩ := by
  unfold createForm orderRepositoryGetProducts productControllerGetProducts getProducts
    firstOrDefault
  rw [List.find?_map]
  cases found : shop.items.find? ((fun x => x.id == id) ∘
      fun x => (⟨x.id,x.name,x.price,x.quantity⟩ : ProductViewModel)) with
  | none =>
    have same : shop.items.find? (fun x => x.id == id) = none := found
    rw [same]
    rfl
  | some p =>
    have same : shop.items.find? (fun x => x.id == id) = some p := found
    rw [same]
    rfl

/- A form shows what the catalogue says, whatever has been ordered. -/
theorem formKept {stock : Stock} {shop : Shop} (became : stock.Became shop.items) (id : Guid) :
    createForm shop id = createForm (Shop.opened stock.items) id := by
  have opened : (Shop.opened stock.items).items = stock.items := rfl
  rw [formFound, formFound, opened]
  cases now : firstOrDefault id shop.items with
  | some p =>
    obtain ⟨p',first,same⟩ := Stock.becameBack became now
    obtain ⟨sameId,sameRest⟩ := Prod.mk.inj same
    have sameName := (Prod.mk.inj sameRest).1
    rw [first]
    simp only [sameId, sameName]
  | none =>
    cases first : firstOrDefault id stock.items with
    | none => rfl
    | some p =>
      obtain ⟨p',found,_⟩ := Stock.becameFound became first
      cases now.symm.trans found

def ProductViewModel.catalogue (row : ProductViewModel) : Guid × String × Decimal :=
  (row.id,row.name,row.price)

theorem indexCatalogue (shop : Shop) :
    (productIndex shop).map ProductViewModel.catalogue = shop.items.map Product.catalogue := by
  unfold productIndex orderRepositoryGetProducts productControllerGetProducts getProducts
  rw [List.map_map]
  rfl

theorem worthAccounted (stock : Stock) (visits : List Visit) :
    let shop := shopVisited stock visits
    worth shop.items + revenue shop.received +
        unpaidTotal (Shop.opened stock.items) visits = worth stock.items ∧
      (productIndex shop).map ProductViewModel.catalogue = stock.items.map Product.catalogue ∧
      (∀ row ∈ productIndex shop, 0 ≤ row.quantity.toInt) ∧
      ∀ id, createForm shop id = createForm (Shop.opened stock.items) id := by
  intro shop
  have start : stock.Became (Shop.opened stock.items).items := stock.becameSelf
  obtain ⟨became,balance⟩ := visitsBalanced start visits
  have nothing : revenue (Shop.opened stock.items).received = 0 := rfl
  rw [nothing, add_zero] at balance
  refine ⟨balance,?_,?_,formKept became⟩
  · rw [indexCatalogue]
    obtain ⟨_,_,catalogue⟩ := became
    exact catalogue
  · intro row mem
    obtain ⟨p,inside,same⟩ := List.mem_map.mp mem
    subst same
    obtain ⟨now,here,_⟩ := became
    have inside : p ∈ (after visit (Shop.opened stock.items) visits).items := inside
    rw [← here] at inside
    exact now.nonneg p inside

end MonitoringForDevOps.Tracing
