import MonitoringForDevOps.UI.OrderRepository

/-! One instance of the order page. Every event is one segment between two awaits:
a parameter change up to its request, the continuation when the products arrive,
the click up to the order call, the continuation when that call ends. -/
namespace MonitoringForDevOps.UI.OrderPage
open Library Common Runs StockService

structure OrderViewModel where
  productId : Guid
  productName : Option String
  quantity : Int32
  customer : Option String
  cardType : Option String
  cardNumber : Option String
  deriving DecidableEq

def OrderViewModel.new : OrderViewModel := ⟨Guid.empty,none,0,none,none,none⟩

def OrderViewModel.isValid (model : OrderViewModel) : Bool :=
  model.productId ≠ Guid.empty && model.quantity > 0 && !isNullOrEmpty model.customer &&
    !isNullOrEmpty model.cardType && !isNullOrEmpty model.cardNumber

inductive Severity where
  | success
  | error
  deriving DecidableEq, Repr

/- The component's parameter and fields, the number of pending GetProducts calls
(they all continue alike), the lists received, the order calls, and the output. -/
structure Page where
  productId : Guid
  model : Option OrderViewModel
  orderInProgress : Bool
  pendingProducts : Nat
  received : List (List Product)
  inFlight : List Order
  issued : List Order
  snackbar : List (String × Severity)
  navigated : List String
  deriving DecidableEq

def Page.opened : Page := ⟨Guid.empty,none,false,0,[],[],[],[],[]⟩

def Page.orderDisabled (page : Page) : Bool :=
  match page.model with
  | none => true
  | some model => model.isValid == false || page.orderInProgress

def Page.shownName (page : Page) : Option String := page.model.bind OrderViewModel.productName

inductive Event where
  | setParameters (productId : Guid)
  | loaded (products : List Product)
  | loadFailed
  | editQuantity (quantity : Int32)
  | editCustomer (customer : Option String)
  | editCardType (cardType : Option String)
  | editCardNumber (cardNumber : Option String)
  | click
  | orderReturned (call : Nat)
  | orderThrew (call : Nat)
  deriving DecidableEq

-- OnParametersSetAsync up to the await of GetProducts.
def Page.setParameters (page : Page) (productId : Guid) : Page :=
  let model := page.model.getD .new
  if model.productId = productId then
    { page with productId := productId, model := some model }
  else
    { page with
      productId := productId
      model := some { model with productId := productId }
      pendingProducts := page.pendingProducts + 1 }

/- The rest of OnParametersSetAsync: the list is searched for the parameter the
component has now, not for the one the request was made under. -/
def Page.loaded (page : Page) (products : List Product) : Page :=
  let page' := { page with
    pendingProducts := page.pendingProducts - 1, received := page.received ++ [products] }
  match firstOrDefault page.productId products with
  | none => page'
  | some product =>
      { page' with
        model := page'.model.map (fun model => { model with productName := some product.name }) }

def Page.edit (page : Page) (change : OrderViewModel → OrderViewModel) : Page :=
  { page with model := page.model.map change }

-- OrderProduct up to the await of the repository's call.
def Page.orderProduct (page : Page) : Page :=
  match page.model with
  | none => page
  | some model =>
      let order : Order :=
        ⟨model.productId,model.quantity,model.customer,model.cardType,model.cardNumber⟩
      { page with
        orderInProgress := true
        inFlight := page.inFlight ++ [order]
        issued := page.issued ++ [order] }

def Page.orderReturned (page : Page) (call : Nat) : Page :=
  { page with
    inFlight := page.inFlight.eraseIdx call
    snackbar := page.snackbar ++
      [(page.shownName.getD "" ++ " wurde erfolgreich bestellt",.success)]
    navigated := page.navigated ++ ["/products"]
    orderInProgress := false }

def Page.orderThrew (page : Page) (call : Nat) : Page :=
  { page with
    inFlight := page.inFlight.eraseIdx call
    snackbar := page.snackbar ++
      [("Fehler bei der Bestellung von Produkt " ++ page.shownName.getD "" ++ ".",.error)]
    orderInProgress := false }

/- An event that cannot happen in a state (a click on a disabled button, the end of
a call that is not pending) leaves it as it is. -/
def handle (page : Page) : Event → Page
  | .setParameters productId => page.setParameters productId
  | .loaded products => if page.pendingProducts = 0 then page else page.loaded products
  | .loadFailed => { page with pendingProducts := page.pendingProducts - 1 }
  | .editQuantity quantity => page.edit (fun model => { model with quantity := quantity })
  | .editCustomer customer => page.edit (fun model => { model with customer := customer })
  | .editCardType cardType => page.edit (fun model => { model with cardType := cardType })
  | .editCardNumber cardNumber => page.edit (fun model => { model with cardNumber := cardNumber })
  | .click => if page.orderDisabled then page else page.orderProduct
  | .orderReturned call => if call < page.inFlight.length then page.orderReturned call else page
  | .orderThrew call => if call < page.inFlight.length then page.orderThrew call else page

def Filled (field : Option String) : Prop := ∃ text, field = some text ∧ text ≠ ""

structure WellFormed (order : Order) : Prop where
  product : order.id ≠ Guid.empty
  quantity : 0 < order.quantity.toInt
  customer : Filled order.customer
  cardType : Filled order.cardType
  cardNumber : Filled order.cardNumber

structure Submitting (page : Page) : Prop where
  flag : page.inFlight.length = if page.orderInProgress then 1 else 0
  sound : ∀ order ∈ page.issued, WellFormed order

theorem validWellFormed {model : OrderViewModel} (valid : model.isValid = true) :
    WellFormed ⟨model.productId,model.quantity,model.customer,model.cardType,model.cardNumber⟩ := by
  simp only [OrderViewModel.isValid, Bool.and_eq_true, decide_eq_true_eq, Bool.not_eq_true',
    isNullOrEmptyFalse] at valid
  obtain ⟨⟨⟨⟨product,quantity⟩,customer⟩,cardType⟩,cardNumber⟩ := valid
  exact ⟨product,by simpa [Int32.lt_iff_toInt_lt] using quantity,customer,cardType,cardNumber⟩

theorem enabledModel {page : Page} (enabled : page.orderDisabled = false) :
    page.orderInProgress = false ∧ ∃ model, page.model = some model ∧ model.isValid = true := by
  unfold Page.orderDisabled at enabled
  split at enabled
  · cases enabled
  · rename_i model has
    simp only [Bool.or_eq_false_iff, beq_eq_false_iff_ne, ne_eq, Bool.not_eq_false] at enabled
    exact ⟨enabled.2,model,has,enabled.1⟩

def Page.calls (page : Page) : Bool × List Order × List Order :=
  (page.orderInProgress,page.inFlight,page.issued)

theorem submittingFrame {page page' : Page} (submitting : Submitting page)
    (same : page'.calls = page.calls) : Submitting page' := by
  simp only [Page.calls, Prod.mk.injEq] at same
  obtain ⟨flag,inFlight,issued⟩ := same
  exact ⟨by rw [flag, inFlight]; exact submitting.flag,by rw [issued]; exact submitting.sound⟩

theorem setParametersCalls (page : Page) (productId : Guid) :
    (page.setParameters productId).calls = page.calls := by
  simp only [Page.setParameters]
  split <;> rfl

theorem loadedCalls (page : Page) (products : List Product) :
    (page.loaded products).calls = page.calls := by
  simp only [Page.loaded]
  split <;> rfl

theorem clickSubmits {page : Page} (submitting : Submitting page)
    (enabled : page.orderDisabled = false) : Submitting page.orderProduct := by
  obtain ⟨idle,model,has,valid⟩ := enabledModel enabled
  have none_ := submitting.flag
  simp only [idle, Bool.false_eq_true, if_false] at none_
  simp only [Page.orderProduct, has]
  refine ⟨by simp [none_],?_⟩
  intro order mem
  rcases List.mem_append.mp mem with old | new
  · exact submitting.sound order old
  · rw [List.mem_singleton.mp new]
    exact validWellFormed valid

theorem lastCallEnds {page : Page} {call : Nat} (submitting : Submitting page)
    (pending : call < page.inFlight.length) : (page.inFlight.eraseIdx call).length = 0 := by
  have atMostOne : page.inFlight.length ≤ 1 := by
    rw [submitting.flag]
    split <;> omega
  rw [List.length_eraseIdx_of_lt pending]
  omega

theorem handleSubmits (page : Page) (e : Event) (submitting : Submitting page) :
    Submitting (handle page e) := by
  cases e with
  | setParameters productId =>
    exact submittingFrame submitting (setParametersCalls page productId)
  | loaded products =>
    simp only [handle]
    split
    · exact submitting
    · exact submittingFrame submitting (loadedCalls page products)
  | loadFailed => exact submittingFrame submitting rfl
  | editQuantity quantity => exact submittingFrame submitting rfl
  | editCustomer customer => exact submittingFrame submitting rfl
  | editCardType cardType => exact submittingFrame submitting rfl
  | editCardNumber cardNumber => exact submittingFrame submitting rfl
  | click =>
    simp only [handle]
    split
    · exact submitting
    · rename_i enabled
      exact clickSubmits submitting (by simpa using enabled)
  | orderReturned call =>
    simp only [handle]
    split
    · rename_i pending
      exact ⟨lastCallEnds submitting pending,submitting.sound⟩
    · exact submitting
  | orderThrew call =>
    simp only [handle]
    split
    · rename_i pending
      exact ⟨lastCallEnds submitting pending,submitting.sound⟩
    · exact submitting

theorem neverTwiceNeverInvalid (events : List Event) :
    let page := after handle Page.opened events
    page.inFlight.length = (if page.orderInProgress then 1 else 0) ∧
    ∀ order ∈ page.issued, order.id ≠ Guid.empty ∧ 0 < order.quantity.toInt ∧
      Filled order.customer ∧ Filled order.cardType ∧ Filled order.cardNumber := by
  have submitting : Submitting (after handle Page.opened events) :=
    afterInvariant handle Submitting ⟨rfl,List.forall_mem_nil _⟩ handleSubmits events
  refine ⟨submitting.flag,?_⟩
  intro order mem
  obtain ⟨product,quantity,customer,cardType,cardNumber⟩ := submitting.sound order mem
  exact ⟨product,quantity,customer,cardType,cardNumber⟩

def readProduct (page : Page) : Event → Option Product
  | .loaded products =>
      if page.pendingProducts = 0 then none else firstOrDefault page.productId products
  | _ => none

def lastRead (events : List Event) : Option Product :=
  lastNoted handle readProduct Page.opened events

def Received (page : Page) (product : Product) : Prop :=
  ∃ products ∈ page.received, product ∈ products

structure Shown (page : Page) (last : Option Product) : Prop where
  waiting : page.model = none → page.pendingProducts = 0
  parameter : ∀ model, page.model = some model → model.productId = page.productId
  name : page.shownName = last.map Product.name
  read : ∀ product, last = some product → Received page product

theorem setParametersShown {page : Page} {last} (shown : Shown page last) (productId : Guid) :
    Shown (page.setParameters productId) last := by
  have name : (page.model.getD .new).productName = page.shownName := by
    simp only [Page.shownName]
    cases page.model <;> rfl
  have same := name.trans shown.name
  simp only [Page.setParameters]
  split
  · rename_i unchanged
    refine ⟨nofun,?_,same,shown.read⟩
    intro model has
    cases has
    exact unchanged
  · refine ⟨nofun,?_,same,shown.read⟩
    intro model has
    cases has
    rfl

theorem loadedShown {page : Page} {last} (shown : Shown page last) (products : List Product)
    (pending : page.pendingProducts ≠ 0) :
    Shown (page.loaded products) ((firstOrDefault page.productId products).or last) := by
  have kept : ∀ product, Received page product →
      ∃ list ∈ page.received ++ [products], product ∈ list := by
    rintro product ⟨list,mem,inside⟩
    exact ⟨list,List.mem_append_left _ mem,inside⟩
  have has : ∃ model, page.model = some model :=
    Option.ne_none_iff_exists'.mp (fun absent => pending (shown.waiting absent))
  obtain ⟨model,has⟩ := has
  simp only [Page.loaded]
  cases found : firstOrDefault page.productId products with
  | none =>
    refine ⟨?_,shown.parameter,shown.name,?_⟩
    · intro absent
      simp [has] at absent
    · intro product was
      exact kept product (shown.read product was)
  | some product =>
    have own := shown.parameter model has
    refine ⟨?_,?_,?_,?_⟩
    · intro absent
      simp [has] at absent
    · intro model' has'
      simp only [has, Option.map_some, Option.some.injEq] at has'
      subst has'
      exact own
    · simp [Page.shownName, has]
    · intro product' is
      simp only [Option.some_or, Option.some.injEq] at is
      subst is
      exact ⟨products,by simp,(firstOrDefaultSome found).1⟩

theorem editShown {page : Page} {last} (shown : Shown page last)
    (change : OrderViewModel → OrderViewModel)
    (id : ∀ model, (change model).productId = model.productId)
    (name : ∀ model, (change model).productName = model.productName) :
    Shown (page.edit change) last := by
  have same : (page.edit change).shownName = page.shownName := by
    simp only [Page.edit, Page.shownName]
    cases page.model with
    | none => rfl
    | some model => exact name model
  refine ⟨?_,?_,same.trans shown.name,shown.read⟩
  · intro absent
    exact shown.waiting (Option.map_eq_none_iff.mp absent)
  · intro model has
    obtain ⟨old,had,changed⟩ := Option.map_eq_some_iff.mp has
    rw [← changed, id]
    exact shown.parameter old had

theorem orderShown {page : Page} {last} (shown : Shown page last) :
    Shown page.orderProduct last := by
  unfold Page.orderProduct
  split
  · exact shown
  · rename_i model has
    exact ⟨shown.waiting,shown.parameter,shown.name,shown.read⟩

theorem handleShown (page : Page) (e : Event) (last : Option Product) (shown : Shown page last) :
    Shown (handle page e) ((readProduct page e).or last) := by
  cases e with
  | setParameters productId => exact setParametersShown shown productId
  | loaded products =>
    simp only [handle, readProduct]
    split
    · exact shown
    · rename_i pending
      exact loadedShown shown products pending
  | loadFailed =>
    refine ⟨?_,shown.parameter,shown.name,shown.read⟩
    intro absent
    simp only [handle, shown.waiting absent]
  | editQuantity quantity => exact editShown shown _ (fun _ => rfl) (fun _ => rfl)
  | editCustomer customer => exact editShown shown _ (fun _ => rfl) (fun _ => rfl)
  | editCardType cardType => exact editShown shown _ (fun _ => rfl) (fun _ => rfl)
  | editCardNumber cardNumber => exact editShown shown _ (fun _ => rfl) (fun _ => rfl)
  | click =>
    simp only [handle]
    split
    · exact shown
    · exact orderShown shown
  | orderReturned call =>
    simp only [handle]
    split
    · exact ⟨shown.waiting,shown.parameter,shown.name,shown.read⟩
    · exact shown
  | orderThrew call =>
    simp only [handle]
    split
    · exact ⟨shown.waiting,shown.parameter,shown.name,shown.read⟩
    · exact shown

theorem openedShown : Shown Page.opened none := by
  refine ⟨fun _ => rfl,?_,rfl,?_⟩
  · intro model has
    cases has
  · intro product was
    cases was

theorem reachedShown (events : List Event) :
    Shown (after handle Page.opened events) (lastRead events) :=
  notedInvariant handle readProduct Shown openedShown handleShown events

def ShowsWhatItOrders (page : Page) : Prop :=
  page.orderDisabled = false → ∃ model, page.model = some model ∧
    ∃ product, Received page product ∧ product.id = model.productId ∧
      model.productName = some product.name

def Namesake (page : Page) (product : Product) : Prop :=
  ∃ other, Received page other ∧ other.id = page.productId ∧ other.name = product.name

def DistinctNames (page : Page) : Prop :=
  ∀ p q, Received page p → Received page q → p.name = q.name → p.id = q.id

theorem showsNamesake {page : Page} {last} (shown : Shown page last) :
    ShowsWhatItOrders page ↔
      (page.orderDisabled = false → ∃ product, last = some product ∧ Namesake page product) := by
  constructor
  · intro shows enabled
    obtain ⟨model,has,product,received,ordered,named⟩ := shows enabled
    have name : page.shownName = some product.name := by simp [Page.shownName, has, named]
    obtain ⟨read,was,same⟩ := Option.map_eq_some_iff.mp (shown.name.symm.trans name)
    exact ⟨read,was,product,received,ordered.trans (shown.parameter model has),same.symm⟩
  · intro reads enabled
    obtain ⟨_,model,has,_⟩ := enabledModel enabled
    obtain ⟨read,was,product,received,ordered,same⟩ := reads enabled
    have name : page.shownName = some product.name := by rw [shown.name, was, same]; rfl
    rw [Page.shownName, has] at name
    exact ⟨model,has,product,received,ordered.trans (shown.parameter model has).symm,name⟩

theorem namesakeSame {page : Page} {last} (shown : Shown page last) {product}
    (was : last = some product) :
    (product.id = page.productId → Namesake page product) ∧
      (DistinctNames page → Namesake page product → product.id = page.productId) := by
  have received := shown.read product was
  constructor
  · intro same
    exact ⟨product,received,same,rfl⟩
  · rintro distinct ⟨other,here,ordered,name⟩
    exact (distinct product other received here name.symm).trans ordered

def ReadUnderParameter (events : List Event) : Prop :=
  ∃ product, lastRead events = some product ∧
    product.id = (after handle Page.opened events).productId

theorem showsWhatItOrdersExactly (events : List Event) :
    let page := after handle Page.opened events
    ((page.orderDisabled = false → ReadUnderParameter events) → ShowsWhatItOrders page) ∧
    (DistinctNames page →
      (ShowsWhatItOrders page ↔ (page.orderDisabled = false → ReadUnderParameter events))) ∧
    (ShowsWhatItOrders page ↔ (page.orderDisabled = false →
      ∃ product, lastRead events = some product ∧ Namesake page product)) := by
  have shown := reachedShown events
  have named := showsNamesake shown
  have enough : ((after handle Page.opened events).orderDisabled = false →
      ReadUnderParameter events) → ShowsWhatItOrders (after handle Page.opened events) := by
    intro reads
    refine named.mpr fun enabled => ?_
    obtain ⟨product,was,same⟩ := reads enabled
    exact ⟨product,was,(namesakeSame shown was).1 same⟩
  refine ⟨enough,fun distinct => ⟨?_,enough⟩,named⟩
  intro shows enabled
  obtain ⟨product,was,namesake⟩ := named.mp shows enabled
  exact ⟨product,was,(namesakeSame shown was).2 distinct namesake⟩

def navigatedOn : List Event :=
  [.setParameters lenovo,.loaded items,.editQuantity 1,.editCustomer (some "Max Mustermann"),
    .editCardType (some "visa"),.editCardNumber (some "4111"),.setParameters geoBook]

theorem ordersOtherThanShown :
    let page := after handle Page.opened navigatedOn
    page.orderDisabled = false ∧ page.shownName = some "Lenovo G27q-20" ∧
    (handle page .click).issued =
      [⟨geoBook,1,some "Max Mustermann",some "visa",some "4111"⟩] ∧
    ¬ShowsWhatItOrders page := by
  refine ⟨by decide,by decide,by decide,?_⟩
  intro shows
  obtain ⟨model,has,product,⟨products,mem,inside⟩,ordered,named⟩ := shows (by decide)
  cases has
  cases List.mem_singleton.mp mem
  have listed : ∀ p ∈ items, p.id = geoBook → p.name ≠ "Lenovo G27q-20" := by decide
  exact listed product inside ordered (Option.some.inj named).symm

end MonitoringForDevOps.UI.OrderPage
