import MonitoringForDevOps.UI.OrderDemand
import MonitoringForDevOps.UI.OrderRefinement

/-! The books of the shop while orders and PUTs interleave: what the stock is worth,
what the payment service was asked for and what clients have taken without a payment
request. Lost updates can only make them add up to too much. -/
namespace MonitoringForDevOps.UI.OrderWorth
open Library Common WrappingInt Runs Interleaving ReadModifyWrite KeyedList StockService
  PaymentService UpdateRace OrderInterleaving OrderAtomicity OrderRefinement OrderSurvivors
  OrderDemand

section Prices
variable (stock : Stock)

def priceOf (id : Guid) : ℚ :=
  ((firstOrDefault id stock.items).map (fun p => p.price.value)).getD 0

/- What a client has taken without a payment request, and what it was charged for. -/
def openWorth : Client → ℚ
  | .order order (.reserving _ (.accepted _ _)) => priceOf stock order.id * order.quantity.toInt
  | .order order (.charging _) => priceOf stock order.id * order.quantity.toInt
  | .direct (.accepted id q) => priceOf stock id * q.toInt
  | _ => 0

def chargedWorth : Client → ℚ
  | .order order (.charged _) => priceOf stock order.id * order.quantity.toInt
  | .order order .returned => priceOf stock order.id * order.quantity.toInt
  | .order order (.threw .payment _) => priceOf stock order.id * order.quantity.toInt
  | _ => 0

/- The same units at the prices of all products. -/
def heldWorth (client : Client) : ℚ :=
  (stock.items.map (fun p => p.price.value * (Client.heldFor p.id client : ℚ))).sum

variable {stock}

theorem pricedOnce {items : List Product} (ids : (items.map Product.id).Nodup) (id : Guid) (x : ℤ) :
    (items.map (fun p => p.price.value * ((if id = p.id then x else 0 : ℤ) : ℚ))).sum =
      ((firstOrDefault id items).map (fun p => p.price.value)).getD 0 * x := by
  induction items with
  | nil => simp [firstOrDefault]
  | cons p items ih =>
    obtain ⟨fresh,rest⟩ := List.nodup_cons.mp ids
    have others := ih rest
    rw [List.map_cons, List.sum_cons, others]
    by_cases same : id = p.id
    · subst same
      have absent : firstOrDefault p.id items = none := by
        rw [firstOrDefaultKeyed, firstWithNone]
        exact fresh
      have first : firstOrDefault p.id (p :: items) = some p := by simp [firstOrDefault]
      rw [absent, first]
      simp
    · have later : firstOrDefault id (p :: items) = firstOrDefault id items := by
        simp [firstOrDefault, Ne.symm same]
      rw [later, if_neg same]
      simp

theorem heldSplit {clients : List Client} {i log client}
    (sound : ClientSound stock clients i log client) :
    heldWorth stock client = openWorth stock client + chargedWorth stock client := by
  have nothing : (stock.items.map (fun p => p.price.value * ((0 : ℤ) : ℚ))).sum = 0 := by simp
  have priced (id : Guid) (q : ℤ) := pricedOnce stock.ids id q
  cases client with
  | direct call =>
    cases call with
    | accepted id q => exact (priced id q.toInt).trans (add_zero _).symm
    | _ => exact nothing.trans (add_zero _).symm
  | order order phase =>
    cases phase with
    | started => exact nothing.trans (add_zero _).symm
    | listed products => exact nothing.trans (add_zero _).symm
    | reserving product call =>
      cases call with
      | accepted id q =>
        have asked : (id,q) = (order.id,order.quantity) := sound.2.2.2.1
        cases asked
        exact (priced order.id order.quantity.toInt).trans (add_zero _).symm
      | _ => exact nothing.trans (add_zero _).symm
    | charging payment => exact (priced order.id order.quantity.toInt).trans (add_zero _).symm
    | charged response => exact (priced order.id order.quantity.toInt).trans (zero_add _).symm
    | returned => exact (priced order.id order.quantity.toInt).trans (zero_add _).symm
    | threw stage e =>
      cases stage with
      | payment => exact (priced order.id order.quantity.toInt).trans (zero_add _).symm
      | _ => exact nothing.trans (add_zero _).symm

theorem worthLevels {items : List Product} (became : stock.Became items) :
    worth items = (stock.items.map (fun p => p.price.value * (levelOf p.id items : ℚ))).sum := by
  obtain ⟨now,here,catalogue⟩ := became
  subst here
  have own : now.items.map (fun p => p.price.value * (p.quantity.toInt : ℚ)) =
      now.items.map (fun p => p.price.value * (levelOf p.id now.items : ℚ)) := by
    refine List.map_congr_left ?_
    intro p mem
    have current : quantityOf now.items p.id = some p.quantity := by
      simp only [quantityOf, firstOrDefaultMember now.ids mem, Option.map_some]
    rw [levelOfSome current]
  have through (items : List Product) :
      items.map (fun p => p.price.value * (levelOf p.id now.items : ℚ)) =
        (items.map Product.catalogue).map
          (fun entry => entry.2.2.value * (levelOf entry.1 now.items : ℚ)) := by
    rw [List.map_map]
    rfl
  rw [worth, own, through, catalogue, ← through]

theorem heldSwapped (items : List Product) (procs : List Client) :
    (items.map (fun p =>
        p.price.value * (((procs.map (Client.heldFor p.id)).sum : ℤ) : ℚ))).sum =
      (procs.map (fun client =>
        (items.map (fun p => p.price.value * (Client.heldFor p.id client : ℚ))).sum)).sum := by
  induction procs with
  | nil => simp
  | cons client procs ih =>
    rw [List.map_cons, List.sum_cons, ← ih, ← List.sum_map_add]
    simp only [List.map_cons, List.sum_cons, Int.cast_add, mul_add]

/- The books, product by product. -/
theorem worthHeld {items : List Product} (became : stock.Became items) (procs : List Client) :
    worth items + (procs.map (heldWorth stock)).sum = (stock.items.map (fun p => p.price.value *
      ((levelOf p.id items + (procs.map (Client.heldFor p.id)).sum : ℤ) : ℚ))).sum := by
  have held : (procs.map (heldWorth stock)).sum = (stock.items.map (fun p =>
      p.price.value * (((procs.map (Client.heldFor p.id)).sum : ℤ) : ℚ))).sum :=
    (heldSwapped stock.items procs).symm
  rw [worthLevels became, held, ← List.sum_map_add]
  simp only [Int.cast_add, mul_add]

end Prices

section Reached
variable {stock : Stock} {clients : List Client} {schedule : List ℕ} {c : Config Services Client}

theorem acceptedUncharged (i : ℕ) (items : List Product) (call : UpdateCall) (log : List Entry) :
    paymentsOf (log ++ acceptedEntry i items call) = paymentsOf log := by
  rw [paymentsAppend]
  cases call <;> exact List.append_nil _

theorem stepCharged {i s client s' client'} (here : ClientSound stock clients i s.log client)
    (step : ClientStep UpdateStep i s client s' client') :
    revenue (paymentsOf s'.log) + -chargedWorth stock client' =
      revenue (paymentsOf s.log) + -chargedWorth stock client := by
  cases step with
  | @reserve order product call items' call' act =>
    simp only [Services.updated, acceptedUncharged]
    rfl
  | @direct call items' call' act =>
    simp only [Services.updated, acceptedUncharged]
    rfl
  | @overflows order product call response e answered ok error =>
    obtain ⟨payment,made,_⟩ := listedPayment here.2.1
    cases made.symm.trans error
  | @charge order payment providers =>
    obtain ⟨p,found,amount⟩ := here.2.1
    have received : paymentsOf (s.paid i payment).log = paymentsOf s.log ++ [payment] :=
      paymentsAppend s.log _
    have price : priceOf stock order.id = p.price.value := by
      simp only [priceOf, found, Option.map_some, Option.getD_some]
    rw [received, revenueSnoc, amount]
    simp only [chargedWorth, price]
    ring
  | _ => rfl

theorem freshUncharged (fresh : ∀ client ∈ clients, client.fresh) :
    (clients.map (fun client => -chargedWorth stock client)).sum = 0 := by
  refine List.sum_eq_zero ?_
  intro amount mem
  obtain ⟨client,inside,same⟩ := List.mem_map.mp mem
  have start := fresh client inside
  subst same
  cases client with
  | order order phase => cases start; exact neg_zero
  | direct call => exact neg_zero

theorem revenueCharged (fresh : ∀ client ∈ clients, client.fresh)
    (run : Run (Step (ClientStep UpdateStep)) (opening stock clients) schedule c) :
    revenue (paymentsOf c.shared.log) = (c.procs.map (chargedWorth stock)).sum := by
  have total := conserved (fun s => revenue (paymentsOf s.log))
    (fun client => -chargedWorth stock client) _ (fun _ _ before => reachedSound fresh before)
    (fun i c client s' client' sound found step => stepCharged (sound.2 i client found) step) run
  have opened : ((opening stock clients).procs.map
      (fun client => -chargedWorth stock client)).sum = 0 := freshUncharged fresh
  have empty : revenue (paymentsOf (opening stock clients).shared.log) = 0 := rfl
  have negated : (c.procs.map (fun client => -chargedWorth stock client)).sum =
      -(c.procs.map (chargedWorth stock)).sum := by
    rw [List.sum_neg, List.map_map]
    rfl
  rw [opened, empty, negated] at total
  linarith

theorem restrictedBalance {i s client s' client'} (sound : ServicesSound stock clients s)
    (here : ClientSound stock clients i s.log client)
    (step : restricted clientReadsCurrent (ClientStep UpdateStep) i s client s' client')
    (id : Guid) :
    levelOf id s'.items + Client.heldFor id client' =
      levelOf id s.items + Client.heldFor id client := by
  obtain ⟨reads,step⟩ := step
  have withdrawn := stepWithdrawn here step id
  cases step with
  | reserve act => exact freshBalance sound.1 here.2.2.1 ⟨reads,act⟩ id
  | direct act => exact freshBalance sound.1 here.2.1 ⟨reads,act⟩ id
  | charge providers => rfl
  | _ => omega

/- The books as sums over the clients. -/
theorem booksHeld (fresh : ∀ client ∈ clients, client.fresh)
    (run : Run (Step (ClientStep UpdateStep)) (opening stock clients) schedule c) :
    worth c.shared.items + revenue (paymentsOf c.shared.log) +
        (c.procs.map (openWorth stock)).sum =
      (stock.items.map (fun p => p.price.value *
        ((levelOf p.id c.shared.items +
          (c.procs.map (Client.heldFor p.id)).sum : ℤ) : ℚ))).sum := by
  obtain ⟨services,each⟩ := reachedSound fresh run
  have split : c.procs.map (heldWorth stock) =
      c.procs.map (fun client => openWorth stock client + chargedWorth stock client) := by
    refine List.map_congr_left ?_
    intro client mem
    obtain ⟨i,found⟩ := List.mem_iff_getElem?.mp mem
    exact heldSplit (each i client found)
  rw [← worthHeld services.1 c.procs, split, List.sum_map_add, ← revenueCharged fresh run]
  ring

/- Less is missing from a level than has been withdrawn. -/
theorem levelShort (fresh : ∀ client ∈ clients, client.fresh)
    (nonneg : ∀ client ∈ clients, 0 ≤ (asked client).2.toInt)
    (run : Run (Step (ClientStep UpdateStep)) (opening stock clients) schedule c) {p : Product}
    (mem : p ∈ stock.items) :
    p.quantity.toInt ≤ levelOf p.id c.shared.items + (c.procs.map (Client.heldFor p.id)).sum := by
  have counted := (reachedCounted fresh run).levels p.id p (firstOrDefaultMember stock.ids mem)
  have asks : ∀ ask ∈ clients.map asked, 0 ≤ ask.2.toInt := by
    intro ask mem
    obtain ⟨client,inside,same⟩ := List.mem_map.mp mem
    rw [← same]
    exact nonneg client inside
  have bounds := explainedBounds (latestExplained counted) (withdrawnNonneg fresh asks run p.id)
  rw [heldWithdrawn fresh run p.id]
  omega

theorem levelExact (fresh : ∀ client ∈ clients, client.fresh)
    (run : Run (Step (restricted clientReadsCurrent (ClientStep UpdateStep)))
      (opening stock clients) schedule c) {p : Product} (mem : p ∈ stock.items) :
    p.quantity.toInt = levelOf p.id c.shared.items + (c.procs.map (Client.heldFor p.id)).sum := by
  have total := conserved (fun s => levelOf p.id s.items) (Client.heldFor p.id) _
    (fun _ _ before => reachedSound fresh (restrictedRun before))
    (fun i c client s' client' sound found step =>
      restrictedBalance sound.1 (sound.2 i client found) step p.id) run
  have first : quantityOf stock.items p.id = some p.quantity := by
    simp only [quantityOf, firstOrDefaultMember stock.ids mem, Option.map_some]
  have opened : levelOf p.id (opening stock clients).shared.items = p.quantity.toInt :=
    levelOfSome first
  have nothing : ((opening stock clients).procs.map (Client.heldFor p.id)).sum = 0 := by
    refine List.sum_eq_zero ?_
    intro held mem
    obtain ⟨client,inside,same⟩ := List.mem_map.mp mem
    rw [← same, freshHeld (fresh client inside) p.id]
  rw [opened, nothing] at total
  omega

end Reached

theorem booksNeverShort (stock : Stock) (clients : List Client)
    (fresh : ∀ client ∈ clients, client.fresh) :
    ((∀ client ∈ clients, 0 ≤ (asked client).2.toInt) → ∀ schedule c,
      Run (Step (ClientStep UpdateStep)) (opening stock clients) schedule c →
      worth stock.items ≤ worth c.shared.items + revenue (paymentsOf c.shared.log) +
        (c.procs.map (openWorth stock)).sum) ∧
    ∀ schedule c,
      Run (Step (restricted clientReadsCurrent (ClientStep UpdateStep))) (opening stock clients)
        schedule c →
      worth stock.items = worth c.shared.items + revenue (paymentsOf c.shared.log) +
        (c.procs.map (openWorth stock)).sum := by
  refine ⟨?_,?_⟩
  · intro nonneg schedule c run
    rw [booksHeld fresh run]
    refine List.sum_le_sum ?_
    intro p mem
    have price := Decimal.valuePos (stock.prices p mem).1
    have short := levelShort fresh nonneg run mem
    exact mul_le_mul_of_nonneg_left (by exact_mod_cast short) price.le
  · intro schedule c run
    rw [booksHeld fresh (restrictedRun run), worth]
    refine congrArg List.sum (List.map_congr_left ?_)
    intro p mem
    rw [levelExact fresh run mem]

theorem booksNeverShortOverlapping :
    worth Stock.initial.items ≤ worth overlappingEnd.shared.items +
      revenue (paymentsOf overlappingEnd.shared.log) +
      (overlappingEnd.procs.map (openWorth Stock.initial)).sum := by
  have fresh : ∀ client ∈ [Client.direct (.waiting lenovo 5),.direct (.waiting lenovo 7)],
      client.fresh := by simp [Client.fresh]
  have nonneg : ∀ client ∈ [Client.direct (.waiting lenovo 5),.direct (.waiting lenovo 7)],
      0 ≤ (asked client).2.toInt := by decide
  exact (booksNeverShort Stock.initial _ fresh).1 nonneg _ _ overlappingReached

end MonitoringForDevOps.UI.OrderWorth
