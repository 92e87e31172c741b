import MonitoringForDevOps.Library.Heap
import MonitoringForDevOps.StockService.Program

/-! The products_current gauge. The service caches a read-only view of the repository's
list, which is a reference to it: products are read through it when a collection asks. -/
namespace MonitoringForDevOps.StockService.ProductMetricsService
open Library Common Runs KeyedList

/- The wrapper AsReadOnly returns around a list. -/
structure ReadOnlyCollection where
  list : Reference
  deriving DecidableEq

structure Measurement where
  value : Int32
  tags : List (String × String)
  deriving DecidableEq

def measurement (product : Product) : Measurement :=
  ⟨product.quantity,[("id",product.id.toStringD),("name",product.name)]⟩

inductive Execution where
  | querying
  | queried (products : ReadOnlyCollection)
  | delaying
  | stopped
  deriving DecidableEq

structure Process where
  products : Heap Product
  lists : Heap (List Reference)
  items : Reference
  productsCache : Option ReadOnlyCollection
  execution : Execution
  deriving DecidableEq

def Process.started (s : Stock) : Process :=
  let (products,references) := Heap.allocated s.items
  ⟨products,⟨[references]⟩,0,none,.querying⟩

def Process.toArray (w : Process) (view : ReadOnlyCollection) : List Reference :=
  (w.lists.read view.list).getD []

def Process.getProducts (w : Process) : ReadOnlyCollection := ⟨w.items⟩

/- The list elements are references, so the assignment writes to the shared product. -/
def Process.updateProducts (w : Process) (id : Guid) (quantity : Int32) : Except Exn Process :=
  match w.products.firstRef Product.id id (w.toArray ⟨w.items⟩) with
  | none => .error (.argumentOutOfRange "id" none)
  | some (reference,product) =>
      let newQuantity := product.quantity - quantity
      if newQuantity < 0 then .error (.argument "quantity")
      else .ok { w with
        products := w.products.write reference { product with quantity := newQuantity } }

def Process.getCurrentQuantities (w : Process) : List Measurement :=
  match w.productsCache with
  | none => []
  | some productsCache => (w.products.contents (w.toArray productsCache)).map measurement

inductive Event where
  | updates (id : Guid) (quantity : Int32)
  | queries
  | throws
  | refreshes
  | continues
  | stops
  | collects (emitted : List Measurement)
  deriving DecidableEq

inductive Step : Process → Event → Process → Prop where
  | updated {w id q w'} (ok : w.updateProducts id q = .ok w') : Step w (.updates id q) w'
  | denied {w id q e} (error : w.updateProducts id q = .error e) : Step w (.updates id q) w
  | queried {w : Process} (querying : w.execution = .querying) :
      Step w .queries { w with execution := .queried w.getProducts }
  | threw {w : Process} (querying : w.execution = .querying) :
      Step w .throws { w with execution := .delaying }
  | refreshed {w : Process} {products} (queried : w.execution = .queried products) :
      Step w .refreshes { w with productsCache := some products, execution := .delaying }
  | continued {w : Process} (delaying : w.execution = .delaying) :
      Step w .continues { w with execution := .querying }
  | stopped {w : Process} (delaying : w.execution = .delaying) :
      Step w .stops { w with execution := .stopped }
  | collected {w : Process} : Step w (.collects w.getCurrentQuantities) w

def Event.update : Event → Option (Guid × Int32)
  | .updates id q => some (id,q)
  | _ => none

def stockAfter (s : Stock) (events : List Event) : Stock :=
  after (fun s request => (s.put request.1 request.2).1) s (events.filterMap Event.update)

def Process.stocked (w : Process) : List Product := w.products.contents (w.toArray w.getProducts)

/- A call through references does to the listed products what it does to a list of
values: it throws alike, or its one write is the store. -/
theorem updateRefines {w : Process} (distinct : (w.toArray w.getProducts).Nodup)
    (id : Guid) (q : Int32) :
    (∃ e, w.updateProducts id q = .error e ∧ checkUpdate w.stocked id q = .error e) ∨
    ∃ n heap, w.updateProducts id q = .ok { w with products := heap } ∧
      checkUpdate w.stocked id q = .ok n ∧
      Process.stocked { w with products := heap } = storeQuantity id n w.stocked := by
  have listed : (w.products.firstRef Product.id id (w.toArray w.getProducts)).map Prod.snd =
      firstOrDefault id w.stocked := Heap.firstRefContents Product.id w.products id _
  unfold Process.updateProducts
  cases found : w.products.firstRef Product.id id (w.toArray w.getProducts) with
  | none =>
    rw [found] at listed
    exact .inl ⟨_,by simp only [Process.getProducts] at found; rw [found],
      checkUpdateNone listed.symm⟩
  | some entry =>
    obtain ⟨reference,product⟩ := entry
    rw [found] at listed
    have check : checkUpdate w.stocked id q =
        if product.quantity - q < 0 then .error (.argument "quantity")
        else .ok (product.quantity - q) := by
      simp only [checkUpdate, ← listed, Option.map_some]
    have search : w.products.firstRef Product.id id (w.toArray ⟨w.items⟩) =
        some (reference,product) := found
    simp only [search]
    split
    · rename_i negative
      exact .inl ⟨_,rfl,by rw [check, if_pos negative]⟩
    · rename_i enough
      refine .inr ⟨_,_,rfl,by rw [check, if_neg enough],?_⟩
      rw [storeKeyed]
      exact Heap.contentsWrite Product.id distinct found
        (fun p => { p with quantity := product.quantity - q })

/- What holds between the steps: the repository's list is the one object it was, its
products are the stock as the calls left it, and every view there is, cached or on its
way to the cache, is a view of that list. -/
structure Live (s : Stock) (events : List Event) (w : Process) : Prop where
  distinct : (w.toArray w.getProducts).Nodup
  stocked : w.stocked = (stockAfter s events).items
  cached : ∀ view, w.productsCache = some view → view = w.getProducts
  queried : ∀ view, w.execution = .queried view → view = w.getProducts
  refreshed : w.productsCache.isSome ↔ .refreshes ∈ events

theorem startedLive (s : Stock) : Live s [] (.started s) where
  distinct := Heap.allocatedDistinct s.items
  stocked := Heap.allocatedContents s.items
  cached := fun _ none => by cases none
  queried := fun _ other => by cases other
  refreshed := by simp [Process.started]

theorem stockAfterSnoc (s : Stock) (events : List Event) (e : Event) :
    stockAfter s (events ++ [e]) = match e.update with
      | some (id,q) => ((stockAfter s events).put id q).1
      | none => stockAfter s events := by
  unfold stockAfter
  rw [List.filterMap_append]
  cases update : e.update with
  | none => simp [update]
  | some request => simp [update]

theorem stockKept (s : Stock) (events : List Event) {e : Event} (quiet : e.update = none) :
    (stockAfter s events).items = (stockAfter s (events ++ [e])).items := by
  rw [stockAfterSnoc, quiet]

theorem quietLive {s : Stock} {events w} (live : Live s events w) (e : Event)
    (quiet : e.update = none) (other : .refreshes ≠ e) (execution : Execution)
    (queried : ∀ view, execution = .queried view → view = w.getProducts) :
    Live s (events ++ [e]) { w with execution := execution } where
  distinct := live.distinct
  stocked := live.stocked.trans (stockKept s events quiet)
  cached := live.cached
  queried := queried
  refreshed := by simpa [other] using live.refreshed

theorem stepLive {s : Stock} {events w e w'} (live : Live s events w) (step : Step w e w') :
    Live s (events ++ [e]) w' := by
  cases step with
  | @updated id q _ ok =>
    rcases updateRefines live.distinct id q with ⟨e,error,_⟩ | ⟨n,heap,same,check,stored⟩
    · rw [error] at ok
      cases ok
    · rw [same] at ok
      cases ok
      rw [live.stocked] at check stored
      have put : ((stockAfter s events).put id q).1.items =
          storeQuantity id n (stockAfter s events).items := by
        rw [Stock.putOfOk check]
        rfl
      refine ⟨live.distinct,?_,live.cached,live.queried,?_⟩
      · rw [stored, stockAfterSnoc]
        exact put.symm
      · simpa using live.refreshed
  | @denied id q e error =>
    rcases updateRefines live.distinct id q with ⟨e',_,check⟩ | ⟨n,heap,same,_,_⟩
    · rw [live.stocked] at check
      refine ⟨live.distinct,?_,live.cached,live.queried,?_⟩
      · rw [live.stocked, stockAfterSnoc]
        exact congrArg Stock.items (Stock.putOfError check).symm
      · simpa using live.refreshed
    · rw [same] at error
      cases error
  | queried querying =>
    refine quietLive live .queries rfl nofun (.queried w.getProducts) ?_
    intro view same
    cases same
    rfl
  | threw querying => exact quietLive live .throws rfl nofun .delaying nofun
  | @refreshed view queried =>
    refine ⟨live.distinct,live.stocked.trans (stockKept s events rfl),?_,?_,?_⟩
    · intro cached same
      cases same
      exact live.queried view queried
    · intro view same
      cases same
    · simp
  | continued delaying => exact quietLive live .continues rfl nofun .querying nofun
  | stopped delaying => exact quietLive live .stops rfl nofun .stopped nofun
  | collected => exact quietLive live (.collects w.getCurrentQuantities) rfl nofun w.execution live.queried

theorem runLive {s : Stock} {events w} (run : Run Step (.started s) events w) : Live s events w :=
  runHistory (Live s) (startedLive s) (fun _ _ _ _ live step => stepLive live step) run

theorem collectedNow {s : Stock} {events w} (live : Live s events w) :
    (.refreshes ∉ events → w.getCurrentQuantities = []) ∧
      (.refreshes ∈ events → w.getCurrentQuantities = w.stocked.map measurement) := by
  cases cache : w.productsCache with
  | none =>
    have never : .refreshes ∉ events := by
      intro mem
      have full := live.refreshed.mpr mem
      rw [cache] at full
      cases full
    refine ⟨fun _ => ?_,fun mem => absurd mem never⟩
    simp only [Process.getCurrentQuantities, cache]
  | some view =>
    have full : .refreshes ∈ events := live.refreshed.mp (by rw [cache]; rfl)
    refine ⟨fun absent => absurd full absent,fun _ => ?_⟩
    simp only [Process.getCurrentQuantities, cache, live.cached view cache]
    rfl

def Measurement.of (product : Product) (m : Measurement) : Bool :=
  m.tags.contains ("id",product.id.toStringD)

theorem measurementOf (product other : Product) :
    (measurement other).of product = (other.id == product.id) := by
  by_cases same : other.id = product.id
  · simp [Measurement.of, measurement, same]
  · have tags : ¬ product.id.toStringD = other.id.toStringD :=
      fun h => same (toStringDInjective h).symm
    simp [Measurement.of, measurement, same, tags]

/- Ids are distinct, so no other product is measured under a product's id. -/
theorem onePerProduct {products : List Product} (ids : (products.map Product.id).Nodup)
    {product} (mem : product ∈ products) :
    (products.map measurement).filter (Measurement.of product) = [measurement product] := by
  have own : Measurement.of product ∘ measurement = fun other => other.id == product.id := by
    funext other
    rw [Function.comp_apply, measurementOf]
  have only : products.filter (fun other => other.id == product.id) = [product] := by
    have all := filterKey Product.id ids product.id
    rw [firstWithMember Product.id ids mem] at all
    exact all
  rw [List.filter_map, own, only]
  rfl

theorem neverStale (s : Stock) {before emitted rest w}
    (run : Run Step (.started s) (before ++ .collects emitted :: rest) w) :
    ∃ now, Run Step (.started s) before now ∧ now.stocked = (stockAfter s before).items ∧
      (.refreshes ∉ before → emitted = []) ∧
      (.refreshes ∈ before →
        emitted = now.stocked.map measurement ∧
        ∀ product ∈ now.stocked, emitted.filter (Measurement.of product) =
          [⟨product.quantity,[("id",product.id.toStringD),("name",product.name)]⟩]) := by
  obtain ⟨now,earlier,later⟩ := runSplit run
  have live := runLive earlier
  obtain ⟨unfilled,filled⟩ := collectedNow live
  have emission : emitted = now.getCurrentQuantities := by
    rcases runHead later with ⟨none,_⟩ | ⟨e,_,_,same,step,_⟩
    · cases none
    · cases same
      cases step
      rfl
  subst emission
  refine ⟨now,earlier,live.stocked,unfilled,?_⟩
  intro mem
  refine ⟨filled mem,?_⟩
  intro product stocked
  have ids : (now.stocked.map Product.id).Nodup := by
    rw [live.stocked]
    exact (stockAfter s before).ids
  rw [filled mem]
  exact onePerProduct ids stocked

theorem neverStaleLenovo :
    ∃ emitted w, Run Step (.started .initial)
        ([.queries,.refreshes,.updates lenovo 5] ++ .collects emitted :: []) w ∧
      ∃ now : Process, now.stocked = storeQuantity lenovo 36 items ∧
        emitted = now.stocked.map measurement := by
  have query : Step (.started .initial) .queries
      ⟨⟨items⟩,⟨[[0,1,2,3,4,5]]⟩,0,none,.queried ⟨0⟩⟩ := .queried rfl
  have refresh : Step ⟨⟨items⟩,⟨[[0,1,2,3,4,5]]⟩,0,none,.queried ⟨0⟩⟩ .refreshes
      ⟨⟨items⟩,⟨[[0,1,2,3,4,5]]⟩,0,some ⟨0⟩,.delaying⟩ := .refreshed rfl
  have update : Step ⟨⟨items⟩,⟨[[0,1,2,3,4,5]]⟩,0,some ⟨0⟩,.delaying⟩ (.updates lenovo 5)
      ⟨⟨storeQuantity lenovo 36 items⟩,⟨[[0,1,2,3,4,5]]⟩,0,some ⟨0⟩,.delaying⟩ := .updated rfl
  have run := Run.snoc (.snoc (.snoc (runSingle query) refresh) update) .collected
  obtain ⟨now,_,stocked,_,filled⟩ := neverStale Stock.initial run
  refine ⟨_,_,run,now,?_,(filled (by decide)).1⟩
  rw [stocked]
  rfl

end MonitoringForDevOps.StockService.ProductMetricsService
