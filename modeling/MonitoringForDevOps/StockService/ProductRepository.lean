import Mathlib.Tactic.Linarith
import MonitoringForDevOps.Common.Models
import MonitoringForDevOps.Library.KeyedList
import MonitoringForDevOps.Library.Ledger
import MonitoringForDevOps.Library.WrappingInt

/-! The stock service's ProductRepository: one list of products whose quantities
are overwritten in place. Ids, names and prices are never written. -/
namespace MonitoringForDevOps.StockService
open Library Common WrappingInt KeyedList

def lenovo : Guid := 0x6679a09cab6946aebd4c9a4bb0a69d93
def geoBook : Guid := 0xfba18a9a6f8c4e8db264dc165632d5da

def lenovoPrice : Decimal := ⟨26898,2,by decide,by decide⟩

def items : List Product :=
  [ ⟨lenovo,"Lenovo G27q-20",⟨26898,2,by decide,by decide⟩,41⟩,
    ⟨geoBook,"Geo GeoBook 140",⟨25905,2,by decide,by decide⟩,99⟩,
    ⟨0xc011031695404dedaea042e7083ec174,"Microsoft Classic IntelliMouse",
      ⟨1697,2,by decide,by decide⟩,196⟩,
    ⟨0x598f076d0f504788813ff557e43d73f5,"Brother MFC-J5730DW",⟨31528,2,by decide,by decide⟩,214⟩,
    ⟨0xd05382c7a56045e59bbc96c81a675adf,"AVM FRITZ!Box 7590",⟨21599,2,by decide,by decide⟩,63⟩,
    ⟨0x306a99834b1b469196e0156b80d10fb8,"Optoma HD146X Beamer",⟨49900,2,by decide,by decide⟩,37⟩ ]

def firstOrDefault (id : Guid) (items : List Product) : Option Product :=
  items.find? (fun x => x.id == id)

/- `product.Quantity = newQuantity` writes through the reference FirstOrDefault
returned, so it reaches the first product with the id and no other. -/
def storeQuantity (id : Guid) (newQuantity : Int32) : List Product → List Product
  | [] => []
  | p :: ps =>
      if p.id = id then { p with quantity := newQuantity } :: ps
      else p :: storeQuantity id newQuantity ps

def checkUpdate (items : List Product) (id : Guid) (quantity : Int32) : Except Exn Int32 :=
  match firstOrDefault id items with
  | none => .error (.argumentOutOfRange "id" none)
  | some product =>
      let newQuantity := product.quantity - quantity
      if newQuantity < 0 then .error (.argument "quantity") else .ok newQuantity

def updateProducts (items : List Product) (id : Guid) (quantity : Int32) :
    Except Exn (List Product) := do
  let newQuantity ← checkUpdate items id quantity
  return storeQuantity id newQuantity items

def getProducts (items : List Product) : List Product := items

def quantityOf (items : List Product) (id : Guid) : Option Int32 :=
  (firstOrDefault id items).map Product.quantity

theorem firstOrDefaultKeyed (id : Guid) (items : List Product) :
    firstOrDefault id items = firstWith Product.id id items := rfl

theorem storeKeyed (id : Guid) (n : Int32) (items : List Product) :
    storeQuantity id n items = writeFirst Product.id id (fun p => { p with quantity := n }) items := by
  induction items with
  | nil => rfl
  | cons p ps ih => simp only [storeQuantity, writeFirst, ih]

theorem firstOrDefaultSome {id items p} (h : firstOrDefault id items = some p) :
    p ∈ items ∧ p.id = id :=
  firstWithSome Product.id h

theorem firstOrDefaultNone {id items} :
    firstOrDefault id items = none ↔ ∀ p ∈ items, p.id ≠ id := by
  rw [firstOrDefaultKeyed, firstWithNone]
  simp

theorem firstOrDefaultMember {items : List Product} (ids : (items.map Product.id).Nodup)
    {p} (mem : p ∈ items) : firstOrDefault p.id items = some p :=
  firstWithMember Product.id ids mem

theorem storeCatalogue (id : Guid) (n : Int32) (items : List Product) :
    (storeQuantity id n items).map Product.catalogue = items.map Product.catalogue := by
  have kept (p : Product) : ({ p with quantity := n } : Product).catalogue = p.catalogue := rfl
  rw [storeKeyed]
  exact writeFirstKeeps Product.id id Product.catalogue kept items

theorem storeIds (id : Guid) (n : Int32) (items : List Product) :
    (storeQuantity id n items).map Product.id = items.map Product.id := by
  have kept (p : Product) : ({ p with quantity := n } : Product).id = p.id := rfl
  rw [storeKeyed]
  exact writeFirstKeeps Product.id id Product.id kept items

theorem storeMember {id n items p} (mem : p ∈ storeQuantity id n items) :
    p ∈ items ∨ ∃ old ∈ items, old.id = id ∧ p = { old with quantity := n } := by
  rw [storeKeyed] at mem
  exact writeFirstMember Product.id mem

theorem firstAfterStore (id j : Guid) (n : Int32) (items : List Product) :
    firstOrDefault j (storeQuantity id n items) =
      if j = id then (firstOrDefault id items).map (fun p => { p with quantity := n })
      else firstOrDefault j items := by
  have kept (p : Product) : ({ p with quantity := n } : Product).id = p.id := rfl
  rw [storeKeyed]
  exact firstAfterWrite Product.id kept j items

theorem storeAsMap {items : List Product} (ids : (items.map Product.id).Nodup)
    (id : Guid) (n : Int32) :
    storeQuantity id n items =
      items.map (fun p => if p.id = id then { p with quantity := n } else p) := by
  rw [storeKeyed]
  exact writeFirstMap Product.id ids id (fun p => { p with quantity := n })

theorem checkNonneg {items id q n} (ok : checkUpdate items id q = .ok n) : 0 ≤ n.toInt := by
  unfold checkUpdate at ok
  split at ok
  · cases ok
  · simp only at ok
    split at ok
    · cases ok
    · rename_i positive
      cases ok
      exact (nonnegIff _).mpr positive

/- The states the repository can be in: the invariant that every request relies
on, and a bound on prices under which decimal products with an int are exact. -/
structure Stock where
  items : List Product
  ids : (items.map Product.id).Nodup
  nonneg : ∀ p ∈ items, 0 ≤ p.quantity.toInt
  prices : ∀ p ∈ items, 0 < p.price.mantissa ∧ p.price.mantissa.natAbs < 2 ^ 65

def Stock.initial : Stock where
  items := StockService.items
  ids := by decide
  nonneg := by decide
  prices := by decide

theorem checkUpdateNone {items id q} (h : firstOrDefault id items = none) :
    checkUpdate items id q = .error (.argumentOutOfRange "id" none) := by
  simp [checkUpdate, h]

theorem checkUpdateSome {items id q p} (h : firstOrDefault id items = some p)
    (nonneg : 0 ≤ p.quantity.toInt) :
    checkUpdate items id q =
      if 0 ≤ p.quantity.toInt - q.toInt ∧ p.quantity.toInt - q.toInt ≤ 2147483647
      then .ok (p.quantity - q) else .error (.argument "quantity") := by
  have exact_ : ¬ p.quantity - q < 0 ↔ _ := subSignExact nonneg
  simp only [checkUpdate, h]
  split
  · rename_i negative
    rw [if_neg]
    exact fun inRange => (exact_.mpr inRange) negative
  · rename_i positive
    rw [if_pos (exact_.mp positive)]

theorem checkUpdateOk {items id q n} (nonneg : ∀ p ∈ items, 0 ≤ p.quantity.toInt)
    (ok : checkUpdate items id q = .ok n) :
    ∃ p, firstOrDefault id items = some p ∧ n = p.quantity - q ∧
      n.toInt = p.quantity.toInt - q.toInt ∧ 0 ≤ n.toInt := by
  cases found : firstOrDefault id items with
  | none => rw [checkUpdateNone found] at ok; cases ok
  | some p =>
    rw [checkUpdateSome found (nonneg p (firstOrDefaultSome found).1)] at ok
    split at ok
    · rename_i inRange
      cases ok
      have whole : (p.quantity - q).toInt = p.quantity.toInt - q.toInt :=
        subExact (by omega) inRange.2
      exact ⟨p,rfl,rfl,whole,by omega⟩
    · cases ok

namespace Stock

def store (s : Stock) (id : Guid) (n : Int32) (n_nonneg : 0 ≤ n.toInt) : Stock where
  items := storeQuantity id n s.items
  ids := by rw [storeIds]; exact s.ids
  nonneg := by
    intro p mem
    rcases storeMember mem with old | ⟨old,oldMem,_,same⟩
    · exact s.nonneg p old
    · subst same; exact n_nonneg
  prices := by
    intro p mem
    rcases storeMember mem with old | ⟨old,oldMem,_,same⟩
    · exact s.prices p old
    · subst same; exact s.prices old oldMem

/- What the stock means: a level for each stocked id, up to the largest int. -/
def ledger (s : Stock) : Ledger Guid 2147483647 where
  level id := (quantityOf s.items id).map Int32.toInt
  inRange := by
    intro id v level
    simp only [quantityOf, Option.map_map, Option.map_eq_some_iff] at level
    obtain ⟨p,found,same⟩ := level
    subst same
    exact ⟨s.nonneg p (firstOrDefaultSome found).1,(toIntBounds p.quantity).2⟩

theorem levelSome {s : Stock} {id p} (found : firstOrDefault id s.items = some p) :
    s.ledger.level id = some p.quantity.toInt := by
  simp [ledger, quantityOf, found]

theorem levelNone {s : Stock} {id} (absent : firstOrDefault id s.items = none) :
    s.ledger.level id = none := by
  simp [ledger, quantityOf, absent]

theorem levelStore (s : Stock) (id : Guid) (n : Int32) (h : 0 ≤ n.toInt) (j : Guid) :
    (s.store id n h).ledger.level j =
      if j = id then (s.ledger.level id).map (fun _ => n.toInt) else s.ledger.level j := by
  simp only [ledger, store, quantityOf, firstAfterStore]
  split
  · simp [Option.map_map, Function.comp_def]
  · rfl

/- The repository refines the account: a call is accepted exactly when the
withdrawal is granted, and then the stored levels are the account's. -/
theorem checkRefines (s : Stock) (id : Guid) (q : Int32) :
    checkUpdate s.items id q = match s.ledger.verdict id q.toInt with
      | .granted => .ok ((quantityOf s.items id).getD 0 - q)
      | .refused => .error (.argument "quantity")
      | .unknown => .error (.argumentOutOfRange "id" none) := by
  cases found : firstOrDefault id s.items with
  | none => simp [checkUpdateNone found, Ledger.verdict, levelNone found]
  | some p =>
    rw [checkUpdateSome found (s.nonneg p (firstOrDefaultSome found).1)]
    simp only [Ledger.verdict, levelSome found, quantityOf, found, Option.map_some,
      Option.getD_some]
    split <;> rfl

theorem storeRefines (s : Stock) {id q n} (ok : checkUpdate s.items id q = .ok n) :
    ∃ h : 0 ≤ n.toInt, (s.store id n h).ledger = s.ledger.withdraw id q.toInt := by
  obtain ⟨p,found,_,whole,n_nonneg⟩ := checkUpdateOk s.nonneg ok
  refine ⟨n_nonneg,?_⟩
  have bounds := toIntBounds n
  have granted : s.ledger.verdict id q.toInt = .granted :=
    Ledger.verdictGranted.mpr ⟨p.quantity.toInt,levelSome found,by omega,by omega⟩
  ext1 j
  rw [levelStore]
  split
  · rename_i same
    subst same
    rw [Ledger.levelGranted granted (levelSome found), levelSome found, Option.map_some, whole]
  · rename_i other
    rw [Ledger.levelOther other]

/- The stock a well-formed stock has become: other quantities, same catalogue. -/
def Became (s : Stock) (items : List Product) : Prop :=
  ∃ s' : Stock, s'.items = items ∧ items.map Product.catalogue = s.items.map Product.catalogue

theorem becameSelf (s : Stock) : s.Became s.items := ⟨s,rfl,rfl⟩

theorem becameStore {s : Stock} {items id n} (became : s.Became items) (h : 0 ≤ n.toInt) :
    s.Became (storeQuantity id n items) := by
  obtain ⟨s',same,catalogue⟩ := became
  subst same
  exact ⟨s'.store id n h,rfl,(storeCatalogue id n s'.items).trans catalogue⟩

theorem becameFound {s : Stock} {items id p} (became : s.Became items)
    (found : firstOrDefault id s.items = some p) :
    ∃ p', firstOrDefault id items = some p' ∧ p'.catalogue = p.catalogue := by
  obtain ⟨s',same,catalogue⟩ := became
  subst same
  have ⟨mem,hit⟩ := firstOrDefaultSome found
  have listed : p.catalogue ∈ s'.items.map Product.catalogue := by
    rw [catalogue]; exact List.mem_map.mpr ⟨p,mem,rfl⟩
  obtain ⟨p',mem',same'⟩ := List.mem_map.mp listed
  have id' : p'.id = id := (congrArg Prod.fst same').trans hit
  refine ⟨p',?_,same'⟩
  rw [← id']
  exact firstOrDefaultMember s'.ids mem'

theorem becameBack {s : Stock} {items id p} (became : s.Became items)
    (found : firstOrDefault id items = some p) :
    ∃ p', firstOrDefault id s.items = some p' ∧ p.catalogue = p'.catalogue := by
  obtain ⟨s',same,catalogue⟩ := became
  subst same
  exact becameFound ⟨s,rfl,catalogue.symm⟩ found |>.imp fun p' h => ⟨h.1,h.2.symm⟩

end Stock

def worth (items : List Product) : ℚ :=
  (items.map (fun p => p.price.value * (p.quantity.toInt : ℚ))).sum

theorem worthStored {items : List Product} {id p} (found : firstOrDefault id items = some p)
    (n : Int32) : worth (storeQuantity id n items) + p.price.value * (p.quantity.toInt : ℚ) =
      worth items + p.price.value * (n.toInt : ℚ) := by
  unfold worth
  rw [storeKeyed]
  exact writeFirstSum Product.id (fun p => p.price.value * (p.quantity.toInt : ℚ)) found

theorem worthWithdrawn {items : List Product} {id p q} (found : firstOrDefault id items = some p)
    (whole : (p.quantity - q).toInt = p.quantity.toInt - q.toInt) :
    worth (storeQuantity id (p.quantity - q) items) + p.price.value * (q.toInt : ℚ) =
      worth items := by
  have stored := worthStored found (p.quantity - q)
  rw [whole] at stored
  push_cast at stored
  linarith

end MonitoringForDevOps.StockService
