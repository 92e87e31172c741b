import MonitoringForDevOps.Library.Runs
import MonitoringForDevOps.StockService.ProductRepository

/-! The stock service's endpoints. An exception the handler does not catch is
answered by the host with status 500. -/
namespace MonitoringForDevOps.StockService
open Library Common WrappingInt Runs

def mapGetProducts (items : List Product) : List Product := getProducts items

/- The catch clauses are tried in order, the derived exception type first. -/
def catchUpdate (e : Exn) : HttpResult :=
  if e.isArgumentOutOfRange then .notFound
  else if e.isArgument then .badRequest none
  else .internalServerError

def mapPutProducts (items : List Product) (productId : Guid) (quantity : Int32) :
    List Product × HttpResult :=
  match updateProducts items productId quantity with
  | .ok updated => (updated,.accepted)
  | .error e => (items,catchUpdate e)

def itemsAfter (requests : List (Guid × Int32)) : List Product :=
  after (fun items request => (mapPutProducts items request.1 request.2).1) items requests

theorem putStored {items id q n} (ok : checkUpdate items id q = .ok n) :
    mapPutProducts items id q = (storeQuantity id n items,.accepted) := by
  simp [mapPutProducts, updateProducts, ok, bind, Except.bind, pure, Except.pure]

theorem putThrown {items id q e} (error : checkUpdate items id q = .error e) :
    mapPutProducts items id q = (items,catchUpdate e) := by
  simp only [mapPutProducts, updateProducts, error, bind, Except.bind]

theorem putItems (items : List Product) (id : Guid) (q : Int32) :
    (mapPutProducts items id q).1 = items ∨
      ∃ n, checkUpdate items id q = .ok n ∧
        (mapPutProducts items id q).1 = storeQuantity id n items := by
  cases check : checkUpdate items id q with
  | error e => rw [putThrown check]; exact .inl rfl
  | ok n => rw [putStored check]; exact .inr ⟨n,rfl,rfl⟩

def verdictAnswer : Verdict → HttpResult
  | .granted => .accepted
  | .refused => .badRequest none
  | .unknown => .notFound

namespace Stock

theorem putCarried (s : Stock) (id : Guid) (q : Int32) :
    ∃ s' : Stock, s'.items = (mapPutProducts s.items id q).1 := by
  rcases putItems s.items id q with same | ⟨n,ok,stored⟩
  · exact ⟨s,same.symm⟩
  · exact ⟨s.store id n (checkNonneg ok),stored.symm⟩

/- The PUT handler on states that carry their invariant. -/
def put (s : Stock) (id : Guid) (q : Int32) : Stock × HttpResult :=
  let result := mapPutProducts s.items id q
  (⟨result.1,
    by obtain ⟨s',same⟩ := putCarried s id q; rw [← same]; exact s'.ids,
    by obtain ⟨s',same⟩ := putCarried s id q; rw [← same]; exact s'.nonneg,
    by obtain ⟨s',same⟩ := putCarried s id q; rw [← same]; exact s'.prices⟩,result.2)

theorem eqOfItems {s s' : Stock} (same : s.items = s'.items) : s = s' := by
  cases s; cases s'; cases same; rfl

theorem putOfOk {s : Stock} {id q n} (ok : checkUpdate s.items id q = .ok n) :
    s.put id q = (s.store id n (checkNonneg ok),.accepted) := by
  have raw := putStored ok
  refine Prod.ext (eqOfItems (congrArg Prod.fst raw)) ?_
  change (mapPutProducts s.items id q).2 = _
  rw [raw]

theorem putOfError {s : Stock} {id q e} (error : checkUpdate s.items id q = .error e) :
    (s.put id q).1 = s :=
  eqOfItems (congrArg Prod.fst (putThrown error))

/- A call that throws is answered by its exception and withdraws nothing. -/
theorem putDenied {s : Stock} {id q e} (error : checkUpdate s.items id q = .error e)
    (denied : s.ledger.verdict id q.toInt ≠ .granted) :
    (s.put id q).2 = catchUpdate e ∧ (s.put id q).1.ledger = s.ledger.withdraw id q.toInt := by
  rw [putOfError error, Ledger.withdrawDenied denied]
  exact ⟨congrArg Prod.snd (putThrown error),rfl⟩

/- The handler refines the account: the answer is the account's verdict and the
stock it leaves is the account after the withdrawal. -/
theorem putRefines (s : Stock) (id : Guid) (q : Int32) :
    (s.put id q).2 = verdictAnswer (s.ledger.verdict id q.toInt) ∧
      (s.put id q).1.ledger = s.ledger.withdraw id q.toInt := by
  have check := checkRefines s id q
  cases verdict : s.ledger.verdict id q.toInt with
  | granted =>
    rw [verdict] at check
    obtain ⟨_,same⟩ := storeRefines s check
    rw [putOfOk check]
    exact ⟨rfl,same⟩
  | refused =>
    rw [verdict] at check
    exact putDenied check (by rw [verdict]; decide)
  | unknown =>
    rw [verdict] at check
    exact putDenied check (by rw [verdict]; decide)

def putAll (requests : List (Guid × Int32)) : Stock :=
  after (fun s request => (s.put request.1 request.2).1) initial requests

theorem putAllItems (requests : List (Guid × Int32)) :
    (putAll requests).items = itemsAfter requests := by
  induction requests using List.reverseRecOn with
  | nil => rfl
  | append_singleton requests request ih =>
    simp only [putAll, itemsAfter, afterSnoc] at ih ⊢
    rw [← ih]
    rfl

theorem verdictStocked (s : Stock) (id : Guid) (q : ℤ) :
    s.ledger.verdict id q = .granted ↔
      ∃ p ∈ s.items, p.id = id ∧ 0 ≤ p.quantity.toInt - q ∧ p.quantity.toInt - q ≤ 2147483647 := by
  rw [Ledger.verdictGranted]
  constructor
  · rintro ⟨v,level,inRange⟩
    cases found : firstOrDefault id s.items with
    | none => rw [levelNone found] at level; cases level
    | some p =>
      rw [levelSome found] at level
      cases level
      exact ⟨p,(firstOrDefaultSome found).1,(firstOrDefaultSome found).2,inRange⟩
  · rintro ⟨p,mem,same,inRange⟩
    subst same
    exact ⟨_,levelSome (firstOrDefaultMember s.ids mem),inRange⟩

theorem verdictUnstocked (s : Stock) (id : Guid) (q : ℤ) :
    s.ledger.verdict id q = .unknown ↔ ∀ p ∈ s.items, p.id ≠ id := by
  rw [Ledger.verdictUnknown]
  constructor
  · intro level
    cases found : firstOrDefault id s.items with
    | none => exact firstOrDefaultNone.mp found
    | some p => rw [levelSome found] at level; cases level
  · intro absent
    exact levelNone (firstOrDefaultNone.mpr absent)

end Stock

theorem stockUpdateExact (requests : List (Guid × Int32)) (id : Guid) (q : Int32) :
    let items := itemsAfter requests
    let result := mapPutProducts items id q
    (∀ p ∈ items, 0 ≤ p.quantity.toInt) ∧ (items.map Product.id).Nodup ∧
    (result.2 = .accepted ↔ ∃ p ∈ items, p.id = id ∧
      0 ≤ p.quantity.toInt - q.toInt ∧ p.quantity.toInt - q.toInt ≤ 2 ^ 31 - 1) ∧
    (result.2 = .accepted →
      result.1 = items.map (fun p =>
        if p.id = id then { p with quantity := p.quantity - q } else p) ∧
      ∀ p ∈ items, p.id = id → (p.quantity - q).toInt = p.quantity.toInt - q.toInt) ∧
    (result.2 ≠ .accepted → result.1 = items ∧
      ((∀ p ∈ items, p.id ≠ id) → result.2 = .notFound) ∧
      ((∃ p ∈ items, p.id = id) → result.2 = .badRequest none)) := by
  simp only [← Stock.putAllItems]
  generalize Stock.putAll requests = s
  have answer : (mapPutProducts s.items id q).2 =
      verdictAnswer (s.ledger.verdict id q.toInt) := (Stock.putRefines s id q).1
  have granted := Stock.verdictStocked s id q.toInt
  have unknown := Stock.verdictUnstocked s id q.toInt
  have acceptedIff : (mapPutProducts s.items id q).2 = .accepted ↔
      s.ledger.verdict id q.toInt = .granted := by
    rw [answer]; cases s.ledger.verdict id q.toInt <;> simp [verdictAnswer]
  refine ⟨s.nonneg,s.ids,acceptedIff.trans granted,?_,?_⟩
  · intro accepted
    have verdict := acceptedIff.mp accepted
    have check := Stock.checkRefines s id q
    rw [verdict] at check
    obtain ⟨p,found,same,whole,_⟩ := checkUpdateOk s.nonneg check
    have only (x : Product) (mem : x ∈ s.items) (hit : x.id = id) : x = p := by
      subst hit
      exact Option.some.inj ((firstOrDefaultMember s.ids mem).symm.trans found)
    rw [same] at check whole
    refine ⟨?_,?_⟩
    · rw [putStored check, storeAsMap s.ids]
      apply List.map_congr_left
      intro x mem
      split
      · rename_i hit
        rw [only x mem hit]
      · rfl
    · intro x mem hit
      rw [only x mem hit]
      exact whole
  · intro denied
    have verdict : s.ledger.verdict id q.toInt ≠ .granted := fun h => denied (acceptedIff.mpr h)
    refine ⟨?_,?_,?_⟩
    · have check := Stock.checkRefines s id q
      split at check
      · contradiction
      · rw [putThrown check]
      · rw [putThrown check]
    · intro absent
      rw [answer, unknown.mpr absent]
      rfl
    · rintro ⟨p,mem,hit⟩
      cases refused : s.ledger.verdict id q.toInt with
      | granted => contradiction
      | refused => rw [answer, refused]; rfl
      | unknown => exact absurd hit (unknown.mp refused p mem)

end MonitoringForDevOps.StockService
