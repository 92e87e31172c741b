import MonitoringForDevOps.Library.ReadModifyWrite
import MonitoringForDevOps.UI.OrderInterleaving

/-! What the race between product PUTs can cost: in every interleaving the stock
counts the last accepted PUT of a product and, of the earlier ones, those that the
quantity it read had counted. -/
namespace MonitoringForDevOps.UI.OrderSurvivors
open Library Common WrappingInt Runs Interleaving ReadModifyWrite StockService PaymentService
  UpdateRace OrderInterleaving

/- What the accepted PUTs of a product asked to withdraw, in the order of the log. -/
def withdrawals (id : Guid) (log : List Entry) : List ℤ :=
  log.filterMap (fun
    | .reserved _ j q _ => if j = id then some q.toInt else none
    | .received _ _ _ => none)

def callOf : Client → Option UpdateCall
  | .order _ (.reserving _ call) => some call
  | .direct call => some call
  | _ => none

theorem withdrawalsAppend (id : Guid) (log more : List Entry) :
    withdrawals id (log ++ more) = withdrawals id log ++ withdrawals id more :=
  List.filterMap_append

theorem withdrawalsAccepted (i : ℕ) (id j : Guid) (q : Int32) (items : List Product) :
    withdrawals j (acceptedEntry i items (.accepted id q)) = if id = j then [q.toInt] else [] := by
  by_cases same : id = j
  · simp [withdrawals, acceptedEntry, same]
  · simp [withdrawals, acceptedEntry, same]

/- What a step does to the stock and the log: one step of the client's own PUT,
a payment request that leaves the stock alone, or nothing. -/
theorem stepActs {i s client s' client'} (step : ClientStep UpdateStep i s client s' client') :
    (∃ call call', callOf client = some call ∧ callOf client' = some call' ∧
      UpdateStep i s.items call s'.items call' ∧
      s'.log = s.log ++ acceptedEntry i s'.items call') ∨
    (s'.items = s.items ∧ (s'.log = s.log ∨ ∃ payment, s'.log = s.log ++ [.received i payment s.items]) ∧
      ∀ call', callOf client' = some call' → ∃ id q, call' = .waiting id q) := by
  cases step with
  | reserve act => exact .inl ⟨_,_,rfl,rfl,act,rfl⟩
  | direct act => exact .inl ⟨_,_,rfl,rfl,act,rfl⟩
  | lookup ok => exact .inr ⟨rfl,.inl rfl,fun call' is => ⟨_,_,(Option.some.inj is).symm⟩⟩
  | charge providers => exact .inr ⟨rfl,.inr ⟨_,rfl⟩,fun call' is => by cases is⟩
  | _ => exact .inr ⟨rfl,.inl rfl,fun call' is => by cases is⟩

/- The stock of every product counts its last accepted PUT. -/
def LevelsCounted (stock : Stock) (s : Services) : Prop :=
  ∀ id p, firstOrDefault id stock.items = some p →
    Latest p.quantity.toInt (withdrawals id s.log) (levelOf id s.items)

/- So did the stock that each accepted PUT left behind. -/
def EntriesCounted (stock : Stock) (log : List Entry) : Prop :=
  ∀ (k : ℕ) client id q items, log[k]? = some (.reserved client id q items) →
    ∀ p, firstOrDefault id stock.items = some p →
      Latest p.quantity.toInt (withdrawals id (log.take (k + 1))) (levelOf id items)

def ReadCounted (stock : Stock) (log : List Entry) : UpdateCall → Prop
  | .checked id _ seen _ => ∀ p, firstOrDefault id stock.items = some p →
      Explained p.quantity.toInt (withdrawals id log) seen.toInt
  | _ => True

structure Counted (stock : Stock) (s : Services) : Prop where
  became : stock.Became s.items
  levels : LevelsCounted stock s
  entries : EntriesCounted stock s.log

def CallCounted (stock : Stock) (log : List Entry) (client : Client) : Prop :=
  ∀ call, callOf client = some call → Prepared stock call ∧ ReadCounted stock log call

theorem readLater {stock : Stock} {log call} (read : ReadCounted stock log call)
    (more : List Entry) : ReadCounted stock (log ++ more) call := by
  cases call with
  | checked id q seen n =>
    intro p found
    rw [withdrawalsAppend]
    exact explainedLater (read p found) _
  | _ => exact trivial

theorem entriesKept {stock : Stock} {log} (kept : EntriesCounted stock log) {more : List Entry}
    (new : ∀ (k : ℕ) client id q items, more[k]? = some (.reserved client id q items) →
      ∀ p, firstOrDefault id stock.items = some p →
        Latest p.quantity.toInt (withdrawals id (log ++ more.take (k + 1))) (levelOf id items)) :
    EntriesCounted stock (log ++ more) := by
  intro k client id q items at_ p found
  by_cases old : k < log.length
  · rw [List.getElem?_append_left old] at at_
    rw [List.take_append_of_le_length (by omega)]
    exact kept k client id q items at_ p found
  · rw [List.getElem?_append_right (by omega)] at at_
    have later := new (k - log.length) client id q items at_ p found
    have whole : (log ++ more).take (k + 1) = log ++ more.take (k - log.length + 1) := by
      rw [List.take_append, List.take_of_length_le (by omega)]
      congr 2
      omega
    rw [whole]
    exact later

theorem storeCounted {stock : Stock} {s : Services} (counted : Counted stock s) {i id q seen n}
    (prepared : Prepared stock (.checked id q seen n))
    (read : ReadCounted stock s.log (.checked id q seen n)) :
    LevelsCounted stock ⟨storeQuantity id n s.items,
      s.log ++ [.reserved i id q (storeQuantity id n s.items)]⟩ := by
  obtain ⟨_,whole,original,first⟩ := prepared
  obtain ⟨p',found',_⟩ := Stock.becameFound counted.became first
  intro j p found
  have entry := withdrawalsAccepted i id j q (storeQuantity id n s.items)
  simp only [acceptedEntry] at entry
  simp only [withdrawalsAppend, entry, levelOfStore found']
  by_cases same : j = id
  · subst same
    rw [if_pos rfl, if_pos rfl, whole]
    exact latestWrite (read p found) q.toInt
  · rw [if_neg same, if_neg fun h => same h.symm, List.append_nil]
    exact counted.levels j p found

theorem callStepCounted {stock : Stock} {s : Services} {i call items' call'}
    (counted : Counted stock s) (prepared : Prepared stock call)
    (read : ReadCounted stock s.log call) (act : UpdateStep i s.items call items' call') :
    Counted stock ⟨items',s.log ++ acceptedEntry i items' call'⟩ ∧
      ReadCounted stock (s.log ++ acceptedEntry i items' call') call' := by
  have kept := updateKeeps counted.became prepared act
  cases act with
  | @check id q seen n current ok =>
    simp only [acceptedEntry, List.append_nil]
    refine ⟨counted,?_⟩
    intro p found
    rw [← levelOfSome current]
    exact latestExplained (counted.levels id p found)
  | throws error =>
    simp only [acceptedEntry, List.append_nil]
    exact ⟨counted,trivial⟩
  | @store id q seen n =>
    have levels := storeCounted (i := i) counted prepared read
    refine ⟨⟨kept.1,levels,entriesKept counted.entries ?_⟩,trivial⟩
    intro k client j q' items at_ p found
    cases k with
    | zero =>
      simp only [acceptedEntry, List.getElem?_cons_zero, Option.some.injEq, Entry.reserved.injEq] at at_
      obtain ⟨_,sameId,_,sameItems⟩ := at_
      subst sameId sameItems
      exact levels id p found
    | succ k => simp [acceptedEntry] at at_

theorem paidCounted {stock : Stock} {s s' : Services} {i} (counted : Counted stock s)
    (same : s'.items = s.items)
    (log : s'.log = s.log ∨ ∃ payment, s'.log = s.log ++ [.received i payment s.items]) :
    Counted stock s' := by
  have silent (id : Guid) : withdrawals id s'.log = withdrawals id s.log := by
    rcases log with quiet | ⟨payment,paid⟩
    · rw [quiet]
    · rw [paid, withdrawalsAppend]
      exact List.append_nil _
  refine ⟨by rw [same]; exact counted.became,?_,?_⟩
  · intro id p found
    rw [silent, same]
    exact counted.levels id p found
  · rcases log with quiet | ⟨payment,paid⟩
    · rw [quiet]
      exact counted.entries
    · rw [paid]
      refine entriesKept counted.entries ?_
      intro k client id q items at_
      cases k with
      | zero => cases at_
      | succ k => simp at at_

theorem stepCounted {stock : Stock} {i s client s' client'} (counted : Counted stock s)
    (own : CallCounted stock s.log client) (step : ClientStep UpdateStep i s client s' client') :
    Counted stock s' ∧ CallCounted stock s'.log client' := by
  rcases stepActs step with ⟨call,call',before,after_,act,log⟩ | ⟨same,log,fresh⟩
  · obtain ⟨prepared,read⟩ := own call before
    have later := callStepCounted counted prepared read act
    rw [← log] at later
    refine ⟨later.1,?_⟩
    intro other is
    cases Option.some.inj (after_.symm.trans is)
    exact ⟨(updateKeeps counted.became prepared act).2,later.2⟩
  · refine ⟨paidCounted counted same log,?_⟩
    intro call' is
    obtain ⟨id,q,waits⟩ := fresh call' is
    subst waits
    exact ⟨trivial,trivial⟩

theorem stepLog {i s client s' client'} (step : ClientStep UpdateStep i s client s' client') :
    ∃ more, s'.log = s.log ++ more := by
  rcases stepActs step with ⟨call,call',_,_,_,log⟩ | ⟨_,quiet | ⟨payment,paid⟩,_⟩
  · exact ⟨_,log⟩
  · exact ⟨[],by rw [quiet, List.append_nil]⟩
  · exact ⟨_,paid⟩

theorem reachedCounted {stock : Stock} {clients : List Client}
    (fresh : ∀ client ∈ clients, client.fresh) {schedule c}
    (run : Run (Step (ClientStep UpdateStep)) (opening stock clients) schedule c) :
    Counted stock c.shared := by
  refine (everyAssertion (Counted stock) (fun _ s client => CallCounted stock s.log client)
    ?_ ?_ ?_ ?_ run).1
  · refine ⟨stock.becameSelf,?_,fun k client id q items at_ => by cases at_⟩
    intro id p found
    have level : levelOf id stock.items = p.quantity.toInt := by
      simp only [levelOf, quantityOf, found, Option.map_some, Option.getD_some]
    simp only [opening, level]
    exact latestOpening p.quantity.toInt
  · intro i client found call is
    have start := fresh client (List.mem_of_getElem? found)
    cases client with
    | order order phase => cases start; cases is
    | direct waiting =>
      obtain ⟨id,q,same⟩ := start
      cases is
      subst same
      exact ⟨trivial,trivial⟩
  · intro i s client s' client' counted own step
    exact stepCounted counted own step
  · intro i j s client s' client' other _ counted _ kept step call is
    obtain ⟨more,log⟩ := stepLog step
    rw [log]
    exact ⟨(kept call is).1,readLater (kept call is).2 more⟩

theorem lastWithdrawalSurvives (stock : Stock) (clients : List Client)
    (fresh : ∀ client ∈ clients, client.fresh) (schedule : List ℕ) (c : Config Services Client)
    (run : Run (Step (ClientStep UpdateStep)) (opening stock clients) schedule c) (id : Guid)
    (p : Product) (stocked : firstOrDefault id stock.items = some p) :
    (∃ now, quantityOf c.shared.items id = some now ∧
      Latest p.quantity.toInt (withdrawals id c.shared.log) now.toInt ∧
      ((∀ amount ∈ withdrawals id c.shared.log, 0 ≤ amount) →
        p.quantity.toInt - (withdrawals id c.shared.log).sum ≤ now.toInt ∧
        now.toInt ≤ p.quantity.toInt)) ∧
    ∀ (k : ℕ) client q items, c.shared.log[k]? = some (.reserved client id q items) →
      Latest p.quantity.toInt (withdrawals id (c.shared.log.take (k + 1))) (levelOf id items) := by
  have counted := reachedCounted fresh run
  refine ⟨?_,fun k client q items at_ => counted.entries k client id q items at_ p stocked⟩
  obtain ⟨p',found,_⟩ := Stock.becameFound counted.became stocked
  have now : quantityOf c.shared.items id = some p'.quantity := by
    simp only [quantityOf, found, Option.map_some]
  have latest := counted.levels id p stocked
  rw [levelOfSome now] at latest
  exact ⟨p'.quantity,now,latest,explainedBounds (latestExplained latest)⟩

section Overlapping

def firstStored : List Product := storeQuantity lenovo 36 items

def secondStored : List Product := storeQuantity lenovo 34 firstStored

def overlappingEnd : Config Services Client :=
  ⟨⟨secondStored,[.reserved 0 lenovo 5 firstStored,.reserved 1 lenovo 7 secondStored]⟩,
    [.direct (.accepted lenovo 5),.direct (.accepted lenovo 7)]⟩

/- Both PUTs read 41, so the second store forgets the first. -/
theorem overlappingReached :
    Run (Step (ClientStep UpdateStep))
      (opening Stock.initial [.direct (.waiting lenovo 5),.direct (.waiting lenovo 7)]) [0,1,0,1]
      overlappingEnd := by
  have checkFirst : Step (ClientStep UpdateStep)
      (opening Stock.initial [.direct (.waiting lenovo 5),.direct (.waiting lenovo 7)]) 0
      ⟨⟨items,[]⟩,[.direct (.checked lenovo 5 41 36),.direct (.waiting lenovo 7)]⟩ :=
    .move rfl (.direct (UpdateStep.check rfl rfl))
  have checkSecond : Step (ClientStep UpdateStep)
      ⟨⟨items,[]⟩,[.direct (.checked lenovo 5 41 36),.direct (.waiting lenovo 7)]⟩ 1
      ⟨⟨items,[]⟩,[.direct (.checked lenovo 5 41 36),.direct (.checked lenovo 7 41 34)]⟩ :=
    .move rfl (.direct (UpdateStep.check rfl rfl))
  have storeFirst : Step (ClientStep UpdateStep)
      ⟨⟨items,[]⟩,[.direct (.checked lenovo 5 41 36),.direct (.checked lenovo 7 41 34)]⟩ 0
      ⟨⟨firstStored,[.reserved 0 lenovo 5 firstStored]⟩,
        [.direct (.accepted lenovo 5),.direct (.checked lenovo 7 41 34)]⟩ :=
    .move rfl (.direct UpdateStep.store)
  have storeSecond : Step (ClientStep UpdateStep)
      ⟨⟨firstStored,[.reserved 0 lenovo 5 firstStored]⟩,
        [.direct (.accepted lenovo 5),.direct (.checked lenovo 7 41 34)]⟩ 1 overlappingEnd :=
    .move rfl (.direct UpdateStep.store)
  exact .snoc (.snoc (.snoc (runSingle checkFirst) checkSecond) storeFirst) storeSecond

theorem lastWithdrawalSurvivesOverlapping :
    ∃ now, quantityOf secondStored lenovo = some now ∧ Latest 41 [5,7] now.toInt ∧
      41 - 12 ≤ now.toInt ∧ now.toInt ≤ 41 := by
  obtain ⟨⟨now,current,latest,bounds⟩,_⟩ := lastWithdrawalSurvives Stock.initial
    [.direct (.waiting lenovo 5),.direct (.waiting lenovo 7)] (by simp [Client.fresh]) _ _
    overlappingReached lenovo _ rfl
  have both : withdrawals lenovo overlappingEnd.shared.log = [5,7] := rfl
  rw [both] at latest bounds
  exact ⟨now,current,latest,bounds (by decide)⟩

end Overlapping
end MonitoringForDevOps.UI.OrderSurvivors
