import MonitoringForDevOps.Library.Progress
import MonitoringForDevOps.UI.OrderInterleaving

/-! Order runs and product PUTs never wait for each other: no request blocks on
another one, and each client is through after a fixed number of its own steps. -/
namespace MonitoringForDevOps.UI.OrderProgress
open Library Common WrappingInt Runs Interleaving Progress StockService PaymentService UpdateRace
  OrderInterleaving

def callTurns : UpdateCall → ℕ
  | .waiting _ _ => 2
  | .checked _ _ _ _ => 1
  | .accepted _ _ => 0
  | .threw _ _ _ => 0

def phaseTurns : Phase → ℕ
  | .started => 7
  | .listed _ => 6
  | .reserving _ call => callTurns call + 3
  | .charging _ => 2
  | .charged _ => 1
  | .returned => 0
  | .threw _ _ => 0

def clientTurns : Client → ℕ
  | .order _ phase => phaseTurns phase
  | .direct call => callTurns call

def callDone : UpdateCall → Bool
  | .accepted _ _ => true
  | .threw _ _ _ => true
  | _ => false

def phaseDone : Phase → Bool
  | .returned => true
  | .threw _ _ => true
  | _ => false

def clientDone : Client → Bool
  | .order _ phase => phaseDone phase
  | .direct call => callDone call

theorem callFalls {i items call items' call'} (step : UpdateStep i items call items' call') :
    callTurns call' < callTurns call := by
  cases step <;> simp [callTurns]

theorem clientFalls : Falls (ClientStep UpdateStep) clientTurns := by
  intro i s client s' client' step
  cases step with
  | reserve act => exact Nat.add_lt_add_right (callFalls act) 3
  | direct act => exact callFalls act
  | pay answered ok made => simp only [clientTurns, phaseTurns]; omega
  | overflows answered ok error => simp only [clientTurns, phaseTurns]; omega
  | stockThrows answered error => simp only [clientTurns, phaseTurns]; omega
  | _ => simp [clientTurns, phaseTurns, callTurns]

theorem checkOkRead {items id q n} (ok : checkUpdate items id q = .ok n) :
    ∃ seen, quantityOf items id = some seen := by
  cases found : firstOrDefault id items with
  | none => rw [checkUpdateNone found] at ok; cases ok
  | some p => exact ⟨p.quantity,by simp only [quantityOf, found, Option.map_some]⟩

theorem callMoves (i : ℕ) (items : List Product) (call : UpdateCall)
    (unfinished : callDone call = false) :
    ∃ items' call', UpdateStep i items call items' call' := by
  cases call with
  | waiting id q =>
    cases check : checkUpdate items id q with
    | error e => exact ⟨_,_,.throws check⟩
    | ok n =>
      obtain ⟨seen,read⟩ := checkOkRead check
      exact ⟨_,_,.check read check⟩
  | checked id q seen n => exact ⟨_,_,.store⟩
  | accepted id q => cases unfinished
  | threw id q e => cases unfinished

theorem catchUpdateFails (e : Exn) :
    ∃ e', ensureSuccessStatusCode (catchUpdate e).statusCode = .error e' := by
  cases e <;> exact ⟨.httpRequest,rfl⟩

/- An answered PUT is either accepted and paid for, or it stops the run. -/
theorem reservingMoves (i : ℕ) (s : Services) (order : Order) (product : Product)
    (call : UpdateCall) :
    ∃ s' client', ClientStep UpdateStep i s (.order order (.reserving product call)) s' client' := by
  cases call with
  | waiting id q =>
    obtain ⟨items',call',act⟩ := callMoves i s.items (.waiting id q) rfl
    exact ⟨_,_,.reserve act⟩
  | checked id q seen n => exact ⟨_,_,.reserve .store⟩
  | accepted id q =>
    cases made : paymentFor product order with
    | ok payment => exact ⟨_,_,.pay rfl rfl made⟩
    | error e => exact ⟨_,_,.overflows rfl rfl made⟩
  | threw id q e =>
    obtain ⟨e',error⟩ := catchUpdateFails e
    exact ⟨_,_,.stockThrows rfl error⟩

theorem clientMoves : NeverWaits (ClientStep UpdateStep) clientDone := by
  intro i s client unfinished
  cases client with
  | direct call =>
    obtain ⟨items',call',act⟩ := callMoves i s.items call unfinished
    exact ⟨_,_,.direct act⟩
  | order order phase =>
    cases phase with
    | started => exact ⟨_,_,.list⟩
    | listed products =>
      cases found : single products order.id with
      | ok product => exact ⟨_,_,.lookup found⟩
      | error e => exact ⟨_,_,.lookupThrows found⟩
    | reserving product call => exact reservingMoves i s order product call
    | charging payment => exact ⟨_,_,.charge ⟨.failed,.failed⟩⟩
    | charged response =>
      cases success : ensureSuccessStatusCode response.statusCode with
      | ok _ => exact ⟨_,_,.returns success⟩
      | error e => exact ⟨_,_,.paymentThrows success⟩
    | returned => cases unfinished
    | threw stage e => cases unfinished

def freshTurns : Client → ℕ
  | .order _ _ => 7
  | .direct _ => 2

theorem freshTurnsLeft {client : Client} (fresh : client.fresh) :
    clientTurns client = freshTurns client := by
  cases client with
  | order order phase => cases fresh; rfl
  | direct call =>
    obtain ⟨id,q,same⟩ := fresh
    subst same
    rfl

theorem clientsFinish (stock : Stock) (clients : List Client)
    (fresh : ∀ client ∈ clients, client.fresh) (schedule : List ℕ) (c : Config Services Client)
    (run : Run (Step (ClientStep UpdateStep)) (opening stock clients) schedule c) :
    (∀ (i : ℕ) client, clients[i]? = some client → schedule.count i ≤ freshTurns client) ∧
    (∀ (i : ℕ) client, c.procs[i]? = some client → clientDone client = false →
      ∃ c', Step (ClientStep UpdateStep) c i c') ∧
    (∃ rest last, Run (Step (ClientStep UpdateStep)) c rest last ∧
      ∀ client ∈ last.procs, clientDone client = true) ∧
    ∀ rest last, Run (Step (ClientStep UpdateStep)) c rest last →
      schedule.length + rest.length ≤ (clients.map freshTurns).sum ∧
      ((∀ i next, ¬ Step (ClientStep UpdateStep) last i next) →
        ∀ client ∈ last.procs, clientDone client = true) := by
  have start : clients.map clientTurns = clients.map freshTurns :=
    List.map_congr_left fun client mem => freshTurnsLeft (fresh client mem)
  refine ⟨?_,?_,ledToEnd clientFalls clientMoves c,?_⟩
  · intro i client found
    have turns := runTurns clientFalls run i
    have opened : turnsLeft clientTurns (opening stock clients).procs i = freshTurns client := by
      rw [← freshTurnsLeft (fresh client (List.mem_of_getElem? found))]
      exact turnsLeftSome found
    omega
  · intro i client found unfinished
    exact canMove clientMoves found unfinished
  · intro rest last later
    have before := runTotal clientFalls run
    have after_ := runTotal clientFalls later
    have opened : ((opening stock clients).procs.map clientTurns).sum =
        (clients.map freshTurns).sum := congrArg List.sum start
    exact ⟨by omega,stuckDone clientMoves⟩

theorem clientsFinishUnderWay :
    (∃ c', Step (ClientStep UpdateStep) lenovoServed 0 c') ∧
    ∃ rest last, Run (Step (ClientStep UpdateStep)) lenovoServed rest last ∧ rest.length ≤ 1 ∧
      ∀ client ∈ last.procs, clientDone client = true := by
  obtain ⟨_,moves,⟨rest,last,later,done⟩,bounded⟩ := clientsFinish Stock.initial lenovoClients
    (by simp [lenovoClients, Client.fresh]) _ _ lenovoRun
  have turns : 8 + rest.length ≤ 9 := (bounded rest last later).1
  exact ⟨moves 0 _ rfl rfl,rest,last,later,by omega,done⟩

end MonitoringForDevOps.UI.OrderProgress
