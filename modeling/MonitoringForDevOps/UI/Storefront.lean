import MonitoringForDevOps.UI.OrderInterleaving
import MonitoringForDevOps.UI.OrderPage

/-! Order pages in front of the services. A click starts an order run, whose requests
interleave with those of the other pages and with direct PUTs; the page goes on
handling events until its run ends. What a page fetches is left open. -/
namespace MonitoringForDevOps.UI.Storefront
open Library Common Runs Interleaving SharedLog StockService PaymentService UpdateRace
  OrderInterleaving OrderPage

inductive Visitor where
  | page (page : Page) (runs : List (Order × Phase))
  | direct (call : UpdateCall)
  deriving DecidableEq

def Visitor.fresh : Visitor → Prop
  | .page form runs => form = .opened ∧ runs = []
  | .direct call => ∃ id q, call = .waiting id q

def Carries (order : Order) (payment : Payment) : Prop :=
  payment.name = order.customer ∧ payment.type = order.cardType ∧
    payment.number = order.cardNumber

def EntriesCarry (order : Order) (entries : List Entry) : Prop :=
  ∀ client payment items, .received client payment items ∈ entries → Carries order payment

theorem atMostOne {page : Page} (submitting : Submitting page) : page.inFlight.length ≤ 1 := by
  rw [submitting.flag]
  split
  · exact Nat.le_refl 1
  · exact Nat.zero_le 1

def PaysFor (stock : Stock) (order : Order) (payment : Payment) : Prop :=
  Carries order payment ∧ Priced stock order payment

/- One order leaves at most one payment, and a payment only behind its reservation. -/
def Settled (stock : Stock) (order : Order) (entries : List Entry) : Prop :=
  (∀ client id q items, .reserved client id q items ∈ entries → id = order.id ∧ q = order.quantity) ∧
    (paymentsOf entries = [] ∨
      ∃ payment, paymentsOf entries = [payment] ∧ PaysFor stock order payment)

theorem chargedSettled {stock : Stock} {i order entries} (carry : EntriesCarry order entries)
    (charged : ChargedOnce stock i order entries) : Settled stock order entries := by
  obtain ⟨items,items',payment,_,_,priced,same⟩ := charged
  subst same
  refine ⟨?_,.inr ⟨payment,rfl,carry i payment items' (.tail _ (.head _)),priced⟩⟩
  intro client id q items₁ mem
  cases mem with
  | head => exact ⟨rfl,rfl⟩
  | tail _ later => cases List.mem_singleton.mp later

theorem reservedSettled {stock : Stock} {i order entries}
    (reserved : ReservedOnce stock i order entries) : Settled stock order entries := by
  obtain ⟨items,_,same⟩ := reserved
  subst same
  refine ⟨?_,.inl rfl⟩
  intro client id q items₁ mem
  cases List.mem_singleton.mp mem
  exact ⟨rfl,rfl⟩

theorem nothingSettled (stock : Stock) (order : Order) : Settled stock order [] :=
  ⟨fun _ _ _ _ mem => (List.not_mem_nil mem).elim,.inl rfl⟩

theorem phaseSettled {stock : Stock} {i order entries phase}
    (sound : PhaseSound stock i order entries phase) (carry : EntriesCarry order entries) :
    Settled stock order entries := by
  cases phase with
  | started => subst sound; exact nothingSettled stock order
  | listed products =>
    obtain ⟨empty,_⟩ := sound
    subst empty
    exact nothingSettled stock order
  | reserving product call =>
    obtain ⟨_,_,_,unreserved,reserved⟩ := sound
    cases call with
    | accepted id q => exact reservedSettled (reserved id q rfl)
    | _ => rw [unreserved (fun _ _ same => by cases same)]; exact nothingSettled stock order
  | charging payment => exact reservedSettled sound.2
  | charged response => exact chargedSettled carry sound
  | returned => exact chargedSettled carry sound
  | threw stage e =>
    cases stage with
    | lookup => subst sound; exact nothingSettled stock order
    | stock => subst sound; exact nothingSettled stock order
    | payment => exact chargedSettled carry sound

section Clicked

end Clicked
end MonitoringForDevOps.UI.Storefront
