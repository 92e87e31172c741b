import MonitoringForDevOps.CustomerService.Business

/-! The RateCustomer call. Besides the response the model returns what the call
handed to the credit rating and what was asked of the credit-rate service. -/
namespace MonitoringForDevOps.CustomerService
open Common

structure RateCustomerRequest where
  requestId : Text
  name : Text
  firstname : Text
  street : Text
  town : Text
  zipCode : Text
  deriving DecidableEq

structure RateCustomerResponse where
  requestId : Text
  isValid : Bool
  reliability : UInt32
  deriving DecidableEq

-- A response that no property is assigned to.
def RateCustomerResponse.new : RateCustomerResponse := ⟨.empty,false,0⟩

structure Rated where
  rated : List (Customer × Address)
  contacted : List String
  response : Except Exn RateCustomerResponse

def rateCustomer (chance : Chance) (request : RateCustomerRequest) : Rated :=
  let address : Address := ⟨request.street,request.town,request.zipCode⟩
  if AddressProcessor.isValidAsync address then
    let customer := CustomerProcessor.validateAsync request.firstname request.name
    if customer.isValid then
      let (contacted,rate) := CreditRateProvider.getRateValueAsync chance customer address
      ⟨[(customer,address)],contacted,match rate with
        | .error e => .error e
        | .ok reliability =>
            .ok { RateCustomerResponse.new with reliability := reliability, isValid := true }⟩
    else ⟨[],[],.ok { RateCustomerResponse.new with reliability := 0, isValid := false }⟩
  else ⟨[],[],.ok { RateCustomerResponse.new with reliability := 0, isValid := false }⟩

/- Which requests are rated, told from the lengths of their fields. -/
def RateCustomerRequest.Valid (request : RateCustomerRequest) : Prop :=
  request.zipCode.units = 5 ∧ (request.street.units + request.town.units) % 7 = 0 ∧
    (request.name.units + request.firstname.units) % 4 = 0

instance (request : RateCustomerRequest) : Decidable request.Valid := by
  unfold RateCustomerRequest.Valid
  infer_instance

def RateCustomerRequest.address (request : RateCustomerRequest) : Address :=
  ⟨request.street,request.town,request.zipCode⟩

theorem validIff (request : RateCustomerRequest) :
    request.Valid ↔ AddressProcessor.isValidAsync request.address = true ∧
      (CustomerProcessor.validateAsync request.firstname request.name).isValid = true := by
  rw [addressIsValid, customerIsValid, Nat.add_comm request.firstname.units]
  exact and_assoc.symm

theorem rateInvalid (chance : Chance) {request : RateCustomerRequest} (invalid : ¬ request.Valid) :
    rateCustomer chance request = ⟨[],[],.ok RateCustomerResponse.new⟩ := by
  rw [validIff] at invalid
  simp only [rateCustomer]
  split
  · rename_i address
    split
    · rename_i customer
      exact absurd ⟨address,customer⟩ invalid
    · rfl
  · rfl

/- A valid request is rated once, and the names arrive in each other's place. -/
theorem rateValid (chance : Chance) {request : RateCustomerRequest} (valid : request.Valid) :
    ∃ customer : Customer, customer.firstName = request.name ∧
      customer.lastName = request.firstname ∧
      rateCustomer chance request =
        ⟨[(customer,request.address)],["/"],
          match (CreditRateProvider.getRateValueAsync chance customer request.address).2 with
          | .error e => .error e
          | .ok reliability => .ok ⟨.empty,true,reliability⟩⟩ := by
  obtain ⟨address,customer⟩ := (validIff request).mp valid
  refine ⟨CustomerProcessor.validateAsync request.firstname request.name,rfl,rfl,?_⟩
  unfold RateCustomerRequest.address at address
  simp only [rateCustomer, address, customer, if_true]
  rfl

theorem responseVerdict {chance : Chance} {request : RateCustomerRequest} {response}
    (made : (rateCustomer chance request).response = .ok response) :
    response.isValid = decide request.Valid := by
  by_cases valid : request.Valid
  · obtain ⟨customer,_,_,rated⟩ := rateValid chance valid
    rw [rated] at made
    simp only at made
    split at made
    · cases made
    · cases made
      exact (decide_eq_true valid).symm
  · rw [rateInvalid chance valid] at made
    cases made
    exact (decide_eq_false valid).symm

theorem rateCustomerExact (request : RateCustomerRequest) (status roll : ℕ) :
    let rated := rateCustomer ⟨.answered status,roll⟩ request
    let valid := utf16Length request.zipCode.value = 5 ∧
      (utf16Length request.street.value + utf16Length request.town.value) % 7 = 0 ∧
      (utf16Length request.name.value + utf16Length request.firstname.value) % 4 = 0
    ∃ response, rated.response = .ok response ∧ (response.isValid = true ↔ valid) ∧
      (valid → rated.contacted.length = 1) ∧ (¬ valid → rated.contacted = []) ∧
      (response.isValid = true →
        if isSuccessStatusCode status then
          50 ≤ response.reliability.toNat ∧ response.reliability.toNat ≤ 97
        else response.reliability.toNat ≤ 9) ∧
      (response.isValid = false → response.reliability = 0) := by
  change ∃ response, _ ∧ (_ ↔ request.Valid) ∧ (request.Valid → _) ∧ (¬ request.Valid → _) ∧ _
  by_cases valid : request.Valid
  · obtain ⟨customer,_,_,rated⟩ := rateValid ⟨.answered status,roll⟩ valid
    obtain ⟨rate,answer,range⟩ := rateAnswered status roll customer request.address
    rw [answer] at rated
    rw [rated]
    exact ⟨⟨.empty,true,rate⟩,rfl,iff_of_true rfl valid,fun _ => rfl,fun not => absurd valid not,
      fun _ => range,nofun⟩
  · rw [rateInvalid _ valid]
    exact ⟨.new,rfl,iff_of_false nofun valid,fun is => absurd is valid,fun _ => rfl,nofun,
      fun _ => rfl⟩

def RatesRequested (request : RateCustomerRequest) (rated : Rated) : Prop :=
  (∀ customer address, (customer,address) ∈ rated.rated →
    customer.firstName = request.firstname ∧ customer.lastName = request.name ∧
    address.street = request.street ∧ address.town = request.town ∧
    address.zipCode = request.zipCode) ∧
  ∀ response, rated.response = .ok response → response.requestId = request.requestId

def frank : RateCustomerRequest where
  requestId := .ofString "42"
  name := .ofString "Pommerening"
  firstname := .ofString "Frank"
  street := .ofString "Landstraße 42a"
  town := .ofString "Leipzig"
  zipCode := .ofString "12345"

theorem namesArriveSwapped :
    ¬ ∀ request chance, RatesRequested request (rateCustomer chance request) := by
  intro claim
  have valid : frank.Valid := by decide
  obtain ⟨customer,first,_,rated⟩ := rateValid ⟨.answered 200,0⟩ valid
  have handed := (claim frank ⟨.answered 200,0⟩).1 customer frank.address
    (by rw [rated]; exact List.mem_singleton.mpr rfl)
  exact absurd (first.symm.trans handed.1) (by decide)

theorem ratesRequestedExactly (request : RateCustomerRequest) (chance : Chance) :
    RatesRequested request (rateCustomer chance request) ↔
      (request.Valid → request.firstname = request.name) ∧
      (request.requestId = .empty ∨ request.Valid ∧ chance.creditRate = .failed) := by
  by_cases valid : request.Valid
  · obtain ⟨customer,first,last,rated⟩ := rateValid chance valid
    rw [rated]
    have people : (∀ customer' address, (customer',address) ∈ [(customer,request.address)] →
        customer'.firstName = request.firstname ∧ customer'.lastName = request.name ∧
        address.street = request.street ∧ address.town = request.town ∧
        address.zipCode = request.zipCode) ↔ request.firstname = request.name := by
      constructor
      · intro each
        exact (each customer request.address (List.mem_singleton.mpr rfl)).1.symm.trans first
      · intro same customer' address mem
        cases List.mem_singleton.mp mem
        exact ⟨first.trans same.symm,last.trans same,rfl,rfl,rfl⟩
    have answers : (∀ response,
        (match (CreditRateProvider.getRateValueAsync chance customer request.address).2 with
          | .error e => Except.error e
          | .ok reliability => .ok (RateCustomerResponse.mk .empty true reliability)) =
            .ok response → response.requestId = request.requestId) ↔
        (request.requestId = .empty ∨ chance.creditRate = .failed) := by
      obtain ⟨creditRate,roll⟩ := chance
      cases creditRate with
      | failed => exact iff_of_true nofun (.inr rfl)
      | answered status =>
        obtain ⟨rate,answer,_⟩ := rateAnswered status roll customer request.address
        rw [answer]
        constructor
        · intro each
          exact .inl (each _ rfl).symm
        · intro silent response made
          cases made
          rcases silent with empty | failed
          · exact empty.symm
          · cases failed
    exact (and_congr people answers).trans (by simp only [valid, true_and, true_imp_iff])
  · rw [rateInvalid chance valid]
    constructor
    · intro rates
      exact ⟨fun is => absurd is valid,.inl (rates.2 _ rfl).symm⟩
    · rintro ⟨_,empty | failed⟩
      · refine ⟨nofun,?_⟩
        intro response made
        cases made
        exact empty.symm
      · exact absurd failed.1 valid

end MonitoringForDevOps.CustomerService
