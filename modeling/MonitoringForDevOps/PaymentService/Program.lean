import MonitoringForDevOps.Common.Models

/-! The payment service: the PUT /payments handler and the card provider it asks.
It keeps no state of its own; the providers it contacts are recorded. -/
namespace MonitoringForDevOps.PaymentService
open Common

inductive Provider where
  | visa
  | master
  deriving DecidableEq, Repr

inductive ProviderOutcome where
  | answered (statusCode : Nat)
  | failed
  deriving DecidableEq, Repr

/- The outcome of GET / at each card provider's endpoint. -/
structure Providers where
  visa : ProviderOutcome
  master : ProviderOutcome

def Providers.outcome (providers : Providers) : Provider → ProviderOutcome
  | .visa => providers.visa
  | .master => providers.master

/- Char.toLower lowers the ASCII letters. The invariant casing also lowers other
letters, none of them to a letter of "visa" or "master". -/
def toLowerInvariant (s : String) : String := String.ofList (s.toList.map Char.toLower)

example : toLowerInvariant "VISA" = "visa" ∧ toLowerInvariant "MasterCard" ≠ "master" := by decide

def getProvider : ProviderOutcome → Except Exn Unit
  | .failed => .error .httpRequest
  | .answered code => ensureSuccessStatusCode code

def validateVisa (providers : Providers) : List Provider × Except Exn Unit :=
  ([.visa],getProvider providers.visa)

def validateMaster (providers : Providers) : List Provider × Except Exn Unit :=
  ([.master],getProvider providers.master)

def validate (providers : Providers) (type _number : Option String) :
    List Provider × Except Exn Unit :=
  match type with
  | none => ([],.error .nullReference)
  | some type =>
      match toLowerInvariant type with
      | "visa" => validateVisa providers
      | "master" => validateMaster providers
      | _ => ([],.error (.argumentOutOfRange "type" (some ("Unknown Card-Type " ++ type))))

def mapPutPayments (providers : Providers) (payment : Payment) : List Provider × HttpResult :=
  if isNullOrEmpty payment.name then ([],.badRequest (some "Missing Name"))
  else
    let (contacted,validated) := validate providers payment.type payment.number
    match validated with
    | .ok () => (contacted,.accepted)
    | .error _ => (contacted,.internalServerError)

def cardProvider (type : Option String) : Option Provider :=
  match type with
  | none => none
  | some type =>
      if toLowerInvariant type = "visa" then some .visa
      else if toLowerInvariant type = "master" then some .master
      else none

def ProviderOutcome.succeeds : ProviderOutcome → Bool
  | .answered code => isSuccessStatusCode code
  | .failed => false

theorem getProviderOk {outcome : ProviderOutcome} :
    getProvider outcome = .ok () ↔ outcome.succeeds = true := by
  cases outcome with
  | failed => simp [getProvider, ProviderOutcome.succeeds]
  | answered code =>
    simp only [getProvider, ensureSuccessStatusCode, ProviderOutcome.succeeds]
    split <;> simp_all

theorem cardProviderSome {type : Option String} {provider} :
    cardProvider type = some provider ↔ ∃ t, type = some t ∧
      (toLowerInvariant t = "visa" ∧ provider = .visa ∨
        toLowerInvariant t = "master" ∧ provider = .master) := by
  cases type with
  | none => simp [cardProvider]
  | some t =>
    have distinct : ("master" : String) ≠ "visa" := by decide
    simp only [cardProvider, Option.some.injEq, exists_eq_left']
    by_cases visa : toLowerInvariant t = "visa"
    · simp [visa, distinct.symm, eq_comm]
    · by_cases master : toLowerInvariant t = "master"
      · simp [master, distinct, eq_comm]
      · simp [visa, master]

theorem validateKnown {providers : Providers} {type number provider}
    (known : cardProvider type = some provider) :
    validate providers type number = ([provider],getProvider (providers.outcome provider)) := by
  obtain ⟨t,same,lowered⟩ := cardProviderSome.mp known
  subst same
  rcases lowered with ⟨visa,same⟩ | ⟨master,same⟩
  · subst same; simp only [validate, visa, validateVisa, Providers.outcome]
  · subst same; simp only [validate, master, validateMaster, Providers.outcome]

theorem validateUnknown (providers : Providers) (number : Option String) {type}
    (unknown : cardProvider type = none) :
    ∃ e, validate providers type number = ([],.error e) := by
  cases type with
  | none => exact ⟨_,rfl⟩
  | some t =>
    simp only [validate]
    split
    · rename_i visa; simp [cardProvider, visa] at unknown
    · rename_i master; simp [cardProvider, master] at unknown
    · exact ⟨_,rfl⟩

/- A payment is accepted exactly when it names a customer and the provider of its
card type answers with a success; then that provider alone was asked, once. -/
theorem paymentAccepted {providers : Providers} {payment contacted} :
    mapPutPayments providers payment = (contacted,.accepted) ↔
      isNullOrEmpty payment.name = false ∧ ∃ provider, cardProvider payment.type = some provider ∧
        (providers.outcome provider).succeeds = true ∧ contacted = [provider] := by
  simp only [mapPutPayments]
  cases name : isNullOrEmpty payment.name with
  | true => simp
  | false =>
    simp only [Bool.false_eq_true, if_false, true_and]
    cases known : cardProvider payment.type with
    | none =>
      obtain ⟨e,thrown⟩ := validateUnknown providers payment.number known
      simp [thrown]
    | some provider =>
      rw [validateKnown known]
      have succeeds : getProvider (providers.outcome provider) = .ok () ↔ _ := getProviderOk
      cases answer : getProvider (providers.outcome provider) with
      | error e =>
        rw [answer] at succeeds
        simp [← succeeds]
      | ok u =>
        simp only [Prod.mk.injEq, and_true, Option.some.injEq, exists_eq_left',
          getProviderOk.mp answer, true_and]
        exact eq_comm

theorem paymentAcceptedByType {providers : Providers} {payment} :
    (mapPutPayments providers payment).2 = .accepted ↔
      (∃ name, payment.name = some name ∧ name ≠ "") ∧
      ∃ type, payment.type = some type ∧
        (toLowerInvariant type = "visa" ∧ providers.visa.succeeds = true ∨
          toLowerInvariant type = "master" ∧ providers.master.succeeds = true) := by
  rw [← isNullOrEmptyFalse]
  constructor
  · intro accepted
    have whole : mapPutPayments providers payment =
        ((mapPutPayments providers payment).1,.accepted) := by rw [← accepted]
    obtain ⟨named,provider,known,succeeds,_⟩ := paymentAccepted.mp whole
    obtain ⟨type,same,lowered⟩ := cardProviderSome.mp known
    refine ⟨named,type,same,?_⟩
    rcases lowered with ⟨visa,asked⟩ | ⟨master,asked⟩
    · subst asked; exact .inl ⟨visa,succeeds⟩
    · subst asked; exact .inr ⟨master,succeeds⟩
  · rintro ⟨named,type,same,⟨visa,succeeds⟩ | ⟨master,succeeds⟩⟩
    · have known := cardProviderSome.mpr ⟨type,same,.inl ⟨visa,rfl⟩⟩
      exact congrArg Prod.snd (paymentAccepted.mpr ⟨named,_,known,succeeds,rfl⟩)
    · have known := cardProviderSome.mpr ⟨type,same,.inr ⟨master,rfl⟩⟩
      exact congrArg Prod.snd (paymentAccepted.mpr ⟨named,_,known,succeeds,rfl⟩)

end MonitoringForDevOps.PaymentService
