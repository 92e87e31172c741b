import MonitoringForDevOps.CustomerService.Services
import MonitoringForDevOps.Library.Runs

/-! The customer page. Its button stays enabled and its fields stay editable while
checks are pending, and a reply overwrites the verdict whatever is shown by then. -/
namespace MonitoringForDevOps.UI.CustomerPage
open Library Common Runs CustomerService

structure CustomerViewModel where
  lastName : Option Text
  firstName : Option Text
  street : Option Text
  town : Option Text
  zipCode : Option Text
  isValid : Option Bool
  reliability : UInt32
  deriving DecidableEq

def CustomerViewModel.validateIsDisabled (model : CustomerViewModel) : Bool :=
  isNullOrEmpty (model.lastName.map Text.value) || isNullOrEmpty (model.firstName.map Text.value) ||
    isNullOrEmpty (model.street.map Text.value) || isNullOrEmpty (model.town.map Text.value) ||
    isNullOrEmpty (model.zipCode.map Text.value)

-- The message takes no null, and the page assigns no RequestId.
def CustomerViewModel.request (model : CustomerViewModel) : Option RateCustomerRequest := do
  let name ← model.lastName
  let firstname ← model.firstName
  let street ← model.street
  let town ← model.town
  let zipCode ← model.zipCode
  return ⟨.empty,name,firstname,street,town,zipCode⟩

structure Page where
  model : CustomerViewModel
  pending : List RateCustomerRequest
  deriving DecidableEq

def Page.opened : Page where
  model := {
    lastName := some ⟨"Pommerening",by decide⟩
    firstName := some ⟨"Frank",by decide⟩
    street := some ⟨"Landstraße 42a",by decide⟩
    town := some ⟨"Leipzig",by decide⟩
    zipCode := some ⟨"12345",by decide⟩
    isValid := none
    reliability := 0 }
  pending := []

inductive Event where
  | editLastName (lastName : Option Text)
  | editFirstName (firstName : Option Text)
  | editStreet (street : Option Text)
  | editTown (town : Option Text)
  | editZipCode (zipCode : Option Text)
  | click
  | answered (call : Nat) (chance : Chance)
  | failed (call : Nat)
  deriving DecidableEq

def Page.edit (page : Page) (change : CustomerViewModel → CustomerViewModel) : Page :=
  { page with model := change page.model }

-- ValidateCustomer up to the await of the call.
def Page.validateCustomer (page : Page) : Page :=
  match page.model.request with
  | none => page
  | some request => { page with pending := page.pending ++ [request] }

/- The rest of ValidateCustomer; an error of the service ends it as an exception. -/
def Page.answered (page : Page) (call : Nat) (rated : Rated) : Page :=
  let page' := { page with pending := page.pending.eraseIdx call }
  match rated.response with
  | .error _ => page'
  | .ok result =>
      { page' with
        model := { page'.model with
          reliability := result.reliability, isValid := some result.isValid } }

def handle (page : Page) : Event → Page
  | .editLastName lastName => page.edit (fun model => { model with lastName := lastName })
  | .editFirstName firstName => page.edit (fun model => { model with firstName := firstName })
  | .editStreet street => page.edit (fun model => { model with street := street })
  | .editTown town => page.edit (fun model => { model with town := town })
  | .editZipCode zipCode => page.edit (fun model => { model with zipCode := zipCode })
  | .click => if page.model.validateIsDisabled then page else page.validateCustomer
  | .answered call chance =>
      match page.pending[call]? with
      | none => page
      | some request => page.answered call (rateCustomer chance request)
  | .failed call => { page with pending := page.pending.eraseIdx call }

def ShowsOwnVerdict (page : Page) : Prop :=
  ∀ verdict, page.model.isValid = some verdict →
    ∃ request, page.model.request = some request ∧ verdict = decide request.Valid

theorem verdictOutlivesEdit :
    ¬ ∀ events, ShowsOwnVerdict (after handle Page.opened events) := by
  intro claim
  obtain ⟨request,shown,verdict⟩ := claim
    [.click,.answered 0 ⟨.answered 200,0⟩,.editZipCode (some ⟨"1234",by decide⟩)] true (by decide)
  cases shown
  exact absurd verdict (by decide)

def displayed (events : List Event) : Option RateCustomerRequest :=
  (after handle Page.opened events).model.request

/- A history tells the clicks whose calls are pending, oldest first. A click is known
by the events before it. -/
def clickOrReply (events : List Event) (clicks : List (List Event)) : Event → List (List Event)
  | .click =>
      if (after handle Page.opened events).model.validateIsDisabled then clicks
      else clicks ++ [events]
  | .answered call _ => clicks.eraseIdx call
  | .failed call => clicks.eraseIdx call
  | _ => clicks

def pendingClicks (events : List Event) : List (List Event) := keptAlong clickOrReply [] events

/- The click whose call an event answers, if the answer brings a response. -/
def answeredClick (events : List Event) : Event → Option (List Event × Chance)
  | .answered call chance => do
      let click ← (pendingClicks events)[call]?
      let request ← displayed click
      match (rateCustomer chance request).response with
      | .error _ => none
      | .ok _ => some (click,chance)
  | _ => none

def lastAnswered (events : List Event) : Option (List Event × Chance) :=
  keptAlong (fun before last e => (answeredClick before e).or last) none events

def ClickedAt (events click : List Event) (request : RateCustomerRequest) : Prop :=
  click ++ [.click] <+: events ∧
    (after handle Page.opened click).model.validateIsDisabled = false ∧
    displayed click = some request

theorem clickedLater {events click request} (clicked : ClickedAt events click request) (e : Event) :
    ClickedAt (events ++ [e]) click request := by
  obtain ⟨inside,taken⟩ := clicked
  exact ⟨inside.trans (List.prefix_append events [e]),taken⟩

theorem enabledRequest {model : CustomerViewModel} (enabled : model.validateIsDisabled = false) :
    ∃ request, model.request = some request := by
  simp only [CustomerViewModel.validateIsDisabled, Bool.or_eq_false_iff, isNullOrEmptyFalse,
    Option.map_eq_some_iff] at enabled
  obtain ⟨⟨⟨⟨lastName,firstName⟩,street⟩,town⟩,zipCode⟩ := enabled
  obtain ⟨_,⟨name,hasName,_⟩,_⟩ := lastName
  obtain ⟨_,⟨firstname,hasFirstname,_⟩,_⟩ := firstName
  obtain ⟨_,⟨road,hasRoad,_⟩,_⟩ := street
  obtain ⟨_,⟨place,hasPlace,_⟩,_⟩ := town
  obtain ⟨_,⟨zip,hasZip,_⟩,_⟩ := zipCode
  refine ⟨⟨.empty,name,firstname,road,place,zip⟩,?_⟩
  simp only [CustomerViewModel.request, hasName, hasFirstname, hasRoad, hasPlace, hasZip]
  rfl

structure Asked (events : List Event) (page : Page) : Prop where
  requests : page.pending.map some = (pendingClicks events).map displayed
  clicked : ∀ click ∈ pendingClicks events, ∃ request, ClickedAt events click request

theorem handledPending (page : Page) (call : ℕ) (chance : Chance) :
    (handle page (.answered call chance)).pending = page.pending.eraseIdx call := by
  simp only [handle]
  cases found : page.pending[call]? with
  | none => exact (List.eraseIdx_of_length_le (List.getElem?_eq_none_iff.mp found)).symm
  | some request =>
    simp only [Page.answered]
    split <;> rfl

theorem clickedStill {events : List Event} {page : Page} (asked : Asked events page) (e : Event) :
    ∀ click ∈ pendingClicks events, ∃ request, ClickedAt (events ++ [e]) click request := by
  intro click mem
  obtain ⟨request,clicked⟩ := asked.clicked click mem
  exact ⟨request,clickedLater clicked e⟩

theorem askedErased {events : List Event} {page page' : Page} (asked : Asked events page) {e : Event}
    {call : ℕ} (ends : pendingClicks (events ++ [e]) = (pendingClicks events).eraseIdx call)
    (ends' : page'.pending = page.pending.eraseIdx call) : Asked (events ++ [e]) page' where
  requests := by
    rw [ends, ends', ← List.eraseIdx_map, ← List.eraseIdx_map, asked.requests]
  clicked := by
    intro click mem
    rw [ends] at mem
    exact clickedStill asked e click (List.mem_of_mem_eraseIdx mem)

theorem askedKept {events : List Event} {page page' : Page} (asked : Asked events page) {e : Event}
    (same : pendingClicks (events ++ [e]) = pendingClicks events)
    (same' : page'.pending = page.pending) :
    Asked (events ++ [e]) page' where
  requests := by rw [same, same', asked.requests]
  clicked := by
    intro click mem
    rw [same] at mem
    exact clickedStill asked e click mem

theorem askedClick {events : List Event} (asked : Asked events (after handle Page.opened events)) :
    Asked (events ++ [.click]) (handle (after handle Page.opened events) .click) := by
  have ghost : pendingClicks (events ++ [.click]) =
      clickOrReply events (pendingClicks events) .click := keptSnoc clickOrReply [] events .click
  simp only [clickOrReply] at ghost
  simp only [handle]
  cases enabled : (after handle Page.opened events).model.validateIsDisabled with
  | true =>
    rw [enabled] at ghost
    exact askedKept asked ghost rfl
  | false =>
    rw [enabled] at ghost
    obtain ⟨request,fields⟩ := enabledRequest enabled
    have taken : displayed events = some request := fields
    simp only [Page.validateCustomer, fields, Bool.false_eq_true, if_false] at ghost ⊢
    refine ⟨?_,?_⟩
    · rw [ghost, List.map_append, List.map_append, asked.requests]
      simp only [List.map_cons, List.map_nil, taken]
    · intro click mem
      rw [ghost] at mem
      rcases List.mem_append.mp mem with old | new
      · exact clickedStill asked .click click old
      · rw [List.mem_singleton.mp new]
        exact ⟨request,List.prefix_refl _,enabled,taken⟩

theorem reachedAsked (events : List Event) : Asked events (after handle Page.opened events) := by
  have opened : Asked [] Page.opened := ⟨rfl,List.forall_mem_nil _⟩
  refine historyInvariant handle Asked opened ?_ events
  intro events e asked
  have ghost := keptSnoc clickOrReply [] events e
  cases e with
  | click => exact askedClick asked
  | answered call chance => exact askedErased asked ghost (handledPending _ call chance)
  | failed call => exact askedErased asked ghost rfl
  | _ => exact askedKept asked ghost rfl

theorem askedFound {events : List Event} {page : Page} (asked : Asked events page) {call : ℕ} {request}
    (found : page.pending[call]? = some request) :
    ∃ click, (pendingClicks events)[call]? = some click ∧ ClickedAt events click request := by
  have place := congrArg (fun requests => requests[call]?) asked.requests
  simp only [List.getElem?_map, found, Option.map_some] at place
  obtain ⟨click,there,fields⟩ := Option.map_eq_some_iff.mp place.symm
  obtain ⟨request',inside,enabled,fields'⟩ := asked.clicked click (List.mem_of_getElem? there)
  exact ⟨click,there,inside,enabled,fields⟩

theorem askedNone {events : List Event} {page : Page} (asked : Asked events page) {call : ℕ}
    (found : page.pending[call]? = none) : (pendingClicks events)[call]? = none := by
  have place := congrArg (fun requests => requests[call]?) asked.requests
  simp only [List.getElem?_map, found, Option.map_none] at place
  exact Option.map_eq_none_iff.mp place.symm

structure Showing (events : List Event) (model : CustomerViewModel) (click : List Event)
    (chance : Chance) (request : RateCustomerRequest) (response : RateCustomerResponse) : Prop where
  clicked : ClickedAt events click request
  rated : (rateCustomer chance request).response = .ok response
  chip : model.isValid = some response.isValid
  bar : model.reliability = response.reliability

def Shown (events : List Event) (page : Page) : Prop :=
  match lastAnswered events with
  | none => page.model.isValid = none ∧ page.model.reliability = 0
  | some (click,chance) =>
      ∃ request response, Showing events page.model click chance request response

theorem shownKept {events : List Event} {page page' : Page} {e : Event} (shown : Shown events page)
    (quiet : answeredClick events e = none) (chip : page'.model.isValid = page.model.isValid)
    (bar : page'.model.reliability = page.model.reliability) : Shown (events ++ [e]) page' := by
  have last : lastAnswered (events ++ [e]) = lastAnswered events := by
    simp only [lastAnswered, keptSnoc, quiet, Option.none_or]
  unfold Shown at shown ⊢
  rw [last]
  cases which : lastAnswered events with
  | none =>
    rw [which] at shown
    exact ⟨chip.trans shown.1,bar.trans shown.2⟩
  | some rating =>
    obtain ⟨click,chance⟩ := rating
    rw [which] at shown
    obtain ⟨request,response,showing⟩ := shown
    exact ⟨request,response,clickedLater showing.clicked e,showing.rated,
      chip.trans showing.chip,bar.trans showing.bar⟩

theorem shownAnswer {events : List Event} {page : Page} (asked : Asked events page)
    (shown : Shown events page) (call : ℕ) (chance : Chance) :
    Shown (events ++ [.answered call chance]) (handle page (.answered call chance)) := by
  simp only [handle]
  cases found : page.pending[call]? with
  | none =>
    refine shownKept shown ?_ rfl rfl
    simp only [answeredClick, askedNone asked found]
    rfl
  | some request =>
    obtain ⟨click,there,clicked⟩ := askedFound asked found
    have answer : answeredClick events (.answered call chance) =
        match (rateCustomer chance request).response with
        | .error _ => none
        | .ok _ => some (click,chance) := by
      simp only [answeredClick, there, clicked.2.2, Option.bind_eq_bind, Option.bind_some]
    simp only [Page.answered]
    cases made : (rateCustomer chance request).response with
    | error e =>
      rw [made] at answer
      exact shownKept shown answer rfl rfl
    | ok response =>
      rw [made] at answer
      have last : lastAnswered (events ++ [.answered call chance]) = some (click,chance) := by
        simp only [lastAnswered, keptSnoc, answer, Option.some_or]
      unfold Shown
      rw [last]
      exact ⟨request,response,clickedLater clicked _,made,rfl,rfl⟩

theorem clickModel (page : Page) : (handle page .click).model = page.model := by
  simp only [handle, Page.validateCustomer]
  split
  · rfl
  · split <;> rfl

theorem reachedShown (events : List Event) : Shown events (after handle Page.opened events) := by
  have opened : Shown [] Page.opened := ⟨rfl,rfl⟩
  refine historyInvariant handle Shown opened ?_ events
  intro events e shown
  cases e with
  | click =>
    have model := clickModel (after handle Page.opened events)
    exact shownKept shown rfl (congrArg _ model) (congrArg _ model)
  | answered call chance => exact shownAnswer (reachedAsked events) shown call chance
  | _ => exact shownKept shown rfl rfl rfl

theorem verdictOfLastReply (events : List Event) :
    let page := after handle Page.opened events
    ∀ verdict, page.model.isValid = some verdict →
      ∃ click chance request, lastAnswered events = some (click,chance) ∧
        ClickedAt events click request ∧ verdict = decide request.Valid ∧
        (page.model.request = some request → ShowsOwnVerdict page) := by
  intro page verdict chip
  have shown := reachedShown events
  unfold Shown at shown
  cases last : lastAnswered events with
  | none =>
    rw [last] at shown
    cases chip.symm.trans shown.1
  | some rating =>
    obtain ⟨click,chance⟩ := rating
    rw [last] at shown
    obtain ⟨request,response,showing⟩ := shown
    cases Option.some.inj (chip.symm.trans showing.chip)
    have own : response.isValid = decide request.Valid := responseVerdict showing.rated
    refine ⟨click,chance,request,rfl,showing.clicked,own,?_⟩
    intro fields verdict' chip'
    cases Option.some.inj (chip.symm.trans chip')
    exact ⟨request,fields,own⟩

example :
    (lastAnswered [.click,.editZipCode (some ⟨"1234",by decide⟩),.click,
      .answered 1 ⟨.answered 200,0⟩,.answered 0 ⟨.answered 200,0⟩]).map Prod.fst = some [] := by
  decide

def RatingOf (request : RateCustomerRequest) (chance : Chance) (reliability : UInt32) : Prop :=
  if request.Valid then
    ∃ status, chance.creditRate = .answered status ∧
      if isSuccessStatusCode status then 50 ≤ reliability.toNat ∧ reliability.toNat ≤ 97
      else reliability.toNat ≤ 9
  else reliability = 0

theorem responseRating {chance : Chance} {request : RateCustomerRequest} {response}
    (made : (rateCustomer chance request).response = .ok response) :
    RatingOf request chance response.reliability := by
  unfold RatingOf
  split
  · rename_i valid
    obtain ⟨customer,_,_,rated⟩ := rateValid chance valid
    rw [rated] at made
    obtain ⟨creditRate,roll⟩ := chance
    cases creditRate with
    | failed => cases made
    | answered status =>
      obtain ⟨rate,answer,range⟩ := rateAnswered status roll customer request.address
      rw [answer] at made
      cases made
      exact ⟨status,rfl,range⟩
  · rename_i invalid
    rw [rateInvalid chance invalid] at made
    cases made
    rfl

theorem ratingRange {request : RateCustomerRequest} {chance : Chance} {reliability : UInt32}
    (rating : RatingOf request chance reliability) :
    reliability.toNat ≤ 9 ∨ 50 ≤ reliability.toNat ∧ reliability.toNat ≤ 97 := by
  unfold RatingOf at rating
  split at rating
  · obtain ⟨status,_,range⟩ := rating
    split at range
    · exact .inr range
    · exact .inl range
  · rw [rating]
    exact .inl (by decide)

theorem ratingValid {request : RateCustomerRequest} {chance : Chance} {reliability : UInt32}
    (rating : RatingOf request chance reliability) (positive : reliability ≠ 0) : request.Valid := by
  unfold RatingOf at rating
  split at rating
  · assumption
  · exact absurd rating positive

theorem barOfLastReply (events : List Event) :
    let model := (after handle Page.opened events).model
    (lastAnswered events = none → model.isValid = none ∧ model.reliability = 0) ∧
    (∀ click chance, lastAnswered events = some (click,chance) →
      ∃ request response, ClickedAt events click request ∧
        (rateCustomer chance request).response = .ok response ∧
        model.reliability = response.reliability ∧ model.isValid = some response.isValid ∧
        response.isValid = decide request.Valid ∧ RatingOf request chance model.reliability) ∧
    (model.reliability ≠ 0 → model.isValid = some true) ∧
    (model.reliability.toNat ≤ 9 ∨ 50 ≤ model.reliability.toNat ∧ model.reliability.toNat ≤ 97) := by
  have shown := reachedShown events
  unfold Shown at shown
  cases last : lastAnswered events with
  | none =>
    rw [last] at shown
    refine ⟨fun _ => shown,fun click chance none_ => (nomatch none_),
      fun positive => absurd shown.2 positive,.inl ?_⟩
    rw [shown.2]
    decide
  | some rating =>
    obtain ⟨click,chance⟩ := rating
    rw [last] at shown
    obtain ⟨request,response,showing⟩ := shown
    have own : response.isValid = decide request.Valid := responseVerdict showing.rated
    have rating : RatingOf request chance (after handle Page.opened events).model.reliability := by
      rw [showing.bar]
      exact responseRating showing.rated
    refine ⟨fun none_ => (nomatch none_),?_,?_,ratingRange rating⟩
    · intro click' chance' same
      cases same
      exact ⟨request,response,showing.clicked,showing.rated,showing.bar,showing.chip,own,rating⟩
    · intro positive
      rw [showing.chip, own]
      exact congrArg some (decide_eq_true (ratingValid rating positive))

end MonitoringForDevOps.UI.CustomerPage
