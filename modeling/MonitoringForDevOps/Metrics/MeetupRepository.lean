import MonitoringForDevOps.Common.Models
import MonitoringForDevOps.Library.LabelledCounter
import MonitoringForDevOps.Library.Runs
import MonitoringForDevOps.Metrics.MeticsInterceptor

/-! The meetup store, its labelled counter and its gauge, in the OpenTelemetry and the
prometheus-net application. The counters are those of the metrics library in use, and
ToDateTime is protobuf's; both applications do the same with them. -/
namespace MonitoringForDevOps.Metrics.Meetups
open Library Common Runs

/- A DateTime in ticks of 100 ns. -/
abbrev Ticks := ℤ

structure Timestamp where
  seconds : Int64
  nanos : Int32
  deriving DecidableEq

structure ScheduleMeetupRequest where
  title : String
  speaker : String
  location : String
  start : Option Timestamp
  end_ : Option Timestamp
  deriving DecidableEq

structure Meetup where
  title : String
  speaker : String
  location : String
  start : Ticks
  end_ : Ticks
  deriving DecidableEq

structure MyMetrics (κ : Type) [DecidableEq κ] where
  meetupsCount : LabelledCounter κ
  labels : String → κ
  distinct : Function.Injective labels

def openTelemetry (meetupsCount : LabelledCounter TagList) : MyMetrics TagList where
  meetupsCount := meetupsCount
  labels := fun location => [("Location",location)]
  distinct := fun a b same => by simpa using same

def prometheusNet (meetupsCount : LabelledCounter (List String)) : MyMetrics (List String) where
  meetupsCount := meetupsCount
  labels := fun location => [location]
  distinct := fun a b same => by simpa using same

inductive Call where
  | delaying
  | returned (createdAt : Ticks)
  | threw (e : Exn)
  deriving DecidableEq

/- A scrape observes meetup_in_future through the callback of the OpenTelemetry gauge.
In prometheus-net, MetricsService sets the gauge to the same count. -/
inductive Event where
  | schedules (request : ScheduleMeetupRequest)
  | resumes (call : ℕ)
  | ticks (elapsed : ℕ)
  | observes (elapsed : List ℕ)
  deriving DecidableEq

/- meetups.Count(x => x.Start > DateTime.UtcNow): the clock is read for each meetup
and may have moved on since the one before. -/
def countInFuture : List Meetup → Ticks → List ℕ → ℕ × Ticks
  | [], utcNow, _ => (0,utcNow)
  | x :: meetups, utcNow, elapsed =>
      let now := utcNow + elapsed.headD 0
      let rest := countInFuture meetups now elapsed.tail
      (if x.start > now then rest.1 + 1 else rest.1,rest.2)

section Services
variable {κ : Type} [DecidableEq κ] (metrics : MyMetrics κ)
variable (toDateTime : Timestamp → Except Exn Ticks)

structure MeetupRepository where
  meetups : List Meetup
  meetupsCount : metrics.meetupsCount.State

def addMeetup (title speaker location : String) (start end_ : Ticks)
    (repository : MeetupRepository metrics) : MeetupRepository metrics where
  meetups := repository.meetups ++ [⟨title,speaker,location,start,end_⟩]
  meetupsCount :=
    metrics.meetupsCount.add repository.meetupsCount 1 (metrics.labels location)

def convert : Option Timestamp → Except Exn Ticks
  | none => .error .nullReference
  | some timestamp => toDateTime timestamp

def dateTimes (request : ScheduleMeetupRequest) : Except Exn (Ticks × Ticks) := do
  let start ← convert toDateTime request.start
  let end_ ← convert toDateTime request.end_
  return (start,end_)

/- The first segment of a call, up to the delay inside AddMeetup. -/
def scheduleMeetup (request : ScheduleMeetupRequest) (repository : MeetupRepository metrics) :
    MeetupRepository metrics × Call :=
  match dateTimes toDateTime request with
  | .ok (start,end_) =>
      (addMeetup metrics request.title request.speaker request.location start end_ repository,
        .delaying)
  | .error e => (repository,.threw e)

structure Server where
  repository : MeetupRepository metrics
  utcNow : Ticks
  calls : List Call
  meetupInFuture : Option ℕ

def Server.started (utcNow : Ticks) : Server metrics :=
  ⟨⟨[],metrics.meetupsCount.zero⟩,utcNow,[],none⟩

variable {metrics}

def Server.observe (s : Server metrics) (elapsed : List ℕ) : ℕ × Ticks :=
  countInFuture s.repository.meetups s.utcNow elapsed

def Server.next (s : Server metrics) : Event → Server metrics
  | .schedules request =>
      let (repository,call) := scheduleMeetup metrics toDateTime request s.repository
      { s with repository := repository, calls := s.calls ++ [call] }
  | .resumes call =>
      match s.calls[call]? with
      | some .delaying => { s with calls := s.calls.set call (.returned s.utcNow) }
      | _ => s
  | .ticks elapsed => { s with utcNow := s.utcNow + elapsed }
  | .observes elapsed =>
      let (value,utcNow) := s.observe elapsed
      { s with utcNow := utcNow, meetupInFuture := some value }

def Server.meetupTotal (s : Server metrics) (location : String) : ℕ :=
  metrics.meetupsCount.total s.repository.meetupsCount (metrics.labels location)

def Server.after (start : Server metrics) (events : List Event) : Server metrics :=
  Runs.after (Server.next toDateTime) start events

def Succeeds (request : ScheduleMeetupRequest) : Prop :=
  ∃ times, dateTimes toDateTime request = .ok times

theorem countAtMost (meetups : List Meetup) (utcNow : Ticks) (elapsed : List ℕ) :
    (countInFuture meetups utcNow elapsed).1 ≤ meetups.length := by
  induction meetups generalizing utcNow elapsed with
  | nil => exact Nat.le_refl 0
  | cons x meetups ih =>
    have rest := ih (utcNow + elapsed.headD 0) elapsed.tail
    simp only [countInFuture, List.length_cons]
    split
    · exact Nat.succ_le_succ rest
    · exact Nat.le_succ_of_le rest

theorem clockMoved (utcNow : Ticks) (elapsed : ℕ) : utcNow ≤ utcNow + elapsed :=
  le_add_of_nonneg_right (Int.natCast_nonneg elapsed)

theorem clockAfterCount (meetups : List Meetup) (utcNow : Ticks) (elapsed : List ℕ) :
    utcNow ≤ (countInFuture meetups utcNow elapsed).2 := by
  induction meetups generalizing utcNow elapsed with
  | nil => exact le_rfl
  | cons x meetups ih =>
    have rest := ih (utcNow + elapsed.headD 0) elapsed.tail
    exact (clockMoved utcNow (elapsed.headD 0)).trans rest

theorem countLater (meetups : List Meetup) {utcNow utcLater : Ticks} {elapsed : List ℕ}
    (elapsedLater : List ℕ) (later : (countInFuture meetups utcNow elapsed).2 ≤ utcLater) :
    (countInFuture meetups utcLater elapsedLater).1 ≤ (countInFuture meetups utcNow elapsed).1 := by
  induction meetups generalizing utcNow utcLater elapsed elapsedLater with
  | nil => exact Nat.le_refl 0
  | cons x meetups ih =>
    simp only [countInFuture] at later ⊢
    have clock := clockAfterCount meetups (utcNow + elapsed.headD 0) elapsed.tail
    have moved := clockMoved utcLater (elapsedLater.headD 0)
    have rest := ih elapsedLater.tail (later.trans moved)
    split
    · rename_i stillAhead
      have ahead : x.start > utcNow + elapsed.headD 0 :=
        lt_of_le_of_lt ((clock.trans later).trans moved) stillAhead
      rw [if_pos ahead]
      exact Nat.succ_le_succ rest
    · split
      · exact Nat.le_succ_of_le rest
      · exact rest

theorem scheduleOk {request : ScheduleMeetupRequest} {start end_ : Ticks}
    (ok : dateTimes toDateTime request = .ok (start,end_))
    (repository : MeetupRepository metrics) :
    scheduleMeetup metrics toDateTime request repository =
      (addMeetup metrics request.title request.speaker request.location start end_ repository,
        .delaying) := by
  simp only [scheduleMeetup, ok]

theorem scheduleError {request : ScheduleMeetupRequest} {e : Exn}
    (error : dateTimes toDateTime request = .error e) (repository : MeetupRepository metrics) :
    scheduleMeetup metrics toDateTime request repository = (repository,.threw e) := by
  simp only [scheduleMeetup, error]

theorem nextRepository (s : Server metrics) (event : Event) :
    (s.next toDateTime event).repository = s.repository ∨
      ∃ request start end_, event = .schedules request ∧
        dateTimes toDateTime request = .ok (start,end_) ∧
        (s.next toDateTime event).repository =
          addMeetup metrics request.title request.speaker request.location start end_
            s.repository := by
  cases event with
  | schedules request =>
    cases times : dateTimes toDateTime request with
    | error e =>
      left
      simp only [Server.next, scheduleError toDateTime times]
    | ok pair =>
      obtain ⟨start,end_⟩ := pair
      right
      refine ⟨request,start,end_,rfl,times,?_⟩
      simp only [Server.next, scheduleOk toDateTime times]
  | resumes call =>
    left
    simp only [Server.next]
    split <;> rfl
  | ticks elapsed => exact .inl rfl
  | observes elapsed => exact .inl rfl

theorem nextClock (s : Server metrics) (event : Event) :
    s.utcNow ≤ (s.next toDateTime event).utcNow := by
  cases event with
  | schedules request => exact le_rfl
  | resumes call =>
    simp only [Server.next]
    split <;> exact le_rfl
  | ticks elapsed => exact clockMoved s.utcNow elapsed
  | observes elapsed => exact clockAfterCount s.repository.meetups s.utcNow elapsed

theorem nextObserved (s : Server metrics) (event : Event) :
    (s.next toDateTime event).meetupInFuture = s.meetupInFuture ∨
      ∃ elapsed, (s.next toDateTime event).meetupInFuture =
        some (countInFuture s.repository.meetups s.utcNow elapsed).1 := by
  cases event with
  | schedules request => exact .inl rfl
  | resumes call =>
    left
    simp only [Server.next]
    split <;> rfl
  | ticks elapsed => exact .inl rfl
  | observes elapsed => exact .inr ⟨elapsed,rfl⟩

theorem nextThrew {s : Server metrics} {event : Event} {call : ℕ} {e : Exn}
    (threw : (s.next toDateTime event).calls[call]? = some (.threw e)) :
    s.calls[call]? = some (.threw e) ∨
      call = s.calls.length ∧ (s.next toDateTime event).repository = s.repository := by
  cases event with
  | schedules request =>
    simp only [Server.next] at threw ⊢
    rw [List.getElem?_append] at threw
    split at threw
    · exact .inl threw
    · rename_i arrived
      obtain ⟨inside,_⟩ := List.getElem?_eq_some_iff.mp threw
      simp only [List.length_singleton] at inside
      have own : call = s.calls.length := by omega
      subst own
      cases times : dateTimes toDateTime request with
      | ok pair =>
        obtain ⟨start,end_⟩ := pair
        rw [scheduleOk toDateTime times] at threw
        simp at threw
      | error e' => exact .inr ⟨rfl,by rw [scheduleError toDateTime times]⟩
  | resumes resumed =>
    left
    simp only [Server.next] at threw
    split at threw
    · rw [List.getElem?_set] at threw
      split at threw
      · split at threw
        · cases threw
        · cases threw
      · exact threw
    · exact threw
  | ticks elapsed => exact .inl threw
  | observes elapsed => exact .inl threw

structure Server.Agrees (s : Server metrics) : Prop where
  counts : metrics.meetupsCount.Counts s.repository.meetupsCount
    (s.repository.meetups.map (fun meetup => metrics.labels meetup.location))
  observed : ∀ value, s.meetupInFuture = some value → value ≤ s.repository.meetups.length

theorem nextAgrees {s : Server metrics} (agrees : s.Agrees) (event : Event) :
    (s.next toDateTime event).Agrees := by
  have observed : ∀ value, (s.next toDateTime event).meetupInFuture = some value →
      value ≤ s.repository.meetups.length := by
    intro value found
    rcases nextObserved toDateTime s event with same | ⟨elapsed,counted⟩
    · exact agrees.observed value (same.symm.trans found)
    · cases counted.symm.trans found
      exact countAtMost s.repository.meetups s.utcNow elapsed
  rcases nextRepository toDateTime s event with same | ⟨request,start,end_,_,_,added⟩
  · rw [← same] at observed
    refine ⟨?_,observed⟩
    rw [same]
    exact agrees.counts
  · refine ⟨?_,?_⟩
    · rw [added]
      simp only [addMeetup, List.map_append, List.map_singleton]
      exact metrics.meetupsCount.countsAdd agrees.counts _
    · intro value found
      rw [added]
      simp only [addMeetup, List.length_append]
      exact (observed value found).trans (Nat.le_add_right _ _)

theorem reachedAgrees (utcNow : Ticks) (events : List Event) :
    ((Server.started metrics utcNow).after toDateTime events).Agrees := by
  have started : (Server.started metrics utcNow).Agrees :=
    ⟨metrics.meetupsCount.countsZero,fun _ none => by cases none⟩
  exact afterInvariant (Server.next toDateTime) Server.Agrees started
    (fun _ event agrees => nextAgrees toDateTime agrees event) events

theorem totalStored {s : Server metrics} (agrees : s.Agrees) (location : String) :
    s.meetupTotal location =
      s.repository.meetups.countP (fun meetup => meetup.location = location) := by
  rw [Server.meetupTotal, agrees.counts, List.count, List.countP_map]
  refine List.countP_congr ?_
  intro meetup _
  simp [metrics.distinct.eq_iff]

theorem sumStored {s : Server metrics} (agrees : s.Agrees) :
    metrics.meetupsCount.sum s.repository.meetupsCount = s.repository.meetups.length := by
  rw [metrics.meetupsCount.sumCounts agrees.counts, List.length_map]

theorem quietAfter (s : Server metrics) {events : List Event}
    (quiet : ∀ request, .schedules request ∈ events → ¬ Succeeds toDateTime request) :
    (s.after toDateTime events).repository = s.repository ∧
      s.utcNow ≤ (s.after toDateTime events).utcNow := by
  induction events using List.reverseRecOn with
  | nil => exact ⟨rfl,le_rfl⟩
  | append_singleton events event ih =>
    obtain ⟨kept,later⟩ := ih (fun request mem => quiet request (List.mem_append_left _ mem))
    have clock := nextClock toDateTime (s.after toDateTime events) event
    have step := nextRepository toDateTime (s.after toDateTime events) event
    unfold Server.after at kept later clock step ⊢
    rw [afterSnoc]
    refine ⟨?_,later.trans clock⟩
    rcases step with same | ⟨request,start,end_,scheduled,times,_⟩
    · exact same.trans kept
    · subst scheduled
      exact absurd ⟨_,times⟩ (quiet request (List.mem_append_right _ List.mem_cons_self))

variable (metrics) in
def MetricsAgree : Prop :=
  ∀ (utcNow : Ticks) (events : List Event),
    let s := (Server.started metrics utcNow).after toDateTime events
    (∀ location, s.meetupTotal location =
      s.repository.meetups.countP (fun meetup => meetup.location = location)) ∧
    (∀ event (call : ℕ) e, (s.next toDateTime event).calls[call]? = some (.threw e) →
      s.calls[call]? = some (.threw e) ∨
        call = s.calls.length ∧ (s.next toDateTime event).repository = s.repository) ∧
    (∀ value, s.meetupInFuture = some value →
      value ≤ metrics.meetupsCount.sum s.repository.meetupsCount) ∧
    ∀ elapsed between elapsed' value value',
      let first := s.next toDateTime (.observes elapsed)
      let second := (first.after toDateTime between).next toDateTime (.observes elapsed')
      (∀ request, .schedules request ∈ between → ¬ Succeeds toDateTime request) →
      first.meetupInFuture = some value → second.meetupInFuture = some value' → value' ≤ value

theorem metricsAgree : MetricsAgree metrics toDateTime := by
  intro utcNow events s
  have agrees : s.Agrees := reachedAgrees toDateTime utcNow events
  refine ⟨totalStored agrees,?_,?_,?_⟩
  · intro event call e threw
    exact nextThrew toDateTime threw
  · intro value found
    rw [sumStored agrees]
    exact agrees.observed value found
  · intro elapsed between elapsed' value value' first second quiet earlier later
    obtain ⟨kept,clock⟩ := quietAfter toDateTime first quiet
    cases earlier
    cases later
    have fewer := countLater s.repository.meetups elapsed' clock
    simp only [kept]
    exact fewer

end Services

theorem meetupMetricsAgree (toDateTime : Timestamp → Except Exn Ticks) :
    (∀ meetupsCount, MetricsAgree (openTelemetry meetupsCount) toDateTime) ∧
      ∀ meetupsCount, MetricsAgree (prometheusNet meetupsCount) toDateTime :=
  ⟨fun _ => metricsAgree toDateTime,fun _ => metricsAgree toDateTime⟩

/- Timestamp.ToDateTime: the Unix epoch plus the seconds and nanoseconds, if both are
in the ranges of a normalized timestamp of the years 1 to 9999. -/
def unixDateTime (timestamp : Timestamp) : Except Exn Ticks :=
  let seconds := timestamp.seconds.toInt
  let nanos := timestamp.nanos.toInt
  if 0 ≤ nanos ∧ nanos ≤ 999999999 ∧ -62135596800 ≤ seconds ∧ seconds ≤ 253402300799
  then .ok (621355968000000000 + seconds * 10000000 + nanos / 100)
  else .error .invalidOperation

theorem meetupMetricsAgreeLeipzig :
    ((Server.started (openTelemetry (.measured TagList)) 0).after unixDateTime
      [.schedules ⟨"Monitoring","Frank","Leipzig",some ⟨0,0⟩,some ⟨7200,0⟩⟩,
        .schedules ⟨"Monitoring","Frank","Leipzig",some ⟨0,0⟩,none⟩,
        .schedules ⟨"Monitoring","Frank","Leipzig",some ⟨0,-1⟩,some ⟨7200,0⟩⟩]).meetupTotal
      "Leipzig" = 1 := by
  rw [((meetupMetricsAgree unixDateTime).1 (.measured TagList) 0 _).1 "Leipzig"]
  decide

end MonitoringForDevOps.Metrics.Meetups
