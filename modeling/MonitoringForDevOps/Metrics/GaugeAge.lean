import MonitoringForDevOps.Metrics.MeetupRepository

/-! How far meetup_in_future may be off between two observations. The store only grows,
in the order of the accepted requests, so a gauge of some age misses the meetups added
since and still counts those that have begun. -/
namespace MonitoringForDevOps.Metrics.Meetups
open Library Common Runs

section Stored
variable {κ : Type} [DecidableEq κ] {metrics : MyMetrics κ}
variable (toDateTime : Timestamp → Except Exn Ticks)

/- The meetup that an event adds to the store. -/
def storedBy : Event → Option Meetup
  | .schedules request =>
      match dateTimes toDateTime request with
      | .ok (start,end_) => some ⟨request.title,request.speaker,request.location,start,end_⟩
      | .error _ => none
  | _ => none

theorem nextStored (s : Server metrics) (event : Event) :
    (s.next toDateTime event).repository.meetups =
      s.repository.meetups ++ (storedBy toDateTime event).toList := by
  cases event with
  | schedules request =>
    simp only [Server.next, scheduleMeetup, storedBy]
    cases dateTimes toDateTime request with
    | ok times => rfl
    | error e => exact (List.append_nil _).symm
  | resumes call =>
    simp only [Server.next]
    split <;> exact (List.append_nil _).symm
  | ticks elapsed => exact (List.append_nil _).symm
  | observes elapsed => exact (List.append_nil _).symm

theorem storedAfter (s : Server metrics) (events : List Event) :
    (s.after toDateTime events).repository.meetups =
      s.repository.meetups ++ events.filterMap (storedBy toDateTime) := by
  unfold Server.after
  induction events using List.reverseRecOn with
  | nil => exact (List.append_nil _).symm
  | append_singleton events event ih =>
    rw [afterSnoc, nextStored, ih, List.append_assoc, List.filterMap_append]
    cases stored : storedBy toDateTime event <;> simp [stored]

theorem clockAfter (s : Server metrics) (events : List Event) :
    s.utcNow ≤ (s.after toDateTime events).utcNow := by
  unfold Server.after
  induction events using List.reverseRecOn with
  | nil => exact le_rfl
  | append_singleton events event ih =>
    rw [afterSnoc]
    exact ih.trans (nextClock toDateTime _ event)

/- Between observations the gauge keeps its value. -/
theorem gaugeKept (s : Server metrics) {events : List Event}
    (unobserved : ∀ elapsed, .observes elapsed ∉ events) :
    (s.after toDateTime events).meetupInFuture = s.meetupInFuture := by
  unfold Server.after
  induction events using List.reverseRecOn with
  | nil => rfl
  | append_singleton events event ih =>
    have kept := ih fun elapsed mem => unobserved elapsed (List.mem_append_left _ mem)
    rw [afterSnoc, ← kept]
    cases event with
    | schedules request => rfl
    | resumes call =>
      simp only [Server.next]
      split <;> rfl
    | ticks elapsed => rfl
    | observes elapsed =>
      exact absurd (List.mem_append_right _ List.mem_cons_self) (unobserved elapsed)

end Stored

/- The meetups that lie ahead at one instant, and those that begin in a time. -/
def ahead (now : Ticks) (meetups : List Meetup) : ℕ :=
  meetups.countP (fun meetup => decide (meetup.start > now))

def begunBetween (earlier later : Ticks) (meetups : List Meetup) : ℕ :=
  meetups.countP (fun meetup => decide (meetup.start > earlier ∧ meetup.start ≤ later))

theorem aheadCons (now : Ticks) (meetup : Meetup) (meetups : List Meetup) :
    ahead now (meetup :: meetups) = ahead now meetups + if meetup.start > now then 1 else 0 := by
  unfold ahead
  rw [List.countP_cons]
  simp only [decide_eq_true_eq]

theorem begunCons (earlier later : Ticks) (meetup : Meetup) (meetups : List Meetup) :
    begunBetween earlier later (meetup :: meetups) = begunBetween earlier later meetups +
      if meetup.start > earlier ∧ meetup.start ≤ later then 1 else 0 := by
  unfold begunBetween
  rw [List.countP_cons]
  simp only [decide_eq_true_eq]

theorem aheadSplit {earlier later : Ticks} (ordered : earlier ≤ later) (meetups : List Meetup) :
    ahead earlier meetups = ahead later meetups + begunBetween earlier later meetups := by
  induction meetups with
  | nil => rfl
  | cons meetup meetups ih =>
    rw [aheadCons, aheadCons, begunCons, ih]
    by_cases future : meetup.start > later
    · have before : meetup.start > earlier := lt_of_le_of_lt ordered future
      have notBegun : ¬ (meetup.start > earlier ∧ meetup.start ≤ later) := fun both =>
        absurd both.2 (not_le.mpr future)
      rw [if_pos before, if_pos future, if_neg notBegun]
      omega
    · rw [if_neg future]
      by_cases before : meetup.start > earlier
      · rw [if_pos before, if_pos ⟨before,not_lt.mp future⟩]
        omega
      · rw [if_neg before, if_neg (fun both => before both.1)]
        omega

/- A count that takes time lies between the counts at its ends. -/
theorem countBetween (meetups : List Meetup) (utcNow : Ticks) (elapsed : List ℕ) :
    ahead (countInFuture meetups utcNow elapsed).2 meetups ≤
        (countInFuture meetups utcNow elapsed).1 ∧
      (countInFuture meetups utcNow elapsed).1 ≤ ahead utcNow meetups := by
  induction meetups generalizing utcNow elapsed with
  | nil => exact ⟨Nat.le_refl 0,Nat.le_refl 0⟩
  | cons meetup meetups ih =>
    obtain ⟨below,above⟩ := ih (utcNow + elapsed.headD 0) elapsed.tail
    have clock := clockMoved utcNow (elapsed.headD 0)
    have later := clockAfterCount meetups (utcNow + elapsed.headD 0) elapsed.tail
    have fewer := aheadSplit clock meetups
    simp only [countInFuture]
    rw [aheadCons, aheadCons]
    by_cases counted : meetup.start > utcNow + elapsed.headD 0
    · have before : meetup.start > utcNow := lt_of_le_of_lt clock counted
      rw [if_pos counted, if_pos before]
      refine ⟨?_,by omega⟩
      split <;> omega
    · have past : ¬ meetup.start >
          (countInFuture meetups (utcNow + elapsed.headD 0) elapsed.tail).2 := fun future =>
        counted (lt_of_le_of_lt later future)
      rw [if_neg counted, if_neg past]
      refine ⟨by omega,?_⟩
      split <;> omega

section Age
variable {κ : Type} [DecidableEq κ] {metrics : MyMetrics κ}
variable (toDateTime : Timestamp → Except Exn Ticks)

variable (metrics) in
def GaugeAges : Prop :=
  ∀ (utcNow : Ticks) (events : List Event) (elapsed : List ℕ) (since : List Event),
    (∀ later, .observes later ∉ since) →
    let s := (Server.started metrics utcNow).after toDateTime events
    let now := (s.next toDateTime (.observes elapsed)).after toDateTime since
    let stored := events.filterMap (storedBy toDateTime)
    let added := since.filterMap (storedBy toDateTime)
    now.repository.meetups = stored ++ added ∧
    ∃ value, now.meetupInFuture = some value ∧
      ahead now.utcNow now.repository.meetups ≤ value + ahead now.utcNow added ∧
      value + ahead now.utcNow added ≤
        ahead now.utcNow now.repository.meetups + begunBetween s.utcNow now.utcNow stored

theorem gaugeAges : GaugeAges metrics toDateTime := by
  intro utcNow events elapsed since unobserved s now stored added
  have store : s.repository.meetups = stored := storedAfter toDateTime _ events
  have later : now.repository.meetups = stored ++ added := by
    rw [← store]
    exact storedAfter toDateTime _ since
  have gauge : now.meetupInFuture = some (countInFuture s.repository.meetups s.utcNow elapsed).1 :=
    gaugeKept toDateTime _ unobserved
  have clock : (countInFuture s.repository.meetups s.utcNow elapsed).2 ≤ now.utcNow :=
    clockAfter toDateTime (s.next toDateTime (.observes elapsed)) since
  have taken := clockAfterCount s.repository.meetups s.utcNow elapsed
  have bounds := countBetween s.repository.meetups s.utcNow elapsed
  have fewer := aheadSplit clock stored
  have all := aheadSplit (taken.trans clock) stored
  rw [store] at bounds gauge fewer
  have both : ahead now.utcNow (stored ++ added) =
      ahead now.utcNow stored + ahead now.utcNow added := List.countP_append
  refine ⟨later,_,gauge,?_,?_⟩
  · rw [later, both]
    omega
  · rw [later, both]
    omega

end Age

theorem meetupGaugeAges (toDateTime : Timestamp → Except Exn Ticks) :
    (∀ meetupsCount, GaugeAges (openTelemetry meetupsCount) toDateTime) ∧
      ∀ meetupsCount, GaugeAges (prometheusNet meetupsCount) toDateTime :=
  ⟨fun _ => gaugeAges toDateTime,fun _ => gaugeAges toDateTime⟩

end MonitoringForDevOps.Metrics.Meetups
