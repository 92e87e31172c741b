import MonitoringForDevOps.Library.Refinement
import MonitoringForDevOps.Metrics.CallTags
import MonitoringForDevOps.Metrics.MeetupRepository

/-! The calls of the demo service through the gRPC interceptor. A greeting is measured
by a timer of its own inside the interceptor's, and a meetup is counted in the store
before the interceptor counts its request. -/
namespace MonitoringForDevOps.Metrics.DemoService
open Library Common Runs Interleaving Refinement Meetups

inductive Method where
  | greetAttendee (names : List String)
  | scheduleMeetup (request : ScheduleMeetupRequest)

def Method.path : Method → String
  | .greetAttendee _ => Metrics.path "demo.DemoService" "GreetAttendee"
  | .scheduleMeetup _ => Metrics.path "demo.DemoService" "ScheduleMeetup"

def Method.tags (method : Method) : TagList := tagsOf method.path

inductive Response where
  | greetAttendeeResponse (message : String)
  | scheduleMeetupResponse (createdAt : Ticks)

def greeting (names : List String) : String := "Hallo to " ++ ",".intercalate names

/- How far a call is. Its timers are the timestamps at which they were started, and a
greeted call keeps the sample that it has recorded. -/
inductive Phase where
  | arriving
  | intercepted (timer : ℕ)
  | greeting (timer greetingTimer : ℕ) (message : String)
  | greeted (timer sample : ℕ) (message : String)
  | delaying (timer : ℕ)
  | faulted (timer : ℕ) (e : Exn)
  | measured (response : Response)
  | returned (response : Response)
  | threw (e : Exn)

structure Call where
  method : Method
  phase : Phase

section Calls
variable (meetupsCount : LabelledCounter TagList)
variable (toDateTime : Timestamp → Except Exn Ticks)

/- What the calls share. Stopwatch reads a timestamp that only grows. -/
structure Host where
  instruments : Instruments
  greetingDuration : List (ℕ × TagList)
  repository : MeetupRepository (openTelemetry meetupsCount)
  timestamp : ℕ

variable {meetupsCount}

def Host.passed (s : Host meetupsCount) (elapsed : ℕ) : Host meetupsCount :=
  { s with timestamp := s.timestamp + elapsed }

def Host.recordGreeting (s : Host meetupsCount) (elapsed : ℕ) : Host meetupsCount :=
  { s with greetingDuration := s.greetingDuration ++ [(elapsed,[])] }

def Host.record (s : Host meetupsCount) (elapsed : ℕ) (tags : TagList) : Host meetupsCount :=
  { s with instruments := s.instruments.record elapsed tags }

def Host.add (s : Host meetupsCount) (delta : ℤ) (tags : TagList) : Host meetupsCount :=
  { s with instruments := s.instruments.add delta tags }

/- One call. Some time passes before each step, and every way out of the service's
method passes through the interceptor's finally. -/
inductive UnaryServerHandler :
    ℕ → Host meetupsCount → Call → Host meetupsCount → Call → Prop where
  | begins {i s method} (elapsed : ℕ) :
      UnaryServerHandler i s ⟨method,.arriving⟩ (s.passed elapsed)
        ⟨method,.intercepted (s.timestamp + elapsed)⟩
  | greets {i s names timer} (elapsed : ℕ) :
      UnaryServerHandler i s ⟨.greetAttendee names,.intercepted timer⟩ (s.passed elapsed)
        ⟨.greetAttendee names,.greeting timer (s.timestamp + elapsed) (greeting names)⟩
  | greeted {i s names timer greetingTimer message} (elapsed : ℕ) :
      UnaryServerHandler i s ⟨.greetAttendee names,.greeting timer greetingTimer message⟩
        ((s.passed elapsed).recordGreeting (s.timestamp + elapsed - greetingTimer))
        ⟨.greetAttendee names,.greeted timer (s.timestamp + elapsed - greetingTimer) message⟩
  | completes {i s names timer sample message} (elapsed : ℕ) :
      UnaryServerHandler i s ⟨.greetAttendee names,.greeted timer sample message⟩
        ((s.passed elapsed).record (s.timestamp + elapsed - timer)
          (Method.greetAttendee names).tags)
        ⟨.greetAttendee names,.measured (.greetAttendeeResponse message)⟩
  | schedules {i s request timer repository} (elapsed : ℕ)
      (adds : scheduleMeetup _ toDateTime request s.repository = (repository,.delaying)) :
      UnaryServerHandler i s ⟨.scheduleMeetup request,.intercepted timer⟩
        { s.passed elapsed with repository := repository }
        ⟨.scheduleMeetup request,.delaying timer⟩
  | faults {i s request timer repository e} (elapsed : ℕ)
      (throws : scheduleMeetup _ toDateTime request s.repository = (repository,.threw e)) :
      UnaryServerHandler i s ⟨.scheduleMeetup request,.intercepted timer⟩
        { s.passed elapsed with repository := repository }
        ⟨.scheduleMeetup request,.faulted timer e⟩
  | created {i s request timer} (elapsed : ℕ) (utcNow : Ticks) :
      UnaryServerHandler i s ⟨.scheduleMeetup request,.delaying timer⟩
        ((s.passed elapsed).record (s.timestamp + elapsed - timer)
          (Method.scheduleMeetup request).tags)
        ⟨.scheduleMeetup request,.measured (.scheduleMeetupResponse utcNow)⟩
  | throws {i s request timer e} (elapsed : ℕ) :
      UnaryServerHandler i s ⟨.scheduleMeetup request,.faulted timer e⟩
        ((s.passed elapsed).record (s.timestamp + elapsed - timer)
          (Method.scheduleMeetup request).tags)
        ⟨.scheduleMeetup request,.threw e⟩
  | counts {i s method response} (elapsed : ℕ) :
      UnaryServerHandler i s ⟨method,.measured response⟩
        ((s.passed elapsed).add 1 method.tags) ⟨method,.returned response⟩

variable (meetupsCount) in
abbrev Server := Config (Host meetupsCount) Call

variable (meetupsCount) in
def started (timestamp : ℕ) (methods : List Method) : Server meetupsCount :=
  ⟨⟨⟨[],[]⟩,[],⟨[],meetupsCount.zero⟩,timestamp⟩,methods.map (⟨·,.arriving⟩)⟩

def greetTags : TagList := (Method.greetAttendee []).tags

def scheduleTags : TagList := (Method.scheduleMeetup ⟨"","","",none,none⟩).tags

def Host.greetingBucket (s : Host meetupsCount) (bound : ℕ) : ℤ :=
  s.greetingDuration.countP (fun sample => sample.1 ≤ bound)

def Host.serverBucket (s : Host meetupsCount) (tags : TagList) (bound : ℕ) : ℤ :=
  s.instruments.grpcServerDuration.countP (fun sample => sample.2 = tags ∧ sample.1 ≤ bound)

def Host.greetings (s : Host meetupsCount) : ℤ := s.greetingDuration.length

def Host.durations (s : Host meetupsCount) (tags : TagList) : ℤ :=
  s.instruments.grpcServerDuration.countP (fun sample => sample.2 = tags)

def Host.received (s : Host meetupsCount) (tags : TagList) : ℤ :=
  ((s.instruments.grpcCallCounter.filter (fun added => added.2 = tags)).map Prod.fst).sum

def Host.meetupTotal (s : Host meetupsCount) : ℤ := meetupsCount.sum s.repository.meetupsCount

def Call.greetedWithin (bound : ℕ) : Call → Bool
  | ⟨_,.greeted _ sample _⟩ => sample ≤ bound
  | _ => false

def Call.greeted : Call → Bool
  | ⟨_,.greeted _ _ _⟩ => true
  | _ => false

def Call.uncounted : Call → Bool
  | ⟨_,.delaying _⟩ => true
  | ⟨.scheduleMeetup _,.measured _⟩ => true
  | _ => false

def Call.delaying : Call → Bool
  | ⟨_,.delaying _⟩ => true
  | _ => false

def Call.threw : Call → Bool
  | ⟨_,.threw _⟩ => true
  | _ => false

def Call.intercepted (call : Call) : Metrics.Call :=
  match call.phase with
  | .arriving => .arriving call.method.path
  | .measured _ => .measured call.method.tags
  | .returned _ => .returned
  | .threw _ => .threw
  | _ => .running call.method.tags

structure Nested (c : Server meetupsCount) : Prop where
  buckets : ∀ bound, c.shared.serverBucket greetTags bound ≤ c.shared.greetingBucket bound
  greetings : c.shared.greetings = c.shared.durations greetTags + c.procs.countP Call.greeted
  requests : c.shared.meetupTotal = c.shared.received scheduleTags + c.procs.countP Call.uncounted
  durations : c.shared.durations scheduleTags + c.procs.countP Call.delaying =
    c.shared.meetupTotal + c.procs.countP Call.threw
  samples : c.shared.instruments.samples =
    (c.procs.map Call.intercepted).countP Metrics.Call.ended
  received : c.shared.instruments.received =
    (c.procs.map Call.intercepted).countP Metrics.Call.succeeded

theorem servicePart : PathPart "demo.DemoService" := ⟨by decide,by decide⟩

theorem greetAttendeePart : PathPart "GreetAttendee" := ⟨by decide,by decide⟩

theorem scheduleMeetupPart : PathPart "ScheduleMeetup" := ⟨by decide,by decide⟩

theorem greetNotSchedule : greetTags ≠ scheduleTags := by
  have greet := tagsOfPath servicePart greetAttendeePart
  have schedule := tagsOfPath servicePart scheduleMeetupPart
  simp only [greetTags, scheduleTags, Method.tags, Method.path, greet, schedule]
  decide

@[simp] theorem greetMethodTags (names : List String) :
    (Method.greetAttendee names).tags = greetTags := rfl

@[simp] theorem scheduleMethodTags (request : ScheduleMeetupRequest) :
    (Method.scheduleMeetup request).tags = scheduleTags := rfl

def Call.Timed (s : Host meetupsCount) (call : Call) : Prop :=
  match call.phase with
  | .intercepted timer => timer ≤ s.timestamp
  | .greeting timer greetingTimer _ => timer ≤ greetingTimer ∧ greetingTimer ≤ s.timestamp
  | .greeted timer sample _ => timer + sample ≤ s.timestamp
  | _ => True

theorem timedLater {s s' : Host meetupsCount} {call : Call} (timed : call.Timed s)
    (later : s.timestamp ≤ s'.timestamp) : call.Timed s' := by
  obtain ⟨method,phase⟩ := call
  cases phase with
  | intercepted timer => exact Nat.le_trans timed later
  | greeting timer greetingTimer message => exact ⟨timed.1,timed.2.trans later⟩
  | greeted timer sample message => exact Nat.le_trans timed later
  | _ => trivial

variable {toDateTime}

theorem stepClock {i l s' l'} {s : Host meetupsCount}
    (act : UnaryServerHandler toDateTime i s l s' l') :
    s.timestamp ≤ s'.timestamp := by
  cases act <;> exact Nat.le_add_right _ _

theorem stepTimed {i l s' l'} {s : Host meetupsCount}
    (act : UnaryServerHandler toDateTime i s l s' l') (timed : l.Timed s) : l'.Timed s' := by
  cases act with
  | begins elapsed => exact Nat.le_refl _
  | greets elapsed => exact ⟨Nat.le_trans timed (Nat.le_add_right _ _),Nat.le_refl _⟩
  | greeted elapsed =>
    obtain ⟨outer,inner⟩ := timed
    simp only [Call.Timed, Host.recordGreeting, Host.passed]
    omega
  | _ => trivial

theorem everyTimed {timestamp methods schedule} {c : Server meetupsCount}
    (run : Run (Step (UnaryServerHandler toDateTime)) (started meetupsCount timestamp methods)
      schedule c) : ∀ (i : ℕ) l, c.procs[i]? = some l → l.Timed c.shared := by
  refine (everyAssertion (fun _ => True) (fun _ s l => l.Timed s) trivial ?_ ?_ ?_ run).2
  · intro i l found
    obtain ⟨method,_,same⟩ := List.mem_map.mp (List.mem_of_getElem? found)
    subst same
    trivial
  · intro i s l s' l' _ timed act
    exact ⟨trivial,stepTimed act timed⟩
  · intro i j s l s' l' k _ _ _ timed act
    exact timedLater timed (stepClock act)

@[simp] theorem greetingBucketRecorded (s : Host meetupsCount) (elapsed bound : ℕ) :
    (s.recordGreeting elapsed).greetingBucket bound =
      s.greetingBucket bound + if elapsed ≤ bound then 1 else 0 := by
  by_cases within : elapsed ≤ bound <;>
    simp [Host.greetingBucket, Host.recordGreeting, within]

@[simp] theorem serverBucketRecorded (s : Host meetupsCount) (elapsed bound : ℕ)
    (own tags : TagList) :
    (s.record elapsed own).serverBucket tags bound =
      s.serverBucket tags bound + if own = tags ∧ elapsed ≤ bound then 1 else 0 := by
  by_cases counted : own = tags ∧ elapsed ≤ bound
  · simp [Host.serverBucket, Host.record, Instruments.record, counted]
  · rw [if_neg counted]
    simp [Host.serverBucket, Host.record, Instruments.record, List.countP_append, counted]

@[simp] theorem durationsRecorded (s : Host meetupsCount) (elapsed : ℕ) (own tags : TagList) :
    (s.record elapsed own).durations tags = s.durations tags + if own = tags then 1 else 0 := by
  by_cases same : own = tags <;>
    simp [Host.durations, Host.record, Instruments.record, same]

@[simp] theorem receivedAdded (s : Host meetupsCount) (delta : ℤ) (own tags : TagList) :
    (s.add delta own).received tags = s.received tags + if own = tags then delta else 0 := by
  by_cases same : own = tags <;>
    simp [Host.received, Host.add, Instruments.add, same]

@[simp] theorem greetingBucketPassed (s : Host meetupsCount) (elapsed bound : ℕ) :
    (s.passed elapsed).greetingBucket bound = s.greetingBucket bound := rfl

@[simp] theorem serverBucketPassed (s : Host meetupsCount) (elapsed bound : ℕ) (tags : TagList) :
    (s.passed elapsed).serverBucket tags bound = s.serverBucket tags bound := rfl

@[simp] theorem greetingBucketKept (s : Host meetupsCount) (elapsed bound : ℕ) (tags : TagList) :
    (s.record elapsed tags).greetingBucket bound = s.greetingBucket bound := rfl

@[simp] theorem serverBucketKept (s : Host meetupsCount) (elapsed bound : ℕ) (tags : TagList) :
    (s.recordGreeting elapsed).serverBucket tags bound = s.serverBucket tags bound := rfl

@[simp] theorem greetingsRecorded (s : Host meetupsCount) (elapsed : ℕ) :
    (s.recordGreeting elapsed).greetings = s.greetings + 1 := by
  simp [Host.greetings, Host.recordGreeting]

@[simp] theorem greetingsPassed (s : Host meetupsCount) (elapsed : ℕ) :
    (s.passed elapsed).greetings = s.greetings := rfl

@[simp] theorem greetingsKept (s : Host meetupsCount) (elapsed : ℕ) (tags : TagList) :
    (s.record elapsed tags).greetings = s.greetings := rfl

@[simp] theorem durationsPassed (s : Host meetupsCount) (elapsed : ℕ) (tags : TagList) :
    (s.passed elapsed).durations tags = s.durations tags := rfl

@[simp] theorem durationsKept (s : Host meetupsCount) (elapsed : ℕ) (tags : TagList) :
    (s.recordGreeting elapsed).durations tags = s.durations tags := rfl

/- A sample of the greeting is recorded first, and the call's own sample is no smaller. -/
theorem stepBuckets {i l s' l'} {s : Host meetupsCount} (bound : ℕ)
    (timed : l.Timed s) (act : UnaryServerHandler toDateTime i s l s' l') :
    s.greetingBucket bound - s.serverBucket greetTags bound + -(l.greetedWithin bound).toInt ≤
      s'.greetingBucket bound - s'.serverBucket greetTags bound +
        -(l'.greetedWithin bound).toInt := by
  have other : ¬ scheduleTags = greetTags := fun same => greetNotSchedule same.symm
  cases act with
  | begins elapsed => exact le_rfl
  | greets elapsed => exact le_rfl
  | @greeted names timer greetingTimer message elapsed =>
    simp only [greetingBucketRecorded, serverBucketKept, greetingBucketPassed,
      serverBucketPassed, Call.greetedWithin]
    generalize s.timestamp + elapsed - greetingTimer = sample
    by_cases within : sample ≤ bound
    · simp only [within, decide_true, if_true, Bool.toInt_true, Bool.toInt_false]
      omega
    · simp [within]
  | @completes names timer sample message elapsed =>
    have covers : sample ≤ s.timestamp + elapsed - timer := by
      have inner : timer + sample ≤ s.timestamp := timed
      omega
    simp only [greetingBucketKept, serverBucketRecorded, greetingBucketPassed,
      serverBucketPassed, greetMethodTags, true_and, Call.greetedWithin]
    generalize s.timestamp + elapsed - timer = own at covers ⊢
    by_cases within : own ≤ bound
    · have before : sample ≤ bound := covers.trans within
      simp only [within, before, decide_true, if_true, Bool.toInt_true, Bool.toInt_false]
      omega
    · by_cases before : sample ≤ bound <;> simp [within, before]
  | schedules elapsed adds => exact le_rfl
  | faults elapsed throws => exact le_rfl
  | created elapsed utcNow =>
    simp only [greetingBucketKept, serverBucketRecorded, greetingBucketPassed,
      serverBucketPassed, scheduleMethodTags, other, false_and, if_false, add_zero,
      Call.greetedWithin]
    exact le_rfl
  | throws elapsed =>
    simp only [greetingBucketKept, serverBucketRecorded, greetingBucketPassed,
      serverBucketPassed, scheduleMethodTags, other, false_and, if_false, add_zero,
      Call.greetedWithin]
    exact le_rfl
  | counts elapsed => exact le_rfl

theorem stepGreetings {i l s' l'} {s : Host meetupsCount}
    (act : UnaryServerHandler toDateTime i s l s' l') :
    s'.greetings - s'.durations greetTags + l.greeted.toInt =
      s.greetings - s.durations greetTags + l'.greeted.toInt := by
  have other : ¬ scheduleTags = greetTags := fun same => greetNotSchedule same.symm
  cases act with
  | begins elapsed => rfl
  | greets elapsed => rfl
  | greeted elapsed =>
    simp only [greetingsRecorded, durationsKept, greetingsPassed, durationsPassed, Call.greeted,
      Bool.toInt_true, Bool.toInt_false]
    omega
  | completes elapsed =>
    simp only [greetingsKept, durationsRecorded, greetingsPassed, durationsPassed,
      greetMethodTags, if_true, Call.greeted, Bool.toInt_true, Bool.toInt_false]
    omega
  | schedules elapsed adds => rfl
  | faults elapsed throws => rfl
  | created elapsed utcNow =>
    simp only [greetingsKept, durationsRecorded, greetingsPassed, durationsPassed,
      scheduleMethodTags, other, if_false, add_zero, Call.greeted]
  | throws elapsed =>
    simp only [greetingsKept, durationsRecorded, greetingsPassed, durationsPassed,
      scheduleMethodTags, other, if_false, add_zero, Call.greeted]
  | counts elapsed => rfl

theorem scheduled {request : ScheduleMeetupRequest}
    {repository repository' : MeetupRepository (openTelemetry meetupsCount)}
    (adds : scheduleMeetup _ toDateTime request repository = (repository',.delaying)) :
    ∃ start end_, repository' = addMeetup _ request.title request.speaker request.location
      start end_ repository := by
  cases times : dateTimes toDateTime request with
  | error e =>
    rw [scheduleError toDateTime times] at adds
    cases adds
  | ok pair =>
    obtain ⟨start,end_⟩ := pair
    rw [scheduleOk toDateTime times] at adds
    cases adds
    exact ⟨start,end_,rfl⟩

theorem faulted {request : ScheduleMeetupRequest} {e : Exn}
    {repository repository' : MeetupRepository (openTelemetry meetupsCount)}
    (throws : scheduleMeetup _ toDateTime request repository = (repository',.threw e)) :
    repository' = repository := by
  cases times : dateTimes toDateTime request with
  | error e =>
    rw [scheduleError toDateTime times] at throws
    cases throws
    rfl
  | ok pair =>
    rw [scheduleOk toDateTime times] at throws
    cases throws

def Host.stored (s : Host meetupsCount) : ℤ := s.repository.meetups.length

theorem storedScheduled {request : ScheduleMeetupRequest} {s : Host meetupsCount} {repository}
    (adds : scheduleMeetup _ toDateTime request s.repository = (repository,.delaying))
    (elapsed : ℕ) :
    Host.stored { s.passed elapsed with repository := repository } = s.stored + 1 := by
  obtain ⟨start,end_,added⟩ := scheduled adds
  rw [added]
  simp [Host.stored, addMeetup]

theorem storedFaulted {request : ScheduleMeetupRequest} {e : Exn} {s : Host meetupsCount}
    {repository} (throws : scheduleMeetup _ toDateTime request s.repository = (repository,.threw e))
    (elapsed : ℕ) :
    Host.stored { s.passed elapsed with repository := repository } = s.stored := by
  rw [faulted throws]
  rfl

theorem stepRequests {i l s' l'} {s : Host meetupsCount}
    (act : UnaryServerHandler toDateTime i s l s' l') :
    s'.stored - s'.received scheduleTags + l.uncounted.toInt =
      s.stored - s.received scheduleTags + l'.uncounted.toInt := by
  cases act with
  | begins elapsed => rfl
  | greets elapsed => rfl
  | greeted elapsed => rfl
  | completes elapsed => rfl
  | @schedules request timer repository elapsed adds =>
    have received : Host.received { s.passed elapsed with repository := repository } scheduleTags =
        s.received scheduleTags := rfl
    rw [storedScheduled adds, received]
    simp only [Call.uncounted, Bool.toInt_true, Bool.toInt_false]
    omega
  | @faults request timer repository e elapsed throws =>
    have received : Host.received { s.passed elapsed with repository := repository } scheduleTags =
        s.received scheduleTags := rfl
    rw [storedFaulted throws, received]
    rfl
  | created elapsed utcNow => rfl
  | throws elapsed => rfl
  | @counts method response elapsed =>
    have kept : ((s.passed elapsed).add 1 method.tags).stored = s.stored := rfl
    have before : (s.passed elapsed).received scheduleTags = s.received scheduleTags := rfl
    rw [kept, receivedAdded, before]
    cases method with
    | greetAttendee names =>
      rw [greetMethodTags, if_neg greetNotSchedule, add_zero]
      rfl
    | scheduleMeetup request =>
      rw [scheduleMethodTags, if_pos rfl]
      simp only [Call.uncounted, Bool.toInt_true, Bool.toInt_false]
      omega

theorem stepDurations {i l s' l'} {s : Host meetupsCount}
    (act : UnaryServerHandler toDateTime i s l s' l') :
    s'.stored - s'.durations scheduleTags + (-l'.delaying.toInt + l'.threw.toInt) =
      s.stored - s.durations scheduleTags + (-l.delaying.toInt + l.threw.toInt) := by
  cases act with
  | begins elapsed => rfl
  | greets elapsed => rfl
  | greeted elapsed => rfl
  | @completes names timer sample message elapsed =>
    have kept : Host.stored ((s.passed elapsed).record (s.timestamp + elapsed - timer)
        (Method.greetAttendee names).tags) = s.stored := rfl
    rw [kept, durationsRecorded, greetMethodTags, if_neg greetNotSchedule, add_zero]
    rfl
  | @schedules request timer repository elapsed adds =>
    have durations : Host.durations { s.passed elapsed with repository := repository }
        scheduleTags = s.durations scheduleTags := rfl
    rw [storedScheduled adds, durations]
    simp only [Call.delaying, Call.threw, Bool.toInt_true, Bool.toInt_false]
    omega
  | @faults request timer repository e elapsed throws =>
    have durations : Host.durations { s.passed elapsed with repository := repository }
        scheduleTags = s.durations scheduleTags := rfl
    rw [storedFaulted throws, durations]
    rfl
  | @created request timer elapsed utcNow =>
    have kept : Host.stored ((s.passed elapsed).record (s.timestamp + elapsed - timer)
        (Method.scheduleMeetup request).tags) = s.stored := rfl
    rw [kept, durationsRecorded, scheduleMethodTags, if_pos rfl, durationsPassed]
    simp only [Call.delaying, Call.threw, Bool.toInt_true, Bool.toInt_false]
    omega
  | @throws request timer e elapsed =>
    have kept : Host.stored ((s.passed elapsed).record (s.timestamp + elapsed - timer)
        (Method.scheduleMeetup request).tags) = s.stored := rfl
    rw [kept, durationsRecorded, scheduleMethodTags, if_pos rfl, durationsPassed]
    simp only [Call.delaying, Call.threw, Bool.toInt_true, Bool.toInt_false]
    omega
  | counts elapsed => rfl

def Host.Counted (s : Host meetupsCount) : Prop :=
  meetupsCount.Counts s.repository.meetupsCount
    (s.repository.meetups.map (fun meetup => (openTelemetry meetupsCount).labels meetup.location))

theorem stepCounted {i l s' l'} {s : Host meetupsCount} (counted : s.Counted)
    (act : UnaryServerHandler toDateTime i s l s' l') : s'.Counted := by
  cases act with
  | schedules elapsed adds =>
    obtain ⟨start,end_,added⟩ := scheduled adds
    rw [added]
    simp only [Host.Counted, addMeetup, List.map_append, List.map_singleton]
    exact meetupsCount.countsAdd counted _
  | faults elapsed throws =>
    rw [faulted throws]
    exact counted
  | _ => exact counted

theorem startedNone (timestamp : ℕ) (methods : List Method) (member : Call → Bool)
    (fresh : ∀ method, member ⟨method,.arriving⟩ = false) :
    (started meetupsCount timestamp methods).procs.countP member = 0 := by
  simp [started, List.countP_eq_zero, fresh]

theorem interceptorRefines : Refines (@Host.instruments meetupsCount)
    Call.intercepted (fun _ => True) (UnaryServerHandler toDateTime)
    Metrics.UnaryServerHandler := by
  intro i s l s' l' _ act
  refine ⟨trivial,?_⟩
  cases act with
  | begins elapsed => exact .inr .begins
  | completes elapsed => exact .inr (.completes _)
  | created elapsed utcNow => exact .inr (.completes _)
  | throws elapsed => exact .inr (.throws _)
  | counts elapsed => exact .inr .counts
  | _ => exact .inl ⟨rfl,rfl⟩

section Reached
variable {timestamp : ℕ} {methods : List Method} {schedule : List ℕ} {c : Server meetupsCount}

/- What is proved of the interceptor with any service holds of the demo service. -/
theorem interceptorRun (run : Run (Step (UnaryServerHandler toDateTime))
      (started meetupsCount timestamp methods) schedule c) :
    ∃ turns, turns.Sublist schedule ∧ Run (Step Metrics.UnaryServerHandler)
      (Metrics.started (methods.map Method.path)) turns
      (viewed Host.instruments Call.intercepted c) := by
  obtain ⟨_,turns,inside,seen⟩ := refinedRun interceptorRefines (fun _ _ => trivial) run
  have start : viewed Host.instruments Call.intercepted
      (started meetupsCount timestamp methods) = Metrics.started (methods.map Method.path) := by
    simp only [viewed, started, Metrics.started, List.map_map]
    rfl
  rw [start] at seen
  exact ⟨turns,inside,seen⟩

theorem bucketsNested (run : Run (Step (UnaryServerHandler toDateTime))
      (started meetupsCount timestamp methods) schedule c) (bound : ℕ) :
    c.shared.serverBucket greetTags bound ≤ c.shared.greetingBucket bound := by
  have total := neverFalls
    (fun s : Host meetupsCount => s.greetingBucket bound - s.serverBucket greetTags bound)
    (fun l => -(l.greetedWithin bound).toInt) (fun c => ∀ (i : ℕ) l, c.procs[i]? = some l →
      l.Timed c.shared) (fun _ _ run => everyTimed run)
    (fun i c l s' l' timed found act => stepBuckets bound (timed i l found) act) run
  rw [sumNegated, sumNegated,
    startedNone timestamp methods (Call.greetedWithin bound) (fun _ => rfl)] at total
  have empty : (started meetupsCount timestamp methods).shared.greetingBucket bound -
      (started meetupsCount timestamp methods).shared.serverBucket greetTags bound = 0 := rfl
  rw [empty] at total
  omega

theorem greetingsNested (run : Run (Step (UnaryServerHandler toDateTime))
      (started meetupsCount timestamp methods) schedule c) :
    c.shared.greetings = c.shared.durations greetTags + c.procs.countP Call.greeted := by
  have total := counted (fun s : Host meetupsCount => s.greetings - s.durations greetTags)
    Call.greeted (fun _ _ _ _ _ => stepGreetings) run
  rw [startedNone timestamp methods Call.greeted (fun _ => rfl)] at total
  have empty : (started meetupsCount timestamp methods).shared.greetings -
      (started meetupsCount timestamp methods).shared.durations greetTags = 0 := rfl
  rw [empty] at total
  omega

theorem totalOfStored (run : Run (Step (UnaryServerHandler toDateTime))
      (started meetupsCount timestamp methods) schedule c) :
    c.shared.meetupTotal = c.shared.stored := by
  have counted : c.shared.Counted := runInvariant (fun c => c.shared.Counted)
    meetupsCount.countsZero
    (fun _ _ _ counted step => by cases step with | move found act => exact stepCounted counted act)
    run
  rw [Host.meetupTotal, meetupsCount.sumCounts counted, List.length_map, Host.stored]

theorem requestsNested (run : Run (Step (UnaryServerHandler toDateTime))
      (started meetupsCount timestamp methods) schedule c) :
    c.shared.stored = c.shared.received scheduleTags + c.procs.countP Call.uncounted := by
  have total := counted (fun s : Host meetupsCount => s.stored - s.received scheduleTags)
    Call.uncounted (fun _ _ _ _ _ => stepRequests) run
  rw [startedNone timestamp methods Call.uncounted (fun _ => rfl)] at total
  have empty : (started meetupsCount timestamp methods).shared.stored -
      (started meetupsCount timestamp methods).shared.received scheduleTags = 0 := rfl
  rw [empty] at total
  omega

theorem durationsNested (run : Run (Step (UnaryServerHandler toDateTime))
      (started meetupsCount timestamp methods) schedule c) :
    c.shared.durations scheduleTags + c.procs.countP Call.delaying =
      c.shared.stored + c.procs.countP Call.threw := by
  have total := conserved (fun s : Host meetupsCount => s.stored - s.durations scheduleTags)
    (fun l => -l.delaying.toInt + l.threw.toInt) (fun _ => True) (fun _ _ _ => trivial)
    (fun _ _ _ _ _ _ _ act => stepDurations act) run
  simp only [List.sum_map_add, sumNegated, sumMembers] at total
  rw [startedNone timestamp methods Call.delaying (fun _ => rfl),
    startedNone timestamp methods Call.threw (fun _ => rfl)] at total
  have empty : (started meetupsCount timestamp methods).shared.stored -
      (started meetupsCount timestamp methods).shared.durations scheduleTags = 0 := rfl
  rw [empty] at total
  omega

theorem measurementsNested (run : Run (Step (UnaryServerHandler toDateTime))
      (started meetupsCount timestamp methods) schedule c) :
    Nested c ∧ ∃ turns, turns.Sublist schedule ∧ Run (Step Metrics.UnaryServerHandler)
      (Metrics.started (methods.map Method.path)) turns
      (viewed Host.instruments Call.intercepted c) := by
  obtain ⟨turns,inside,seen⟩ := interceptorRun run
  refine ⟨⟨bucketsNested run,greetingsNested run,?_,?_,samplesEnded seen,receivedSucceeded seen⟩,
    turns,inside,seen⟩
  · rw [totalOfStored run]
    exact requestsNested run
  · rw [totalOfStored run]
    exact durationsNested run

end Reached
end Calls

def greetedFrank : Server (.measured TagList) :=
  ⟨⟨⟨[],[]⟩,[(2000,[])],⟨[],LabelledCounter.zero _⟩,2011⟩,
    [⟨.greetAttendee ["Frank"],.greeted 10 2000 (greeting ["Frank"])⟩]⟩

theorem greetedFrankReached :
    Run (Step (UnaryServerHandler unixDateTime))
      (started (.measured TagList) 0 [.greetAttendee ["Frank"]]) [0,0,0] greetedFrank := by
  have first : Run (Step (UnaryServerHandler unixDateTime))
      (started (.measured TagList) 0 [.greetAttendee ["Frank"]]) [0]
      ⟨⟨⟨[],[]⟩,[],⟨[],LabelledCounter.zero _⟩,10⟩,
        [⟨.greetAttendee ["Frank"],.intercepted 10⟩]⟩ := .snoc .nil (.move rfl (.begins 10))
  have second : Run (Step (UnaryServerHandler unixDateTime))
      (started (.measured TagList) 0 [.greetAttendee ["Frank"]]) [0,0]
      ⟨⟨⟨[],[]⟩,[],⟨[],LabelledCounter.zero _⟩,11⟩,
        [⟨.greetAttendee ["Frank"],.greeting 10 11 (greeting ["Frank"])⟩]⟩ :=
    .snoc first (.move rfl (.greets 1))
  exact .snoc second (.move rfl (.greeted 2000))

theorem measurementsNestedFrank :
    greetedFrank.shared.greetings = greetedFrank.shared.durations greetTags + 1 ∧
    ∃ turns, turns.Sublist [0,0,0] ∧ Run (Step Metrics.UnaryServerHandler)
      (Metrics.started [(Method.greetAttendee ["Frank"]).path]) turns
      ⟨⟨[],[]⟩,[.running greetTags]⟩ := by
  obtain ⟨nested,turns,inside,seen⟩ := measurementsNested greetedFrankReached
  exact ⟨nested.greetings,turns,inside,seen⟩

end MonitoringForDevOps.Metrics.DemoService
