import MonitoringForDevOps.Library.Interleaving

/-! The two instruments of the gRPC interceptor, updated by any number of unary
calls. A call's sample is recorded in a finally block, its count only after the
awaited result, and other calls run between the two. -/
namespace MonitoringForDevOps.Metrics
open Library Runs Interleaving

abbrev TagList := List (String × String)

/- Split("/", StringSplitOptions.RemoveEmptyEntries) -/
def methodInfos (method : String) : List String :=
  ((method.toList.splitOn '/').map String.ofList).filter (fun part => part ≠ "")

def serviceName (infos : List String) : String :=
  if infos.length > 0 then infos.getD 0 "" else ""

def methodName (infos : List String) : String :=
  if infos.length = 2 then infos.getD 1 "" else ""

-- Both tags are added under the key "service".
def createTags (service method : String) : TagList :=
  (if service = "" then [] else [("service",service)]) ++
    (if method = "" then [] else [("service",method)])

def tagsOf (method : String) : TagList :=
  createTags (serviceName (methodInfos method)) (methodName (methodInfos method))

/- The measurements the instruments have taken: added counts and elapsed ticks. -/
structure Instruments where
  grpcCallCounter : List (Int × TagList)
  grpcServerDuration : List (Nat × TagList)
  deriving DecidableEq

def Instruments.add (s : Instruments) (delta : Int) (tags : TagList) : Instruments :=
  { s with grpcCallCounter := s.grpcCallCounter ++ [(delta,tags)] }

def Instruments.record (s : Instruments) (elapsed : Nat) (tags : TagList) : Instruments :=
  { s with grpcServerDuration := s.grpcServerDuration ++ [(elapsed,tags)] }

def Instruments.received (s : Instruments) : Int := (s.grpcCallCounter.map Prod.fst).sum

def Instruments.samples (s : Instruments) : Int := s.grpcServerDuration.length

inductive Call where
  | arriving (method : String)
  | running (tags : TagList)
  | measured (tags : TagList)
  | returned
  | threw
  deriving DecidableEq

def Call.begun : Call → Bool
  | .arriving _ => false
  | _ => true

def Call.inProgress : Call → Bool
  | .running _ => true
  | _ => false

def Call.ended : Call → Bool
  | .measured _ => true
  | .returned => true
  | .threw => true
  | _ => false

def Call.succeeded : Call → Bool
  | .returned => true
  | _ => false

def Call.uncounted : Call → Bool
  | .running _ => true
  | .measured _ => true
  | .threw => true
  | _ => false

/- One call through the interceptor. MeterDuration's finally records a sample on
both ways out of the continuation; an exception then skips the counter. -/
inductive UnaryServerHandler : ℕ → Instruments → Call → Instruments → Call → Prop where
  | begins {i s method} : UnaryServerHandler i s (.arriving method) s (.running (tagsOf method))
  | completes {i s tags} (elapsed : Nat) :
      UnaryServerHandler i s (.running tags) (s.record elapsed tags) (.measured tags)
  | throws {i s tags} (elapsed : Nat) :
      UnaryServerHandler i s (.running tags) (s.record elapsed tags) .threw
  | counts {i s tags} : UnaryServerHandler i s (.measured tags) (s.add 1 tags) .returned

abbrev Server := Config Instruments Call

def started (methods : List String) : Server := ⟨⟨[],[]⟩,methods.map .arriving⟩

def Server.begun (c : Server) : Int := c.procs.countP Call.begun
def Server.inProgress (c : Server) : Int := c.procs.countP Call.inProgress
def Server.ended (c : Server) : Int := c.procs.countP Call.ended
def Server.succeeded (c : Server) : Int := c.procs.countP Call.succeeded
def Server.uncounted (c : Server) : Int := c.procs.countP Call.uncounted

/- What the instruments promise at one point of a run. -/
structure Accounted (c : Server) : Prop where
  requests : c.shared.received = c.begun
  durations : c.shared.samples = c.ended
  balance : c.shared.received = c.shared.samples + c.inProgress

@[simp] theorem receivedAdd (s : Instruments) (delta : Int) (tags : TagList) :
    (s.add delta tags).received = s.received + delta := by
  simp [Instruments.received, Instruments.add]

@[simp] theorem receivedRecord (s : Instruments) (elapsed : Nat) (tags : TagList) :
    (s.record elapsed tags).received = s.received := rfl

@[simp] theorem samplesAdd (s : Instruments) (delta : Int) (tags : TagList) :
    (s.add delta tags).samples = s.samples := rfl

@[simp] theorem samplesRecord (s : Instruments) (elapsed : Nat) (tags : TagList) :
    (s.record elapsed tags).samples = s.samples + 1 := by
  simp [Instruments.samples, Instruments.record]

theorem stepSamples {i s l s' l'} (act : UnaryServerHandler i s l s' l') :
    s'.samples + l.ended.toInt = s.samples + l'.ended.toInt := by
  cases act with
  | begins => rfl
  | completes elapsed => simp [Call.ended]
  | throws elapsed => simp [Call.ended]
  | counts => simp [Call.ended]

theorem stepReceived {i s l s' l'} (act : UnaryServerHandler i s l s' l') :
    s'.received + l.succeeded.toInt = s.received + l'.succeeded.toInt := by
  cases act with
  | begins => rfl
  | completes elapsed => simp [Call.succeeded]
  | throws elapsed => simp [Call.succeeded]
  | counts => simp [Call.succeeded]

theorem startedCount (methods : List String) (member : Call → Bool)
    (fresh : ∀ method, member (.arriving method) = false) :
    (started methods).procs.countP member = 0 := by
  simp [started, List.countP_eq_zero, fresh]

theorem samplesEnded {methods schedule} {c : Server}
    (run : Run (Step UnaryServerHandler) (started methods) schedule c) :
    c.shared.samples = c.ended := by
  have total := counted Instruments.samples Call.ended (fun _ _ _ _ _ => stepSamples) run
  rw [startedCount methods Call.ended (fun _ => rfl)] at total
  simpa [Server.ended, started, Instruments.samples] using total

theorem receivedSucceeded {methods schedule} {c : Server}
    (run : Run (Step UnaryServerHandler) (started methods) schedule c) :
    c.shared.received = c.succeeded := by
  have total := counted Instruments.received Call.succeeded (fun _ _ _ _ _ => stepReceived) run
  rw [startedCount methods Call.succeeded (fun _ => rfl)] at total
  simpa [Server.succeeded, started, Instruments.received] using total

theorem begunSplit (c : Server) : c.begun = c.ended + c.inProgress := by
  have parts := countSplit Call.begun Call.ended Call.inProgress
    (fun l => by cases l <;> rfl) c.procs
  simp only [Server.begun, Server.ended, Server.inProgress, parts, Nat.cast_add]

theorem begunUncounted (c : Server) : c.begun = c.succeeded + c.uncounted := by
  have parts := countSplit Call.begun Call.succeeded Call.uncounted
    (fun l => by cases l <;> rfl) c.procs
  simp only [Server.begun, Server.succeeded, Server.uncounted, parts, Nat.cast_add]

theorem uncountedNone (c : Server) :
    c.uncounted = 0 ↔ ∀ call ∈ c.procs, call.begun = true → call = .returned := by
  simp only [Server.uncounted, Nat.cast_eq_zero, List.countP_eq_zero]
  constructor
  · intro each call mem begun
    have counted := each call mem
    cases call <;> simp_all [Call.begun, Call.uncounted]
  · intro each call mem missing
    have returned := each call mem (by cases call <;> simp_all [Call.begun, Call.uncounted])
    subst returned
    cases missing

theorem accountedExactly {methods schedule} {c : Server}
    (run : Run (Step UnaryServerHandler) (started methods) schedule c) :
    Accounted c ↔ ∀ call ∈ c.procs, call.begun = true → call = .returned := by
  have samples := samplesEnded run
  have received := receivedSucceeded run
  have progress := begunSplit c
  have missing := begunUncounted c
  rw [← uncountedNone]
  constructor
  · intro accounted
    have requests := accounted.requests
    omega
  · intro none_
    exact ⟨by omega,samples,by omega⟩

theorem beginsUncounted {methods i} {c : Server}
    (first : Step UnaryServerHandler (started methods) i c) : ¬Accounted c := by
  have run : Run (Step UnaryServerHandler) (started methods) [i] c := runSingle first
  intro accounted
  have each := (accountedExactly run).mp accounted
  cases first with
  | @move l s' l' found act =>
    obtain ⟨bound,here⟩ := List.getElem?_eq_some_iff.mp found
    have fresh : ∃ method, l = .arriving method := by
      have mem := List.mem_of_getElem? found
      obtain ⟨method,_,same⟩ := List.mem_map.mp mem
      exact ⟨method,same.symm⟩
    obtain ⟨method,same⟩ := fresh
    subst same
    cases act with
    | begins => cases each (.running (tagsOf method)) (List.mem_set bound _) rfl

theorem requestsAccountedExactly {methods schedule} {c : Server}
    (run : Run (Step UnaryServerHandler) (started methods) schedule c) :
    c.shared.samples = c.ended ∧ c.shared.received = c.succeeded ∧
    (Accounted c ↔ ∀ call ∈ c.procs, call.begun = true → call = .returned) ∧
    (schedule = [] ∨ ∃ i first rest, schedule = i :: rest ∧
      Run (Step UnaryServerHandler) (started methods) [i] first ∧
      Run (Step UnaryServerHandler) first rest c ∧ ¬Accounted first) := by
  refine ⟨samplesEnded run,receivedSucceeded run,accountedExactly run,?_⟩
  rcases runHead run with ⟨empty,_⟩ | ⟨i,first,rest,split,leads,later⟩
  · exact .inl empty
  · exact .inr ⟨i,first,rest,split,runSingle leads,later,beginsUncounted leads⟩

def sayHello : String := "/greet.Greeter/SayHello"

/- One call has thrown, another one is being processed. -/
def threwAndRunning : Server :=
  ⟨⟨[],[(12,tagsOf sayHello)]⟩,[.threw,.running (tagsOf sayHello)]⟩

def threwAndRunningSchedule : List ℕ := [0,0,1]

theorem threwAndRunningReached :
    Run (Step UnaryServerHandler) (started [sayHello,sayHello]) threwAndRunningSchedule
      threwAndRunning := by
  have first : Run (Step UnaryServerHandler) (started [sayHello,sayHello]) [0]
      ⟨⟨[],[]⟩,[.running (tagsOf sayHello),.arriving sayHello]⟩ := .snoc .nil (.move rfl .begins)
  have second : Run (Step UnaryServerHandler) (started [sayHello,sayHello]) [0,0]
      ⟨⟨[],[(12,tagsOf sayHello)]⟩,[.threw,.arriving sayHello]⟩ :=
    .snoc first (.move rfl (.throws 12))
  exact .snoc second (.move rfl .begins)

theorem requestsAccountedExactlyThrew :
    threwAndRunning.shared.samples = threwAndRunning.ended :=
  (requestsAccountedExactly threwAndRunningReached).1

theorem requestsUncounted :
    ∃ methods schedule, ∃ c : Server,
      Run (Step UnaryServerHandler) (started methods) schedule c ∧
      c.begun = 2 ∧ c.ended = 1 ∧ c.inProgress = 1 ∧
      c.shared.samples = 1 ∧ c.shared.received = 0 ∧ ¬Accounted c := by
  refine ⟨_,_,threwAndRunning,threwAndRunningReached,rfl,rfl,rfl,rfl,rfl,?_⟩
  intro accounted
  cases accounted.requests

end MonitoringForDevOps.Metrics
