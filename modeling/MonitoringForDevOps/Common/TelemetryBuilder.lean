import MonitoringForDevOps.Library.Runs

/-! The builder that every service configures its telemetry with. A call overwrites
what an earlier call of its kind has set, and AddTracing and AddMetrics share the
service collection. Collections and logging builders are the caller's own. -/
namespace MonitoringForDevOps.Common.Telemetry
open Library Runs

section Builder
variable {σ τ : Type}

structure TelemetryBuilder (σ τ : Type) where
  serviceName : String
  url : String
  addCustomTracing : Bool
  addHttpClientTracing : Bool
  addGrpcClientTracing : Bool
  addAspNetCoreTracing : Bool
  services : Option σ
  addCustomMetrics : Bool
  addRuntimeMetrics : Bool
  addHttpClientMetrics : Bool
  addAspNetCoreMetrics : Bool
  loggingBuilder : Option τ

def forConfiguration (serviceName url : String) : TelemetryBuilder σ τ where
  serviceName := serviceName
  url := url
  addCustomTracing := false
  addHttpClientTracing := false
  addGrpcClientTracing := false
  addAspNetCoreTracing := false
  services := none
  addCustomMetrics := false
  addRuntimeMetrics := false
  addHttpClientMetrics := false
  addAspNetCoreMetrics := false
  loggingBuilder := none

structure TracingOptions where
  addHttpClientTracing : Bool
  addAspNetCoreTracing : Bool
  addGrpcTracing : Bool
  deriving DecidableEq

structure MetricsOptions where
  addCustomMetrics : Bool
  addRuntimeMetrics : Bool
  addHttpClientMetrics : Bool
  addAspNetCoreMetrics : Bool
  deriving DecidableEq

inductive Call (σ τ : Type) where
  | addTracing (services : σ) (options : TracingOptions)
  | addMetrics (services : σ) (options : MetricsOptions)
  | addLogging (loggingBuilder : τ)

/- The gRPC client runs over the HTTP client, so tracing it switches both on. -/
def TelemetryBuilder.next (b : TelemetryBuilder σ τ) : Call σ τ → TelemetryBuilder σ τ
  | .addTracing services options =>
      { b with
        services := some services
        addCustomTracing := true
        addHttpClientTracing := options.addHttpClientTracing || options.addGrpcTracing
        addAspNetCoreTracing := options.addAspNetCoreTracing
        addGrpcClientTracing := options.addGrpcTracing }
  | .addMetrics services options =>
      { b with
        services := some services
        addCustomMetrics := options.addCustomMetrics
        addRuntimeMetrics := options.addRuntimeMetrics
        addHttpClientMetrics := options.addHttpClientMetrics
        addAspNetCoreMetrics := options.addAspNetCoreMetrics }
  | .addLogging loggingBuilder => { b with loggingBuilder := some loggingBuilder }

def instrumentationName : String := "fp.monitoring.demo.instrumentationlibrary"

inductive MetricsCall where
  | addAspNetCoreInstrumentation
  | addHttpClientInstrumentation
  | addRuntimeInstrumentation
  | addMeter (name : String)
  | addOtlpExporter (endpoint : String)
  deriving DecidableEq

inductive TracingCall where
  | addSource (name : String)
  | setAlwaysOnSampler
  | addAspNetCoreInstrumentation
  | addHttpClientInstrumentation
  | addGrpcClientInstrumentation
  | addOtlpExporter (endpoint : String)
  deriving DecidableEq

inductive Registration where
  | addInstrumentation
  | addOpenTelemetry
  | addEnvironmentVariableDetector
  | addService (serviceName : String)
  | withMetrics (calls : List MetricsCall)
  | withTracing (calls : List TracingCall)
  deriving DecidableEq

def metricsCalls (b : TelemetryBuilder σ τ) : List MetricsCall :=
  (if b.addAspNetCoreMetrics then [.addAspNetCoreInstrumentation] else []) ++
    (if b.addHttpClientMetrics then [.addHttpClientInstrumentation] else []) ++
    (if b.addRuntimeMetrics then [.addRuntimeInstrumentation] else []) ++
    (if b.addCustomMetrics then [.addMeter instrumentationName] else []) ++
    [.addOtlpExporter b.url]

def tracingCalls (b : TelemetryBuilder σ τ) : List TracingCall :=
  (if b.addCustomTracing then [.addSource instrumentationName,.setAlwaysOnSampler] else []) ++
    (if b.addAspNetCoreTracing then [.addAspNetCoreInstrumentation] else []) ++
    (if b.addHttpClientTracing then [.addHttpClientInstrumentation] else []) ++
    (if b.addGrpcClientTracing then [.addGrpcClientInstrumentation] else []) ++
    [.addOtlpExporter b.url]

/- What Build does to the collection and to the logging builder it was given last. -/
structure Built (σ τ : Type) where
  services : Option (σ × List Registration)
  logging : Option (τ × String × String)

def registrations (b : TelemetryBuilder σ τ) : List Registration :=
  [.addInstrumentation,.addOpenTelemetry,.addEnvironmentVariableDetector,
      .addService b.serviceName] ++
    (if b.addCustomMetrics || b.addRuntimeMetrics || b.addHttpClientMetrics ||
        b.addAspNetCoreMetrics then [.withMetrics (metricsCalls b)] else []) ++
    (if b.addCustomTracing || b.addHttpClientTracing || b.addAspNetCoreTracing
      then [.withTracing (tracingCalls b)] else [])

def TelemetryBuilder.build (b : TelemetryBuilder σ τ) : Built σ τ where
  services := b.services.map (fun services => (services,registrations b))
  logging := b.loggingBuilder.map (fun loggingBuilder => (loggingBuilder,b.serviceName,b.url))

def configured (serviceName url : String) (calls : List (Call σ τ)) : TelemetryBuilder σ τ :=
  after TelemetryBuilder.next (forConfiguration serviceName url) calls

end Builder

section Last
variable {σ τ : Type}

def servicesOf : Call σ τ → Option σ
  | .addTracing services _ => some services
  | .addMetrics services _ => some services
  | .addLogging _ => none

def tracingOf : Call σ τ → Option TracingOptions
  | .addTracing _ options => some options
  | _ => none

def metricsOf : Call σ τ → Option MetricsOptions
  | .addMetrics _ options => some options
  | _ => none

def loggingOf : Call σ τ → Option τ
  | .addLogging loggingBuilder => some loggingBuilder
  | _ => none

def last {β : Type} (sets : Call σ τ → Option β) (calls : List (Call σ τ)) : Option β :=
  (calls.filterMap sets).getLast?

theorem lastSnoc {β : Type} (sets : Call σ τ → Option β) (calls : List (Call σ τ))
    (call : Call σ τ) :
    last sets (calls ++ [call]) = (sets call).or (last sets calls) := by
  unfold last
  rw [List.filterMap_append]
  cases set : sets call with
  | none => simp [set]
  | some value => simp [set]

/- The options a builder ends up with; without AddMetrics they are all off. -/
def metricsSet (options : Option MetricsOptions) : MetricsOptions :=
  options.getD ⟨false,false,false,false⟩

/- HTTP client tracing is on whenever gRPC tracing is. -/
def tracingSet (options : Option TracingOptions) : Option TracingOptions :=
  options.map (fun o =>
    { o with addHttpClientTracing := o.addHttpClientTracing || o.addGrpcTracing })

def settled (serviceName url : String) (services : Option σ) (tracing : Option TracingOptions)
    (metrics : MetricsOptions) (logging : Option τ) : TelemetryBuilder σ τ where
  serviceName := serviceName
  url := url
  addCustomTracing := tracing.isSome
  addHttpClientTracing := (tracing.getD ⟨false,false,false⟩).addHttpClientTracing
  addGrpcClientTracing := (tracing.getD ⟨false,false,false⟩).addGrpcTracing
  addAspNetCoreTracing := (tracing.getD ⟨false,false,false⟩).addAspNetCoreTracing
  services := services
  addCustomMetrics := metrics.addCustomMetrics
  addRuntimeMetrics := metrics.addRuntimeMetrics
  addHttpClientMetrics := metrics.addHttpClientMetrics
  addAspNetCoreMetrics := metrics.addAspNetCoreMetrics
  loggingBuilder := logging

theorem configuredSettled (serviceName url : String) (calls : List (Call σ τ)) :
    configured serviceName url calls = settled serviceName url (last servicesOf calls)
      (tracingSet (last tracingOf calls)) (metricsSet (last metricsOf calls))
      (last loggingOf calls) := by
  induction calls using List.reverseRecOn with
  | nil => rfl
  | append_singleton calls call ih =>
    unfold configured at ih ⊢
    rw [afterSnoc, ih]
    simp only [lastSnoc]
    cases call <;> rfl

theorem nothingSet {calls : List (Call σ τ)} (none_ : last servicesOf calls = none) :
    last metricsOf calls = none ∧ last tracingOf calls = none := by
  unfold last at none_ ⊢
  rw [List.getLast?_eq_none_iff, List.filterMap_eq_nil_iff] at none_
  rw [List.getLast?_eq_none_iff, List.filterMap_eq_nil_iff, List.getLast?_eq_none_iff,
    List.filterMap_eq_nil_iff]
  refine ⟨?_,?_⟩
  · intro call mem
    have silent := none_ call mem
    cases call with
    | addMetrics services options => cases silent
    | _ => rfl
  · intro call mem
    have silent := none_ call mem
    cases call with
    | addTracing services options => cases silent
    | _ => rfl

def withMetrics : Registration → Option (List MetricsCall)
  | .withMetrics calls => some calls
  | _ => none

def withTracing : Registration → Option (List TracingCall)
  | .withTracing calls => some calls
  | _ => none

theorem foundMetrics (b : TelemetryBuilder σ τ) :
    (registrations b).findSome? withMetrics =
      if b.addCustomMetrics || b.addRuntimeMetrics || b.addHttpClientMetrics ||
        b.addAspNetCoreMetrics then some (metricsCalls b) else none := by
  unfold registrations
  split
  · rfl
  · split <;> rfl

theorem foundTracing (b : TelemetryBuilder σ τ) :
    (registrations b).findSome? withTracing =
      if b.addCustomTracing || b.addHttpClientTracing || b.addAspNetCoreTracing
        then some (tracingCalls b) else none := by
  unfold registrations
  split
  · split <;> rfl
  · split <;> rfl

def readMetrics (registered : List Registration) : MetricsOptions :=
  let calls := (registered.findSome? withMetrics).getD []
  ⟨calls.contains (.addMeter instrumentationName),calls.contains .addRuntimeInstrumentation,
    calls.contains .addHttpClientInstrumentation,calls.contains .addAspNetCoreInstrumentation⟩

def readTracing (registered : List Registration) : Option TracingOptions :=
  (registered.findSome? withTracing).map (fun calls =>
    ⟨calls.contains .addHttpClientInstrumentation,calls.contains .addAspNetCoreInstrumentation,
      calls.contains .addGrpcClientInstrumentation⟩)

theorem metricsRead (b : TelemetryBuilder σ τ) :
    readMetrics (registrations b) =
      ⟨b.addCustomMetrics,b.addRuntimeMetrics,b.addHttpClientMetrics,b.addAspNetCoreMetrics⟩ := by
  simp only [readMetrics, foundMetrics, metricsCalls]
  cases b.addCustomMetrics <;> cases b.addRuntimeMetrics <;> cases b.addHttpClientMetrics <;>
    cases b.addAspNetCoreMetrics <;> rfl

theorem tracingRead {b : TelemetryBuilder σ τ} (on : b.addCustomTracing = true) :
    readTracing (registrations b) =
      some ⟨b.addHttpClientTracing,b.addAspNetCoreTracing,b.addGrpcClientTracing⟩ := by
  simp only [readTracing, foundTracing, tracingCalls, on]
  cases b.addHttpClientTracing <;> cases b.addAspNetCoreTracing <;>
    cases b.addGrpcClientTracing <;> rfl

theorem tracingOff {b : TelemetryBuilder σ τ} (custom : b.addCustomTracing = false)
    (http : b.addHttpClientTracing = false) (aspNet : b.addAspNetCoreTracing = false) :
    readTracing (registrations b) = none := by
  simp only [readTracing, foundTracing, custom, http, aspNet]
  rfl

theorem settledRead (serviceName url : String) (services : Option σ)
    (tracing : Option TracingOptions) (metrics : MetricsOptions) (logging : Option τ) :
    let registered := registrations (settled serviceName url services tracing metrics logging)
    readMetrics registered = metrics ∧ readTracing registered = tracing := by
  refine ⟨metricsRead _,?_⟩
  cases tracing with
  | none => exact tracingOff rfl rfl rfl
  | some options => exact tracingRead rfl

theorem builtAlikeExactly (serviceName url : String) (calls calls' : List (Call σ τ)) :
    (configured serviceName url calls).build = (configured serviceName url calls').build ↔
      last servicesOf calls = last servicesOf calls' ∧
      last loggingOf calls = last loggingOf calls' ∧
      metricsSet (last metricsOf calls) = metricsSet (last metricsOf calls') ∧
      tracingSet (last tracingOf calls) = tracingSet (last tracingOf calls') := by
  rw [configuredSettled, configuredSettled]
  constructor
  · intro same
    have logging := congrArg (fun built => built.logging.map Prod.fst) same
    have collection := congrArg (fun built => built.services.map Prod.fst) same
    simp only [TelemetryBuilder.build, settled, Option.map_map, Function.comp_def,
      Option.map_id'] at logging collection
    refine ⟨collection,logging,?_⟩
    cases given : last servicesOf calls with
    | none =>
      have set := nothingSet given
      have set' := nothingSet (collection.symm.trans given)
      rw [set.1, set.2, set'.1, set'.2]
      exact ⟨rfl,rfl⟩
    | some services =>
      have registered := congrArg Built.services same
      rw [given] at collection registered
      rw [← collection] at registered
      have lists := congrArg Prod.snd (Option.some.inj registered)
      have read := settledRead serviceName url (some services) (tracingSet (last tracingOf calls))
        (metricsSet (last metricsOf calls)) (last loggingOf calls)
      have read' := settledRead serviceName url (some services) (tracingSet (last tracingOf calls'))
        (metricsSet (last metricsOf calls')) (last loggingOf calls')
      simp only at lists
      rw [lists] at read
      exact ⟨read.1.symm.trans read'.1,read.2.symm.trans read'.2⟩
  · rintro ⟨services,logging,metrics,tracing⟩
    rw [services, logging, metrics, tracing]

end Last
end MonitoringForDevOps.Common.Telemetry
