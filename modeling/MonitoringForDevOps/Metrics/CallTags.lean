import MonitoringForDevOps.Library.KeyedList
import MonitoringForDevOps.Metrics.MeticsInterceptor

/-! What the tags of a gRPC call tell about its method. Both parts of the path are
added under one key, so a reader of the tags gets one of them back at most. -/
namespace MonitoringForDevOps.Metrics
open Library Runs Interleaving KeyedList

def path (service method : String) : String := "/" ++ service ++ "/" ++ method

/- A non-empty part of a path, free of slashes. -/
structure PathPart (part : String) : Prop where
  nonempty : part ≠ ""
  plain : '/' ∉ part.toList

theorem methodInfosPath {service method : String} (s : PathPart service) (m : PathPart method) :
    methodInfos (path service method) = [service,method] := by
  have letters : (path service method).toList =
      [] ++ '/' :: (service.toList ++ '/' :: method.toList) := by
    simp [path]
  have parts : (path service method).toList.splitOn '/' =
      [[],service.toList,method.toList] := by
    rw [letters, List.splitOn_append_cons_self_of_not_mem List.not_mem_nil,
      List.splitOn_append_cons_self_of_not_mem s.plain, List.splitOn_eq_singleton m.plain]
  simp only [methodInfos, parts, List.map_cons, List.map_nil, String.ofList_toList]
  simp [s.nonempty, m.nonempty]

theorem tagsOfPath {service method : String} (s : PathPart service) (m : PathPart method) :
    tagsOf (path service method) = [("service",service),("service",method)] := by
  have infos := methodInfosPath s m
  simp [tagsOf, infos, serviceName, methodName, createTags, s.nonempty, m.nonempty]

def Call.TaggedFrom (methods : List String) : Call → Prop
  | .arriving method => method ∈ methods
  | .running tags => tags ∈ methods.map tagsOf
  | .measured tags => tags ∈ methods.map tagsOf
  | .returned => True
  | .threw => True

def Instruments.TaggedFrom (methods : List String) (s : Instruments) : Prop :=
  (∀ entry ∈ s.grpcCallCounter, entry.2 ∈ methods.map tagsOf) ∧
    ∀ entry ∈ s.grpcServerDuration, entry.2 ∈ methods.map tagsOf

theorem taggedSnoc {α : Type} {entries : List (α × TagList)} {known : List TagList}
    (tagged : ∀ entry ∈ entries, entry.2 ∈ known) (value : α) {tags : TagList} (own : tags ∈ known) :
    ∀ entry ∈ entries ++ [(value,tags)], entry.2 ∈ known := by
  intro entry mem
  rcases List.mem_append.mp mem with old | new
  · exact tagged entry old
  · rw [List.mem_singleton.mp new]
    exact own

theorem stepTagged {methods : List String} {i s l s' l'} (tagged : s.TaggedFrom methods)
    (own : l.TaggedFrom methods) (act : UnaryServerHandler i s l s' l') :
    s'.TaggedFrom methods ∧ l'.TaggedFrom methods := by
  obtain ⟨counted,timed⟩ := tagged
  cases act with
  | begins => exact ⟨⟨counted,timed⟩,List.mem_map_of_mem own⟩
  | completes elapsed => exact ⟨⟨counted,taggedSnoc timed elapsed own⟩,own⟩
  | throws elapsed => exact ⟨⟨counted,taggedSnoc timed elapsed own⟩,trivial⟩
  | counts => exact ⟨⟨taggedSnoc counted 1 own,timed⟩,trivial⟩

/- Both instruments only ever record the tags of methods that were called. -/
theorem runTagged {methods schedule} {c : Server}
    (run : Run (Step UnaryServerHandler) (started methods) schedule c) :
    c.shared.TaggedFrom methods := by
  have unmeasured : Instruments.TaggedFrom methods ⟨[],[]⟩ :=
    ⟨List.forall_mem_nil _,List.forall_mem_nil _⟩
  refine (everyAssertion (Instruments.TaggedFrom methods)
    (fun _ _ call => call.TaggedFrom methods) unmeasured ?_ ?_ ?_ run).1
  · intro i call found
    obtain ⟨method,mem,same⟩ := List.mem_map.mp (List.mem_of_getElem? found)
    subst same
    exact mem
  · intro i s l s' l' tagged own act
    exact stepTagged tagged own act
  · intro i j s l s' l' other _ _ _ there _
    exact there

/- The tags as a key-to-value map, where an earlier or a later tag of a key wins. -/
def firstValue (tags : TagList) (key : String) : Option String :=
  (firstWith Prod.fst key tags).map Prod.snd

def lastValue (tags : TagList) (key : String) : Option String :=
  (lastWith Prod.fst key tags).map Prod.snd

def Identifies (read : TagList → String → Option String) (service method : String) : Prop :=
  let tags := tagsOf (path service method)
  (tags.map Prod.fst).Nodup ∧ read tags "service" = some service ∧
    read tags "method" = some method ∧
    ∀ service' method', PathPart service' → PathPart method' →
      read (tagsOf (path service' method')) = read tags → service' = service ∧ method' = method

theorem greeterPart : PathPart "greet.Greeter" := ⟨by decide,by decide⟩

theorem sayHelloPart : PathPart "SayHello" := ⟨by decide,by decide⟩

theorem sameKeyTwice :
    ¬ ∀ service method, PathPart service → PathPart method →
      Identifies firstValue service method := by
  intro claim
  have keys := (claim "greet.Greeter" "SayHello" greeterPart sayHelloPart).1
  rw [tagsOfPath greeterPart sayHelloPart] at keys
  exact absurd keys (by decide)

theorem valuesOfPath {service method : String} (s : PathPart service) (m : PathPart method)
    (key : String) :
    firstValue (tagsOf (path service method)) key =
        (if key = "service" then some service else none) ∧
      lastValue (tagsOf (path service method)) key =
        (if key = "service" then some method else none) := by
  rw [tagsOfPath s m]
  by_cases own : key = "service"
  · subst own
    exact ⟨rfl,rfl⟩
  · have other : ("service" == key) = false := beq_false_of_ne (Ne.symm own)
    simp [firstValue, lastValue, lastWith, firstWith, other, own]

theorem neverIdentified (service method : String) (s : PathPart service) (m : PathPart method) :
    (∀ schedule (c : Server),
      Run (Step UnaryServerHandler) (started [path service method]) schedule c →
      (∀ entry ∈ c.shared.grpcCallCounter, entry.2 = tagsOf (path service method)) ∧
      ∀ entry ∈ c.shared.grpcServerDuration, entry.2 = tagsOf (path service method)) ∧
    (∀ read, ¬ Identifies read service method) ∧
    firstValue (tagsOf (path service method)) "method" = none ∧
    lastValue (tagsOf (path service method)) "method" = none ∧
    (∀ method', PathPart method' →
      firstValue (tagsOf (path service method')) = firstValue (tagsOf (path service method))) ∧
    ∀ service', PathPart service' →
      lastValue (tagsOf (path service' method)) = lastValue (tagsOf (path service method)) := by
  have values := valuesOfPath s m
  refine ⟨?_,?_,(values "method").1,(values "method").2,?_,?_⟩
  · intro schedule c run
    obtain ⟨counted,timed⟩ := runTagged run
    exact ⟨fun entry mem => List.mem_singleton.mp (counted entry mem),
      fun entry mem => List.mem_singleton.mp (timed entry mem)⟩
  · rintro read ⟨keys,_⟩
    rw [tagsOfPath s m] at keys
    simp at keys
  · intro method' m'
    funext key
    rw [(valuesOfPath s m' key).1, (values key).1]
  · intro service' s'
    funext key
    rw [(valuesOfPath s' m key).2, (values key).2]

theorem neverIdentifiedGreeter :
    firstValue (tagsOf (path "greet.Greeter" "SayHello")) "method" = none :=
  (neverIdentified "greet.Greeter" "SayHello" greeterPart sayHelloPart).2.2.1

end MonitoringForDevOps.Metrics
