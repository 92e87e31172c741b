import Mathlib.Data.List.Basic

/-! One log written by many owners. From what each owner wrote on its own, the
matching of its second entry with its first carries over to positions of the log. -/
namespace MonitoringForDevOps.Library.SharedLog

variable {β : Type}

def own (owner : β → ℕ) (i : ℕ) (log : List β) : List β := log.filter (fun e => owner e == i)

@[simp] theorem ownAppend (owner : β → ℕ) (i : ℕ) (first second : List β) :
    own owner i (first ++ second) = own owner i first ++ own owner i second := by
  simp [own]

theorem ownMine (owner : β → ℕ) (e : β) : own owner (owner e) [e] = [e] := by
  simp [own]

theorem ownOther (owner : β → ℕ) {e : β} {i : ℕ} (other : owner e ≠ i) : own owner i [e] = [] := by
  simp [own, other]

theorem ownMember (owner : β → ℕ) {log : List β} {e : β} (mem : e ∈ log) :
    e ∈ own owner (owner e) log :=
  List.mem_filter.mpr ⟨mem,by simp⟩

theorem singlePosition {P : β → Bool} {log : List β} {b : β} (only : log.filter P = [b]) :
    ∃ k, log[k]? = some b ∧ ∀ (n : ℕ) x, log[n]? = some x → P x = true → n = k := by
  induction log with
  | nil => simp at only
  | cons head tail ih =>
    by_cases hit : P head = true
    · simp only [List.filter_cons, hit, if_true, List.cons.injEq] at only
      obtain ⟨same,none_⟩ := only
      subst same
      refine ⟨0,rfl,?_⟩
      intro n x at_ px
      cases n with
      | zero => rfl
      | succ n =>
        have mem : x ∈ tail.filter P :=
          List.mem_filter.mpr ⟨List.mem_of_getElem? (by simpa using at_),px⟩
        rw [none_] at mem
        cases mem
    · simp only [List.filter_cons, hit] at only
      obtain ⟨k,found,unique⟩ := ih only
      refine ⟨k + 1,by simpa using found,?_⟩
      intro n x at_ px
      cases n with
      | zero => cases Option.some.inj at_; exact absurd px hit
      | succ n => rw [unique n x (by simpa using at_) px]

theorem pairPositions {P : β → Bool} {log : List β} {a b : β} (pair : log.filter P = [a,b]) :
    ∃ j k, j < k ∧ log[j]? = some a ∧ log[k]? = some b ∧
      ∀ (n : ℕ) x, log[n]? = some x → P x = true → n = j ∨ n = k := by
  induction log with
  | nil => simp at pair
  | cons head tail ih =>
    by_cases hit : P head = true
    · simp only [List.filter_cons, hit, if_true, List.cons.injEq] at pair
      obtain ⟨same,rest⟩ := pair
      subst same
      obtain ⟨k,found,unique⟩ := singlePosition rest
      refine ⟨0,k + 1,by omega,rfl,by simpa using found,?_⟩
      intro n x at_ px
      cases n with
      | zero => exact .inl rfl
      | succ n => exact .inr (by rw [unique n x (by simpa using at_) px])
    · simp only [List.filter_cons, hit] at pair
      obtain ⟨j,k,before,first,second,unique⟩ := ih pair
      refine ⟨j + 1,k + 1,by omega,by simpa using first,by simpa using second,?_⟩
      intro n x at_ px
      cases n with
      | zero => cases Option.some.inj at_; exact absurd px hit
      | succ n =>
        rcases unique n x (by simpa using at_) px with same | same
        · exact .inl (by rw [same])
        · exact .inr (by rw [same])

/- When an owner of a reply wrote one request and then that reply, replies are
matched one to one with earlier requests of the same owner. -/
theorem matched {owner : β → ℕ} {reply : β → Prop} {log : List β}
    (shape : ∀ b ∈ log, reply b → ∃ a, own owner (owner b) log = [a,b] ∧ ¬ reply a) :
    ∃ backing : ℕ → ℕ,
      (∀ (k : ℕ) b, log[k]? = some b → reply b → backing k < k ∧
        ∃ a, log[backing k]? = some a ∧ own owner (owner b) log = [a,b]) ∧
      ∀ (k k' : ℕ) b b', log[k]? = some b → log[k']? = some b' → reply b → reply b' →
        backing k = backing k' → k = k' := by
  have each : ∀ k : ℕ, ∃ j : ℕ, ∀ b, log[k]? = some b → reply b → j < k ∧
      (∃ a, log[j]? = some a ∧ own owner (owner b) log = [a,b]) ∧
      ∀ (n : ℕ) x, log[n]? = some x → owner x = owner b → reply x → n = k := by
    intro k
    cases at_ : log[k]? with
    | none => exact ⟨0,nofun⟩
    | some b =>
      by_cases isReply : reply b
      · obtain ⟨a,pair,request⟩ := shape b (List.mem_of_getElem? at_) isReply
        obtain ⟨j,k',before,first,second,unique⟩ := pairPositions pair
        have notFirst (n : ℕ) (x : β) (here : log[n]? = some x) (replies : reply x) : n ≠ j := by
          intro same
          rw [same, first] at here
          cases Option.some.inj here
          exact request replies
        have last (n : ℕ) (x : β) (here : log[n]? = some x) (mine : owner x = owner b)
            (replies : reply x) : n = k' := by
          rcases unique n x here (by simp [mine]) with same | same
          · exact absurd same (notFirst n x here replies)
          · exact same
        have here : k = k' := last k b at_ rfl isReply
        subst here
        refine ⟨j,?_⟩
        intro b₁ same _
        cases Option.some.inj same
        exact ⟨before,⟨a,first,pair⟩,last⟩
      · refine ⟨0,?_⟩
        intro b₁ same replies
        cases Option.some.inj same
        exact absurd replies isReply
  choose backing holds using each
  refine ⟨backing,?_,?_⟩
  · intro k b at_ isReply
    obtain ⟨before,request,_⟩ := holds k b at_ isReply
    exact ⟨before,request⟩
  · intro k k' b b' at_ at_' isReply isReply' same
    obtain ⟨_,⟨a,found,pair⟩,_⟩ := holds k b at_ isReply
    obtain ⟨_,⟨a',found',pair'⟩,unique⟩ := holds k' b' at_' isReply'
    rw [same, found'] at found
    cases Option.some.inj found
    have mine : owner b = owner b' := by
      have inFirst : a ∈ own owner (owner b) log := by rw [pair]; simp
      have inSecond : a ∈ own owner (owner b') log := by rw [pair']; simp
      have left := (List.mem_filter.mp inFirst).2
      have right := (List.mem_filter.mp inSecond).2
      simp only [beq_iff_eq] at left right
      exact left.symm.trans right
    exact unique k b at_ mine isReply

end MonitoringForDevOps.Library.SharedLog
