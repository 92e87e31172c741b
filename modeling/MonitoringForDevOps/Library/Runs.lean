import Mathlib.Data.List.Infix

/-! Finite runs of labelled transition systems, their invariants, and the exact
step conditions of deterministic machines. Nothing here depends on a program. -/
namespace MonitoringForDevOps.Library.Runs

variable {σ ε : Type}

inductive Run (step : σ → ε → σ → Prop) (start : σ) : List ε → σ → Prop where
  | nil : Run step start [] start
  | snoc {events s e t} (before : Run step start events s) (last : step s e t) :
      Run step start (events ++ [e]) t

theorem runInvariant {step : σ → ε → σ → Prop} {start : σ} (inv : σ → Prop)
    (initially : inv start) (preserved : ∀ s e t, inv s → step s e t → inv t)
    {events s} (run : Run step start events s) : inv s := by
  induction run with
  | nil => exact initially
  | snoc before last ih => exact preserved _ _ _ ih last

theorem runSingle {step : σ → ε → σ → Prop} {s e t} (h : step s e t) : Run step s [e] t :=
  .snoc .nil h

theorem runHead {step : σ → ε → σ → Prop} {start events t} (run : Run step start events t) :
    (events = [] ∧ t = start) ∨
      ∃ e s rest, events = e :: rest ∧ step start e s ∧ Run step s rest t := by
  induction run with
  | nil => exact .inl ⟨rfl,rfl⟩
  | @snoc events s e t before last ih =>
    rcases ih with ⟨empty,same⟩ | ⟨first,mid,rest,split,leads,later⟩
    · subst empty same
      exact .inr ⟨e,t,[],rfl,last,.nil⟩
    · subst split
      exact .inr ⟨first,mid,rest ++ [e],rfl,leads,.snoc later last⟩

theorem runHistory {step : σ → ε → σ → Prop} {start : σ} (inv : List ε → σ → Prop)
    (initially : inv [] start)
    (preserved : ∀ events s e t, inv events s → step s e t → inv (events ++ [e]) t)
    {events s} (run : Run step start events s) : inv events s := by
  induction run with
  | nil => exact initially
  | snoc before last ih => exact preserved _ _ _ _ ih last

theorem runSplit {step : σ → ε → σ → Prop} {start t} {before rest : List ε}
    (run : Run step start (before ++ rest) t) :
    ∃ s, Run step start before s ∧ Run step s rest t := by
  induction rest using List.reverseRecOn generalizing t with
  | nil => exact ⟨t,by simpa using run,.nil⟩
  | append_singleton rest e ih =>
    rw [← List.append_assoc] at run
    generalize whole : before ++ rest ++ [e] = events at run
    cases run with
    | nil => simp at whole
    | snoc earlier last =>
      obtain ⟨same,final⟩ := List.append_inj' whole rfl
      cases final
      subst same
      obtain ⟨s,left,right⟩ := ih earlier
      exact ⟨s,left,.snoc right last⟩

theorem runMono {step step' : σ → ε → σ → Prop} (weaker : ∀ s e t, step s e t → step' s e t)
    {start events s} (run : Run step start events s) : Run step' start events s := by
  induction run with
  | nil => exact .nil
  | snoc before last ih => exact .snoc ih (weaker _ _ _ last)

theorem runReached {step : σ → ε → σ → Prop} {start : σ} (inv : List ε → σ → Prop)
    (initially : inv [] start)
    (preserved : ∀ events s e t, Run step start events s → inv events s → step s e t →
      inv (events ++ [e]) t)
    {events s} (run : Run step start events s) : inv events s := by
  induction run with
  | nil => exact initially
  | snoc before last ih => exact preserved _ _ _ _ before ih last

/- A value kept along the events by a rule that sees the events before. -/
def keptAlong {β : Type} (keep : List ε → β → ε → β) (initially : β) (events : List ε) : β :=
  (events.foldl (fun s e => (s.1 ++ [e],keep s.1 s.2 e)) (([] : List ε),initially)).2

theorem keptSnoc {β : Type} (keep : List ε → β → ε → β) (initially : β) (events : List ε) (e : ε) :
    keptAlong keep initially (events ++ [e]) =
      keep events (keptAlong keep initially events) e := by
  have past : (events.foldl (fun s e => (s.1 ++ [e],keep s.1 s.2 e)) (([] : List ε),initially)).1 =
      events := by
    induction events using List.reverseRecOn with
    | nil => rfl
    | append_singleton events e ih => simp [ih]
  simp only [keptAlong, List.foldl_append, List.foldl_cons, List.foldl_nil, past]

section Deterministic
variable (next : σ → ε → σ)

def after (start : σ) (events : List ε) : σ := events.foldl next start

@[simp] theorem afterNil (start : σ) : after next start [] = start := rfl

@[simp] theorem afterSnoc (start : σ) (events : List ε) (e : ε) :
    after next start (events ++ [e]) = next (after next start events) e := by
  simp [after]

theorem afterRun (start : σ) (events : List ε) :
    Run (fun s e t => t = next s e) start events (after next start events) := by
  induction events using List.reverseRecOn with
  | nil => exact .nil
  | append_singleton events e ih => exact .snoc ih (by simp)

theorem afterInvariant (inv : σ → Prop) {start : σ} (initially : inv start)
    (preserved : ∀ s e, inv s → inv (next s e)) (events : List ε) :
    inv (after next start events) := by
  refine runInvariant inv initially ?_ (afterRun next start events)
  intro s e t holds step
  subst step
  exact preserved s e holds

theorem historyInvariant (inv : List ε → σ → Prop) {start : σ} (initially : inv [] start)
    (preserved : ∀ events e, inv events (after next start events) →
      inv (events ++ [e]) (next (after next start events) e))
    (events : List ε) : inv events (after next start events) := by
  induction events using List.reverseRecOn with
  | nil => exact initially
  | append_singleton events e ih =>
    rw [afterSnoc]
    exact preserved events e ih

/- Where one step keeps the invariant exactly under a condition, a sequence stays
inside the invariant exactly when each of its steps meets that condition. -/
theorem alwaysIffEveryStep {inv : σ → Prop} {cond : σ → ε → Prop} {start : σ}
    (initially : inv start) (exactly : ∀ s e, inv s → (inv (next s e) ↔ cond s e))
    (events : List ε) :
    (∀ before, before <+: events → inv (after next start before)) ↔
      ∀ before e, before ++ [e] <+: events → cond (after next start before) e := by
  constructor
  · intro always before e inside
    have here := always before ((List.prefix_append before [e]).trans inside)
    have there := always (before ++ [e]) inside
    rw [afterSnoc] at there
    exact (exactly _ e here).mp there
  · intro every before
    induction before using List.reverseRecOn with
    | nil => intro _; exact initially
    | append_singleton before e ih =>
      intro inside
      have here := ih ((List.prefix_append before [e]).trans inside)
      rw [afterSnoc]
      exact (exactly _ e here).mpr (every before e inside)

section Noted
variable {β : Type} (note : σ → ε → Option β)

def lastNoted : σ → List ε → Option β
  | _, [] => none
  | s, e :: rest => (lastNoted (next s e) rest).or (note s e)

theorem lastNotedSnoc (start : σ) (events : List ε) (e : ε) :
    lastNoted next note start (events ++ [e]) =
      (note (after next start events) e).or (lastNoted next note start events) := by
  induction events generalizing start with
  | nil => simp [lastNoted]
  | cons head tail ih =>
    simp only [List.cons_append, lastNoted, ih, Option.or_assoc]
    rfl

theorem notedInvariant (inv : σ → Option β → Prop) {start : σ} (initially : inv start none)
    (preserved : ∀ s e last, inv s last → inv (next s e) ((note s e).or last))
    (events : List ε) : inv (after next start events) (lastNoted next note start events) := by
  induction events using List.reverseRecOn with
  | nil => exact initially
  | append_singleton events e ih =>
    rw [afterSnoc, lastNotedSnoc]
    exact preserved _ e _ ih

end Noted
end Deterministic
end MonitoringForDevOps.Library.Runs
