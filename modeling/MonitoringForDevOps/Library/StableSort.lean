import Mathlib.Data.List.Sort

/-! Stable sorting by a key under a total preorder. A sorted list is determined by
what it holds, in order, of each class of equal keys. -/
namespace MonitoringForDevOps.Library.StableSort

structure Comparer (κ : Type) where
  le : κ → κ → Bool
  trans : ∀ a b c, le a b = true → le b c = true → le a c = true
  total : ∀ a b, (le a b || le b a) = true

variable {κ α : Type}

namespace Comparer

def same (names : Comparer κ) (a b : κ) : Bool := names.le a b && names.le b a

theorem sameSelf (names : Comparer κ) (a : κ) : names.same a a = true := by
  have either := names.total a a
  simpa [same] using either

theorem leOfSame (names : Comparer κ) {a b k : κ} (left : names.same a k = true)
    (right : names.same b k = true) : names.le a b = true := by
  simp only [same, Bool.and_eq_true] at left right
  exact names.trans a k b left.1 right.2

theorem sameKeys (names : Comparer κ) {a b k : κ} (left : names.same a k = true)
    (right : names.same b k = true) : names.same a b = true := by
  have above := names.leOfSame left right
  have below := names.leOfSame right left
  simp only [same, above, below, Bool.and_self]

end Comparer

def orderBy (names : Comparer κ) (key : α → κ) (l : List α) : List α :=
  l.mergeSort (fun a b => names.le (key a) (key b))

/- The elements of one class of keys, in the list's order. -/
def classOf (names : Comparer κ) (key : α → κ) (k : κ) (l : List α) : List α :=
  l.filter (fun a => names.same (key a) k)

theorem orderBySorted (names : Comparer κ) (key : α → κ) (l : List α) :
    (orderBy names key l).Pairwise (fun a b => names.le (key a) (key b) = true) :=
  List.pairwise_mergeSort (fun a b c => names.trans (key a) (key b) (key c))
    (fun a b => names.total (key a) (key b)) l

/- Elements of one class are sorted as they are, so a stable sort keeps their order. -/
theorem orderByClass (names : Comparer κ) (key : α → κ) (k : κ) (l : List α) :
    classOf names key k (orderBy names key l) = classOf names key k l := by
  have member {a : α} (mem : a ∈ classOf names key k l) : names.same (key a) k = true :=
    (List.mem_filter.mp mem).2
  have sorted : (classOf names key k l).Pairwise
      (fun a b => names.le (key a) (key b) = true) :=
    List.pairwise_of_forall_mem_list (fun a memA b memB => names.leOfSame (member memA) (member memB))
  have inside : (classOf names key k l).Sublist (orderBy names key l) :=
    List.sublist_mergeSort (fun a b c => names.trans (key a) (key b) (key c))
      (fun a b => names.total (key a) (key b)) sorted List.filter_sublist
  have kept : (classOf names key k l).Sublist (classOf names key k (orderBy names key l)) := by
    have filtered := inside.filter (fun a => names.same (key a) k)
    simp only [classOf, List.filter_filter, Bool.and_self] at filtered
    exact filtered
  have size : (classOf names key k (orderBy names key l)).length = (classOf names key k l).length :=
    ((List.mergeSort_perm l _).filter _).length_eq
  exact (kept.eq_of_length size.symm).symm

theorem memberOfClass (names : Comparer κ) {key : α → κ} {a : α} {l l' : List α}
    (classes : classOf names key (key a) l = classOf names key (key a) l') (mem : a ∈ l) : a ∈ l' := by
  have inside : a ∈ classOf names key (key a) l :=
    List.mem_filter.mpr ⟨mem,names.sameSelf (key a)⟩
  rw [classes] at inside
  exact (List.mem_filter.mp inside).1

theorem sortedUnique (names : Comparer κ) (key : α → κ) {l l' : List α}
    (sorted : l.Pairwise (fun a b => names.le (key a) (key b) = true))
    (sorted' : l'.Pairwise (fun a b => names.le (key a) (key b) = true))
    (classes : ∀ k, classOf names key k l = classOf names key k l') : l = l' := by
  induction l generalizing l' with
  | nil =>
    cases l' with
    | nil => rfl
    | cons b rest => cases memberOfClass names (classes (key b)).symm List.mem_cons_self
  | cons a tail ih =>
    cases l' with
    | nil => cases memberOfClass names (classes (key a)) List.mem_cons_self
    | cons b rest =>
      have first {x y : α} {t : List α} (mem : y ∈ x :: t)
          (ordered : (x :: t).Pairwise (fun a b => names.le (key a) (key b) = true)) :
          names.le (key x) (key y) = true := by
        rcases List.mem_cons.mp mem with same | later
        · subst same
          exact names.leOfSame (names.sameSelf (key y)) (names.sameSelf (key y))
        · exact (List.pairwise_cons.mp ordered).1 y later
      have below := first (memberOfClass names (classes (key b)).symm List.mem_cons_self) sorted
      have above := first (memberOfClass names (classes (key a)) List.mem_cons_self) sorted'
      have together : names.same (key b) (key a) = true := by
        simp only [Comparer.same, above, below, Bool.and_self]
      have heads := classes (key a)
      simp only [classOf, List.filter_cons, names.sameSelf, together, if_true,
        List.cons.injEq] at heads
      obtain ⟨head,_⟩ := heads
      subst head
      refine congrArg (a :: ·) (ih (List.pairwise_cons.mp sorted).2
        (List.pairwise_cons.mp sorted').2 ?_)
      intro k
      have whole := classes k
      simp only [classOf, List.filter_cons] at whole ⊢
      split at whole
      · exact (List.cons.inj whole).2
      · exact whole

theorem orderByEqIff (names : Comparer κ) (key : α → κ) (l l' : List α) :
    orderBy names key l = orderBy names key l' ↔
      ∀ k, classOf names key k l = classOf names key k l' := by
  constructor
  · intro same k
    rw [← orderByClass names key k l, same, orderByClass]
  · intro classes
    refine sortedUnique names key (orderBySorted names key l) (orderBySorted names key l') ?_
    intro k
    rw [orderByClass, orderByClass, classes k]

section Ordered
variable {R R' : α → α → Prop}

theorem orderedBoth (strict : ∀ a b, R a b → ¬ R b a) (strict' : ∀ a b, R' a b → ¬ R' b a)
    {l : List α} (ordered : l.Pairwise R) (ordered' : l.Pairwise R') :
    ∀ a ∈ l, ∀ b ∈ l, (R a b ↔ R' a b) := by
  have both := ordered.and ordered'
  have self : ∀ a ∈ l, (R a a ↔ R' a a) := fun a _ =>
    iff_of_false (fun h => strict a a h h) (fun h => strict' a a h h)
  have forward : l.Pairwise (fun a b => R a b ↔ R' a b) :=
    both.imp (fun h => iff_of_true h.1 h.2)
  have backward : l.Pairwise (flip (fun a b => R a b ↔ R' a b)) :=
    both.imp (fun h => iff_of_false (strict _ _ h.1) (strict' _ _ h.2))
  intro a memA b memB
  exact List.Pairwise.forall_of_forall_of_flip self forward backward memA memB

theorem orderedNodup (strict : ∀ a b, R a b → ¬ R b a) {l : List α} (ordered : l.Pairwise R) :
    l.Nodup := by
  refine ordered.imp ?_
  intro a b before same
  subst same
  exact strict a a before before

/- Lists in strict orders are equal when they hold the same, in the same order. -/
theorem orderedEqIff (strict : ∀ a b, R a b → ¬ R b a) (strict' : ∀ a b, R' a b → ¬ R' b a)
    {l l' : List α} (ordered : l.Pairwise R) (ordered' : l'.Pairwise R') :
    l = l' ↔ (∀ a, a ∈ l ↔ a ∈ l') ∧ ∀ a ∈ l, ∀ b ∈ l, (R a b ↔ R' a b) := by
  constructor
  · intro same
    subst same
    exact ⟨fun _ => Iff.rfl,orderedBoth strict strict' ordered ordered'⟩
  · rintro ⟨members,order⟩
    have perm : l.Perm l' := (List.perm_ext_iff_of_nodup (orderedNodup strict ordered)
      (orderedNodup strict' ordered')).mpr members
    have sorted : l'.Pairwise R := by
      refine ordered'.imp_of_mem ?_
      intro a b memA memB before
      exact (order a ((members a).mpr memA) b ((members b).mpr memB)).mpr before
    exact perm.eq_of_pairwise (fun a b _ _ before back => absurd back (strict a b before))
      ordered sorted

/- After a stable sort only the order within each class of keys is left. -/
theorem orderByEqIffOrder (names : Comparer κ) (key : α → κ)
    (strict : ∀ a b, R a b → ¬ R b a) (strict' : ∀ a b, R' a b → ¬ R' b a)
    {l l' : List α} (ordered : l.Pairwise R) (ordered' : l'.Pairwise R') :
    orderBy names key l = orderBy names key l' ↔
      (∀ a, a ∈ l ↔ a ∈ l') ∧
      ∀ a ∈ l, ∀ b ∈ l, names.same (key a) (key b) = true → (R a b ↔ R' a b) := by
  have byClass (k : κ) := orderedEqIff strict strict' (ordered.filter (fun a => names.same (key a) k))
    (ordered'.filter (fun a => names.same (key a) k))
  rw [orderByEqIff]
  constructor
  · intro classes
    refine ⟨fun a => ⟨memberOfClass names (classes (key a)),
      memberOfClass names (classes (key a)).symm⟩,?_⟩
    intro a memA b memB same
    exact ((byClass (key b)).mp (classes (key b))).2 a (List.mem_filter.mpr ⟨memA,same⟩)
      b (List.mem_filter.mpr ⟨memB,names.sameSelf (key b)⟩)
  · rintro ⟨members,order⟩ k
    refine (byClass k).mpr ⟨?_,?_⟩
    · intro a
      rw [List.mem_filter, List.mem_filter, members a]
    · intro a memA b memB
      obtain ⟨inA,sameA⟩ := List.mem_filter.mp memA
      obtain ⟨inB,sameB⟩ := List.mem_filter.mp memB
      exact order a inA b inB (names.sameKeys sameA sameB)

end Ordered
end MonitoringForDevOps.Library.StableSort
