import Mathlib.Data.List.DropRight
import MonitoringForDevOps.UI.ProductTable

/-! What of the fetched lists the product overview still shows. A product has the name
and the place it came in with when it was last missing, whatever was fetched since. -/
namespace MonitoringForDevOps.UI.ProductHistory
open Library Common Runs KeyedList StableSort ProductTable

/- The last fetched lists, as many as have had the product without a gap. -/
def streak (history : List (List Product)) (id : Guid) : List (List Product) :=
  history.rtakeWhile (fun products => decide (id ∈ products.map Product.id))

/- The name the product had in the first list of its streak. -/
def nameAtEntry (history : List (List Product)) (id : Guid) : Option String :=
  ((streak history id).head?.bind (firstWith Product.id id)).map Product.name

def placeAtEntry (history : List (List Product)) (id : Guid) : ℕ :=
  match (streak history id).head? with
  | some products => (products.map Product.id).idxOf id
  | none => 0

/- One product has been there for longer, or came with the same list but before the other. -/
def EnteredBefore (history : List (List Product)) (a b : Guid) : Prop :=
  (streak history b).length < (streak history a).length ∨
    (streak history a).length = (streak history b).length ∧
      placeAtEntry history a < placeAtEntry history b

instance (history : List (List Product)) (a b : Guid) : Decidable (EnteredBefore history a b) :=
  inferInstanceAs (Decidable (_ ∨ _))

theorem enteredStrict (history : List (List Product)) (a b : Guid)
    (before : EnteredBefore history a b) : ¬ EnteredBefore history b a := by
  unfold EnteredBefore at before ⊢
  omega

theorem streakGone {history : List (List Product)} {products : List Product} {id : Guid}
    (gone : id ∉ products.map Product.id) : streak (history ++ [products]) id = [] :=
  List.rtakeWhile_concat_neg _ _ _ (fun there => gone (of_decide_eq_true there))

theorem streakLonger {history : List (List Product)} {products : List Product} {id : Guid}
    (there : id ∈ products.map Product.id) :
    streak (history ++ [products]) id = streak history id ++ [products] :=
  List.rtakeWhile_concat_pos _ _ _ (decide_eq_true there)

theorem streakMember {history : List (List Product)} {id : Guid} {products}
    (mem : products ∈ streak history id) : products ∈ history ∧ id ∈ products.map Product.id :=
  ⟨(List.rtakeWhile_suffix _ history).subset mem,
    of_decide_eq_true (List.mem_rtakeWhile_imp mem :)⟩

theorem entryKept {history : List (List Product)} {products : List Product} {id : Guid}
    (before : streak history id ≠ []) (there : id ∈ products.map Product.id) :
    (streak (history ++ [products]) id).head? = (streak history id).head? := by
  rw [streakLonger there, List.head?_append_of_ne_nil _ before]

theorem entryNew {history : List (List Product)} {products : List Product} {id : Guid}
    (absent : streak history id = []) (there : id ∈ products.map Product.id) :
    streak (history ++ [products]) id = [products] := by
  rw [streakLonger there, absent, List.nil_append]

structure Entered (history : List (List Product)) (entries : List (Guid × String)) : Prop where
  names : ∀ entry ∈ entries, nameAtEntry history entry.1 = some entry.2
  ordered : entries.Pairwise (fun a b => EnteredBefore history a.1 b.1)
  listed : ∀ id, streak history id ≠ [] → id ∈ entries.map Prod.fst

theorem streakNamed {history : List (List Product)} {id : Guid} {name}
    (named : nameAtEntry history id = some name) : streak history id ≠ [] := by
  intro none_
  rw [nameAtEntry, none_] at named
  cases named

theorem enteredOld {history : List (List Product)} {entries : List (Guid × String)}
    (entered : Entered history entries) (products : List Product) :
    let kept := entries.filter (fun entry => decide (entry.1 ∈ products.map Product.id))
    (∀ entry ∈ kept, nameAtEntry (history ++ [products]) entry.1 = some entry.2) ∧
    (∀ entry ∈ kept, 1 < (streak (history ++ [products]) entry.1).length) ∧
    kept.Pairwise (fun a b => EnteredBefore (history ++ [products]) a.1 b.1) := by
  intro kept
  have stays {entry : Guid × String} (mem : entry ∈ kept) :
      streak history entry.1 ≠ [] ∧ entry.1 ∈ products.map Product.id := by
    obtain ⟨inside,there⟩ := List.mem_filter.mp mem
    exact ⟨streakNamed (entered.names entry inside),of_decide_eq_true there⟩
  refine ⟨?_,?_,?_⟩
  · intro entry mem
    have name := entered.names entry (List.mem_filter.mp mem).1
    rw [nameAtEntry] at name ⊢
    rw [entryKept (stays mem).1 (stays mem).2, name]
  · intro entry mem
    have some_ := List.length_pos_of_ne_nil (stays mem).1
    rw [streakLonger (stays mem).2, List.length_append, List.length_singleton]
    omega
  · refine (entered.ordered.filter _).imp_of_mem ?_
    intro a b memA memB before
    unfold EnteredBefore placeAtEntry at before ⊢
    rw [entryKept (stays memA).1 (stays memA).2, entryKept (stays memB).1 (stays memB).2,
      streakLonger (stays memA).2, streakLonger (stays memB).2]
    simpa only [List.length_append, List.length_singleton, Nat.add_lt_add_iff_right,
      Nat.add_right_cancel_iff] using before

theorem enteredNew {history : List (List Product)} {start : List ProductViewModel}
    (entered : Entered history (start.map ProductViewModel.label)) {products : List Product} {added}
    (adding : Adding start products added) :
    (∀ entry ∈ added, nameAtEntry (history ++ [products]) entry.1 = some entry.2) ∧
    (∀ entry ∈ added, (streak (history ++ [products]) entry.1).length = 1) ∧
    added.Pairwise (fun a b => EnteredBefore (history ++ [products]) a.1 b.1) := by
  have comes {entry : Guid × String} (mem : entry ∈ added) :
      streak (history ++ [products]) entry.1 = [products] := by
    obtain ⟨_,found,_⟩ := adding.first entry mem
    refine entryNew ?_ (firstMember found)
    by_contra before
    have row := entered.listed entry.1 before
    rw [rowsOfLabels] at row
    exact adding.fresh entry mem row
  refine ⟨?_,?_,?_⟩
  · intro entry mem
    obtain ⟨product,found,name⟩ := adding.first entry mem
    rw [nameAtEntry, comes mem]
    simp [found, name]
  · intro entry mem
    rw [comes mem, List.length_singleton]
  · refine adding.ordered.imp_of_mem ?_
    intro a b memA memB before
    unfold EnteredBefore placeAtEntry
    rw [comes memA, comes memB]
    exact .inr ⟨rfl,before⟩

theorem refreshedEntered {history : List (List Product)} {page : Page}
    (distinct : (page.data.map ProductViewModel.id).Nodup)
    (entered : Entered history (page.data.map ProductViewModel.label)) (products : List Product) :
    Entered (history ++ [products])
      ((refreshProducts page products).data.map ProductViewModel.label) := by
  obtain ⟨added,listed,adding⟩ := refreshAdds distinct products
  obtain ⟨oldNames,oldLengths,oldOrder⟩ := enteredOld entered products
  obtain ⟨newNames,newLengths,newOrder⟩ := enteredNew entered adding
  have fetched : added.filter (fun entry => decide (entry.1 ∈ products.map Product.id)) = added := by
    rw [List.filter_eq_self]
    intro entry mem
    obtain ⟨_,found,_⟩ := adding.first entry mem
    exact decide_eq_true (firstMember found)
  have labels : (refreshProducts page products).data.map ProductViewModel.label =
      (page.data.map ProductViewModel.label).filter
        (fun entry => decide (entry.1 ∈ products.map Product.id)) ++ added := by
    rw [refreshedData, keptLabels, listed, List.filter_append, fetched]
  refine ⟨?_,?_,?_⟩
  · rw [labels]
    intro entry mem
    exact (List.mem_append.mp mem).elim (oldNames entry) (newNames entry)
  · rw [labels]
    refine List.pairwise_append.mpr ⟨oldOrder,newOrder,?_⟩
    intro a memA b memB
    refine .inl ?_
    rw [newLengths b memB]
    exact oldLengths a memA
  · intro id there
    rw [rowsOfLabels]
    refine (refreshedIds distinct products id).mpr ?_
    by_contra gone
    exact there (streakGone gone)

theorem pageEntered (history : List (List Product)) :
    Entered history ((pageAfter history).data.map ProductViewModel.label) := by
  have opened : Entered [] (Page.opened.data.map ProductViewModel.label) :=
    ⟨List.forall_mem_nil _,.nil,fun id there => absurd rfl there⟩
  exact historyInvariant refreshProducts
    (fun history page => Entered history (page.data.map ProductViewModel.label)) opened
    (fun history products entered => refreshedEntered (pageDistinct history) entered products) history

theorem rowExactly (history : List (List Product)) (products : List Product) (row : ProductViewModel) :
    row ∈ (pageAfter (history ++ [products])).data ↔
      nameAtEntry (history ++ [products]) row.id = some row.name ∧
      ∃ product, lastWith Product.id row.id products = some product ∧
        row.quantity = product.quantity ∧ row.price = product.price := by
  have step : pageAfter (history ++ [products]) = refreshProducts (pageAfter history) products :=
    afterSnoc refreshProducts .opened history products
  have entered := pageEntered (history ++ [products])
  have filled {row : ProductViewModel} (mem : row ∈ (pageAfter (history ++ [products])).data) :
      nameAtEntry (history ++ [products]) row.id = some row.name ∧
      ∃ product, lastWith Product.id row.id products = some product ∧
        row.quantity = product.quantity ∧ row.price = product.price := by
    refine ⟨entered.names row.label (List.mem_map.mpr ⟨row,mem,rfl⟩),?_⟩
    rw [step] at mem
    exact refreshedValues (pageDistinct history) products mem
  refine ⟨filled,?_⟩
  rintro ⟨name,product,last,quantity,price⟩
  have listed := entered.listed row.id (streakNamed name)
  rw [rowsOfLabels] at listed
  obtain ⟨row',mem,same⟩ := List.mem_map.mp listed
  obtain ⟨name',product',last',quantity',price'⟩ := filled mem
  rw [same] at name' last'
  cases Option.some.inj (last.symm.trans last')
  have whole : row = row' := by
    obtain ⟨id,nm,pr,qu⟩ := row
    obtain ⟨id',nm',pr',qu'⟩ := row'
    cases same
    cases Option.some.inj (name.symm.trans name')
    cases quantity.trans quantity'.symm
    cases price.trans price'.symm
    rfl
  rw [whole]
  exact mem

theorem pageOrdered (history : List (List Product)) :
    (pageAfter history).data.Pairwise (fun a b => EnteredBefore history a.id b.id) := by
  have ordered := (pageEntered history).ordered
  rw [List.pairwise_map] at ordered
  exact ordered

theorem productRow (history : List (List Product)) {products : List Product} {product}
    (mem : product ∈ products) :
    ∃ row ∈ (pageAfter (history ++ [products])).data, row.id = product.id ∧
      nameAtEntry (history ++ [products]) product.id = some row.name := by
  have step : pageAfter (history ++ [products]) = refreshProducts (pageAfter history) products :=
    afterSnoc refreshProducts .opened history products
  have there := (refreshedIds (pageDistinct history) products product.id).mpr
    (List.mem_map.mpr ⟨product,mem,rfl⟩)
  rw [← step] at there
  obtain ⟨row,inside,same⟩ := List.mem_map.mp there
  refine ⟨row,inside,same,?_⟩
  rw [← same]
  exact ((rowExactly history products row).mp inside).1

theorem rowProduct (history : List (List Product)) {products : List Product} {row}
    (inside : row ∈ (pageAfter (history ++ [products])).data) :
    ∃ product ∈ products, product.id = row.id ∧
      nameAtEntry (history ++ [products]) product.id = some row.name := by
  obtain ⟨name,product,last,_⟩ := (rowExactly history products row).mp inside
  obtain ⟨mem,same⟩ := firstWithSome Product.id last
  refine ⟨product,List.mem_reverse.mp mem,same,?_⟩
  rw [same]
  exact name

def HistoryHidden (names : Comparer String) : Prop :=
  ∀ (first second : List (List Product)) (products : List Product),
    (products.map Product.id).Nodup →
      sortedData names (pageAfter (first ++ [products])) =
        sortedData names (pageAfter (second ++ [products]))

def monitor (name : String) : Product :=
  ⟨StockService.lenovo,name,StockService.lenovoPrice,41⟩

theorem oldNameStays : ¬ ∃ names, HistoryHidden names := by
  rintro ⟨names,claim⟩
  have same := claim [[monitor "Lenovo G27q-20"]] [] [monitor "Lenovo G27q-30"] (by decide)
  have first : (pageAfter ([[monitor "Lenovo G27q-20"]] ++ [[monitor "Lenovo G27q-30"]])).data =
      [⟨(monitor "").id,"Lenovo G27q-20",(monitor "").price,41⟩] := by decide
  have second : (pageAfter ([] ++ [[monitor "Lenovo G27q-30"]])).data =
      [⟨(monitor "").id,"Lenovo G27q-30",(monitor "").price,41⟩] := by decide
  simp only [sortedData, first, second, orderBy, List.mergeSort_singleton] at same
  exact absurd same (by decide)

def SameAtEntry (names : Comparer String) (history : List (List Product)) (a b : Guid) : Prop :=
  ∃ nameA nameB, nameAtEntry history a = some nameA ∧ nameAtEntry history b = some nameB ∧
    names.same nameA nameB = true

/- The two histories brought the products in under the same names, and those that the
sort leaves as they stand in the same order. -/
def EnteredAlike (names : Comparer String) (first second : List (List Product))
    (products : List Product) : Prop :=
  (∀ product ∈ products, nameAtEntry first product.id = nameAtEntry second product.id) ∧
  ∀ a ∈ products, ∀ b ∈ products, SameAtEntry names first a.id b.id →
    (EnteredBefore first a.id b.id ↔ EnteredBefore second a.id b.id)

theorem sameRowsIff (first second : List (List Product)) (products : List Product) :
    (∀ row, row ∈ (pageAfter (first ++ [products])).data ↔
        row ∈ (pageAfter (second ++ [products])).data) ↔
      ∀ product ∈ products, nameAtEntry (first ++ [products]) product.id =
        nameAtEntry (second ++ [products]) product.id := by
  constructor
  · intro rows product mem
    obtain ⟨row,inside,same,name⟩ := productRow first mem
    have name' := ((rowExactly second products row).mp ((rows row).mp inside)).1
    rw [name, ← same, name']
  · intro alike row
    rw [rowExactly, rowExactly]
    refine and_congr_left ?_
    rintro ⟨product,last,_⟩
    obtain ⟨mem,same⟩ := firstWithSome Product.id last
    rw [← same, alike product (List.mem_reverse.mp mem)]

theorem sortedSameIff (names : Comparer String) (first second : List (List Product))
    (products : List Product) :
    sortedData names (pageAfter (first ++ [products])) =
        sortedData names (pageAfter (second ++ [products])) ↔
      EnteredAlike names (first ++ [products]) (second ++ [products]) products := by
  unfold sortedData EnteredAlike
  rw [orderByEqIffOrder names ProductViewModel.name (fun a b => enteredStrict _ a.id b.id)
    (fun a b => enteredStrict _ a.id b.id) (pageOrdered (first ++ [products]))
    (pageOrdered (second ++ [products])), sameRowsIff]
  refine and_congr_right fun _ => ⟨?_,?_⟩
  · rintro order a memA b memB ⟨nameA,nameB,named,named',same⟩
    obtain ⟨rowA,insideA,idA,ownA⟩ := productRow first memA
    obtain ⟨rowB,insideB,idB,ownB⟩ := productRow first memB
    cases Option.some.inj (named.symm.trans ownA)
    cases Option.some.inj (named'.symm.trans ownB)
    rw [← idA, ← idB]
    exact order rowA insideA rowB insideB same
  · intro order rowA insideA rowB insideB same
    obtain ⟨a,memA,idA,ownA⟩ := rowProduct first insideA
    obtain ⟨b,memB,idB,ownB⟩ := rowProduct first insideB
    rw [← idA, ← idB]
    exact order a memA b memB ⟨rowA.name,rowB.name,ownA,ownB,same⟩

theorem historyHiddenExactly (names : Comparer String) (first second : List (List Product))
    (products : List Product) :
    sortedData names (pageAfter (first ++ [products])) =
        sortedData names (pageAfter (second ++ [products])) ↔
      EnteredAlike names (first ++ [products]) (second ++ [products]) products :=
  sortedSameIff names first second products

def NeverRenamed (history : List (List Product)) (products : List Product) : Prop :=
  ∀ earlier ∈ history, ∀ old ∈ earlier, ∀ product ∈ products,
    old.id = product.id → old.name = product.name

theorem unrenamedEntry {history : List (List Product)} {products : List Product}
    (unrenamed : NeverRenamed history products) {product} (mem : product ∈ products) :
    nameAtEntry (history ++ [products]) product.id =
      (firstWith Product.id product.id products).map Product.name := by
  have there : product.id ∈ products.map Product.id := List.mem_map.mpr ⟨product,mem,rfl⟩
  by_cases before : streak history product.id = []
  · rw [nameAtEntry, entryNew before there]
    rfl
  · obtain ⟨earlier,rest,listed⟩ := List.exists_cons_of_ne_nil before
    have inside : earlier ∈ streak history product.id := by
      rw [listed]
      exact List.mem_cons_self
    obtain ⟨known,present⟩ := streakMember inside
    rw [nameAtEntry, entryKept before there, listed]
    cases found : firstWith Product.id product.id earlier with
    | none => exact absurd present ((firstWithNone Product.id).mp found)
    | some old =>
      cases found' : firstWith Product.id product.id products with
      | none => exact absurd there ((firstWithNone Product.id).mp found')
      | some now =>
        obtain ⟨memOld,sameOld⟩ := firstWithSome Product.id found
        obtain ⟨memNow,sameNow⟩ := firstWithSome Product.id found'
        have name := unrenamed earlier known old memOld now memNow (sameOld.trans sameNow.symm)
        simp [found, name]

/- Where no product is renamed and the sort tells all names apart, the history is hidden. -/
theorem historyHiddenUnrenamed (names : Comparer String) {first second : List (List Product)}
    {products : List Product} (unrenamed : NeverRenamed first products)
    (unrenamed' : NeverRenamed second products)
    (apart : ∀ a ∈ products, ∀ b ∈ products, names.same a.name b.name = true → a.id = b.id) :
    sortedData names (pageAfter (first ++ [products])) =
      sortedData names (pageAfter (second ++ [products])) := by
  refine (sortedSameIff names first second products).mpr ⟨?_,?_⟩
  · intro product mem
    rw [unrenamedEntry unrenamed mem, unrenamedEntry unrenamed' mem]
  · rintro a memA b memB ⟨nameA,nameB,named,named',same⟩
    rw [unrenamedEntry unrenamed memA] at named
    rw [unrenamedEntry unrenamed memB] at named'
    obtain ⟨rowA,foundA,isA⟩ := Option.map_eq_some_iff.mp named
    obtain ⟨rowB,foundB,isB⟩ := Option.map_eq_some_iff.mp named'
    obtain ⟨inA,idA⟩ := firstWithSome Product.id foundA
    obtain ⟨inB,idB⟩ := firstWithSome Product.id foundB
    rw [← isA, ← isB] at same
    have one : a.id = b.id := idA.symm.trans ((apart rowA inA rowB inB same).trans idB)
    rw [one]
    exact iff_of_false (fun before => enteredStrict _ _ _ before before)
      (fun before => enteredStrict _ _ _ before before)

def ordinal : Comparer String where
  le a b := decide (a ≤ b)
  trans := fun a b c left right =>
    decide_eq_true (String.le_trans (of_decide_eq_true left) (of_decide_eq_true right))
  total := fun a b => by
    rw [Bool.or_eq_true, decide_eq_true_eq, decide_eq_true_eq]
    exact String.le_total a b

def geoBook (name : String) : Product := ⟨StockService.geoBook,name,StockService.lenovoPrice,99⟩

example :
    sortedData ordinal (pageAfter ([[geoBook "G",monitor "L"],[monitor "L"]] ++
        [[monitor "L",geoBook "G"]])) =
      sortedData ordinal (pageAfter ([] ++ [[monitor "L",geoBook "G"]])) :=
  historyHiddenUnrenamed ordinal (by unfold NeverRenamed; decide) (by unfold NeverRenamed; decide)
    (by decide)

example : EnteredBefore [[geoBook "G"],[monitor "G",geoBook "G"]] (geoBook "G").id
    (monitor "G").id := by
  decide

end MonitoringForDevOps.UI.ProductHistory
