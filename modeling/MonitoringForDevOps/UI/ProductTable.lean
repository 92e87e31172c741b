import MonitoringForDevOps.Library.KeyedList
import MonitoringForDevOps.Library.Runs
import MonitoringForDevOps.Library.StableSort
import MonitoringForDevOps.StockService.ProductRepository

/-! The product overview. A refresh updates the rows it already has in place, adds
the others, and then removes what the fetched list no longer has. -/
namespace MonitoringForDevOps.UI.ProductTable
open Library Common Runs KeyedList StableSort

structure ProductViewModel where
  id : Guid
  name : String
  price : Decimal
  quantity : Int32
  deriving DecidableEq

def ProductViewModel.new (id : Guid) (name : String) : ProductViewModel :=
  ⟨id,name,.zero,0⟩

structure Page where
  data : List ProductViewModel
  isLoading : Bool
  deriving DecidableEq

def Page.opened : Page := ⟨[],true⟩

def addMissing (data : List ProductViewModel) (product : Product) : List ProductViewModel :=
  match firstWith ProductViewModel.id product.id data with
  | none => data ++ [.new product.id product.name]
  | some _ => data

def ProductViewModel.assign (vm : ProductViewModel) (product : Product) : ProductViewModel :=
  { vm with quantity := product.quantity, price := product.price }

/- One round of the loop; the row is found, or added, and then written. -/
def refreshRow (data : List ProductViewModel) (product : Product) : List ProductViewModel :=
  writeFirst ProductViewModel.id product.id (fun vm => vm.assign product) (addMissing data product)

def refreshProducts (page : Page) (products : List Product) : Page where
  data := (after refreshRow page.data products).filter
    (fun x => !products.all (fun p => p.id != x.id))
  isLoading := false

def sortedData (names : Comparer String) (page : Page) : List ProductViewModel :=
  orderBy names ProductViewModel.name page.data

def pageAfter (history : List (List Product)) : Page := after refreshProducts .opened history

def ProductViewModel.label (row : ProductViewModel) : Guid × String := (row.id,row.name)

def productLabel (product : Product) : Guid × String := (product.id,product.name)

theorem rowsOfLabels (data : List ProductViewModel) :
    (data.map ProductViewModel.label).map Prod.fst = data.map ProductViewModel.id := by
  rw [List.map_map]
  rfl

theorem refreshRowLabels (data : List ProductViewModel) (product : Product) :
    (refreshRow data product).map ProductViewModel.label =
      if product.id ∈ data.map ProductViewModel.id then data.map ProductViewModel.label
      else data.map ProductViewModel.label ++ [productLabel product] := by
  have kept (row : ProductViewModel) : (row.assign product).label = row.label := rfl
  rw [refreshRow, writeFirstKeeps ProductViewModel.id product.id ProductViewModel.label kept,
    addMissing]
  cases found : firstWith ProductViewModel.id product.id data with
  | none =>
    rw [if_neg ((firstWithNone ProductViewModel.id).mp found), List.map_append]
    rfl
  | some vm =>
    have ⟨mem,same⟩ := firstWithSome ProductViewModel.id found
    rw [if_pos (List.mem_map.mpr ⟨vm,mem,same⟩)]

theorem refreshRowIds (data : List ProductViewModel) (product : Product) :
    (refreshRow data product).map ProductViewModel.id =
      if product.id ∈ data.map ProductViewModel.id then data.map ProductViewModel.id
      else data.map ProductViewModel.id ++ [product.id] := by
  rw [← rowsOfLabels, refreshRowLabels]
  split
  · exact rowsOfLabels data
  · rw [List.map_append, rowsOfLabels]
    rfl

theorem refreshRowDistinct {data : List ProductViewModel}
    (distinct : (data.map ProductViewModel.id).Nodup) (product : Product) :
    ((refreshRow data product).map ProductViewModel.id).Nodup := by
  rw [refreshRowIds]
  split
  · exact distinct
  · rename_i fresh
    exact List.nodup_append.mpr ⟨distinct,List.nodup_singleton _,by
      intro id mem id' mem' same
      rw [List.mem_singleton.mp mem'] at same
      exact fresh (same ▸ mem)⟩

/- After a round every row but the product's own is as it was. -/
theorem refreshRowMember {data : List ProductViewModel}
    (distinct : (data.map ProductViewModel.id).Nodup) (product : Product) {row}
    (mem : row ∈ refreshRow data product) :
    row.id = product.id ∧ row.quantity = product.quantity ∧ row.price = product.price ∨
      row.id ≠ product.id ∧ row ∈ data := by
  have kept (row : ProductViewModel) : (row.assign product).id = row.id := rfl
  have whole := refreshRowDistinct distinct product
  rw [refreshRow, writeFirstKeeps ProductViewModel.id product.id ProductViewModel.id kept] at whole
  rw [refreshRow, writeFirstMap ProductViewModel.id whole] at mem
  obtain ⟨old,inside,written⟩ := List.mem_map.mp mem
  split at written
  · rename_i same
    subst written
    exact .inl ⟨same,rfl,rfl⟩
  · rename_i other
    subst written
    refine .inr ⟨other,?_⟩
    unfold addMissing at inside
    cases found : firstWith ProductViewModel.id product.id data with
    | none =>
      rw [found] at inside
      rcases List.mem_append.mp inside with before | new
      · exact before
      · rw [List.mem_singleton.mp new] at other
        exact absurd rfl other
    | some vm =>
      rw [found] at inside
      exact inside

/- The loop after a part of the fetched list. -/
structure Refreshing (start : List ProductViewModel) (seen : List Product)
    (data : List ProductViewModel) : Prop where
  distinct : (data.map ProductViewModel.id).Nodup
  ids : ∀ id, id ∈ data.map ProductViewModel.id ↔
    id ∈ start.map ProductViewModel.id ∨ id ∈ seen.map Product.id
  values : ∀ row ∈ data, match lastWith Product.id row.id seen with
    | some product => row.quantity = product.quantity ∧ row.price = product.price
    | none => row ∈ start

theorem refreshingStart {start : List ProductViewModel}
    (distinct : (start.map ProductViewModel.id).Nodup) : Refreshing start [] start where
  distinct := distinct
  ids := by simp
  values := fun _ mem => mem

theorem refreshingRound {start : List ProductViewModel} {seen : List Product} {data}
    (refreshing : Refreshing start seen data) (product : Product) :
    Refreshing start (seen ++ [product]) (refreshRow data product) where
  distinct := refreshRowDistinct refreshing.distinct product
  ids := by
    intro id
    have before := refreshing.ids id
    rw [refreshRowIds]
    split
    · rename_i present
      rw [before, List.map_append, List.mem_append, ← or_assoc]
      refine ⟨.inl,?_⟩
      rintro (old | new)
      · exact old
      · rw [List.mem_singleton.mp new]
        exact (refreshing.ids product.id).mp present
    · rw [List.mem_append, before, List.map_append, List.mem_append, or_assoc]
      rfl
  values := by
    intro row mem
    rw [lastWithSnoc]
    rcases refreshRowMember refreshing.distinct product mem with ⟨same,quantity,price⟩ | ⟨other,old⟩
    · rw [if_pos same.symm]
      exact ⟨quantity,price⟩
    · rw [if_neg (Ne.symm other)]
      exact refreshing.values row old

theorem refreshed {start : List ProductViewModel}
    (distinct : (start.map ProductViewModel.id).Nodup) (products : List Product) :
    Refreshing start products (after refreshRow start products) :=
  historyInvariant refreshRow (Refreshing start) (refreshingStart distinct)
    (fun _ product refreshing => refreshingRound refreshing product) products

/- The loop adds, in fetched order, a row for each product it did not have. -/
structure Adding (start : List ProductViewModel) (seen : List Product)
    (added : List (Guid × String)) : Prop where
  fresh : ∀ entry ∈ added, entry.1 ∉ start.map ProductViewModel.id
  first : ∀ entry ∈ added, ∃ product, firstWith Product.id entry.1 seen = some product ∧
    product.name = entry.2
  ordered : added.Pairwise (fun a b =>
    (seen.map Product.id).idxOf a.1 < (seen.map Product.id).idxOf b.1)

theorem firstMember {seen : List Product} {id : Guid} {product}
    (found : firstWith Product.id id seen = some product) : id ∈ seen.map Product.id := by
  obtain ⟨mem,same⟩ := firstWithSome Product.id found
  exact List.mem_map.mpr ⟨product,mem,same⟩

theorem addingMore {start : List ProductViewModel} {seen : List Product} {added}
    (adding : Adding start seen added) (product : Product) :
    Adding start (seen ++ [product]) added where
  fresh := adding.fresh
  first := by
    intro entry mem
    obtain ⟨first,found,name⟩ := adding.first entry mem
    refine ⟨first,?_,name⟩
    unfold firstWith at found ⊢
    rw [List.find?_append, found, Option.some_or]
  ordered := by
    refine adding.ordered.imp_of_mem ?_
    intro a b memA memB before
    obtain ⟨_,foundA,_⟩ := adding.first a memA
    obtain ⟨_,foundB,_⟩ := adding.first b memB
    rw [List.map_append, List.idxOf_append_of_mem (firstMember foundA),
      List.idxOf_append_of_mem (firstMember foundB)]
    exact before

theorem addingNew {start : List ProductViewModel} {seen : List Product} {added}
    (adding : Adding start seen added) {product : Product}
    (unseen : product.id ∉ seen.map Product.id)
    (absent : product.id ∉ start.map ProductViewModel.id) :
    Adding start (seen ++ [product]) (added ++ [productLabel product]) where
  fresh := by
    intro entry mem
    rcases List.mem_append.mp mem with old | new
    · exact adding.fresh entry old
    · rw [List.mem_singleton.mp new]
      exact absent
  first := by
    intro entry mem
    rcases List.mem_append.mp mem with old | new
    · exact (addingMore adding product).first entry old
    · rw [List.mem_singleton.mp new]
      refine ⟨product,?_,rfl⟩
      have none_ := (firstWithNone Product.id).mpr unseen
      unfold firstWith at none_ ⊢
      rw [productLabel, List.find?_append, none_]
      simp
  ordered := by
    refine List.pairwise_append.mpr ⟨(addingMore adding product).ordered,List.pairwise_singleton _ _,?_⟩
    intro a memA b memB
    rw [List.mem_singleton.mp memB]
    obtain ⟨_,foundA,_⟩ := adding.first a memA
    change _ < List.idxOf product.id _
    rw [List.map_append, List.idxOf_append_of_mem (firstMember foundA),
      List.idxOf_append_of_notMem unseen]
    exact Nat.lt_add_right _ (List.idxOf_lt_length_of_mem (firstMember foundA))

theorem refreshAdds {start : List ProductViewModel}
    (distinct : (start.map ProductViewModel.id).Nodup) (products : List Product) :
    ∃ added, (after refreshRow start products).map ProductViewModel.label =
        start.map ProductViewModel.label ++ added ∧ Adding start products added := by
  induction products using List.reverseRecOn with
  | nil => exact ⟨[],by simp,⟨nofun,nofun,.nil⟩⟩
  | append_singleton products product ih =>
    obtain ⟨added,listed,adding⟩ := ih
    have ids := (refreshed distinct products).ids product.id
    rw [afterSnoc, refreshRowLabels]
    split
    · exact ⟨added,listed,addingMore adding product⟩
    · rename_i absent
      rw [ids, not_or] at absent
      refine ⟨added ++ [productLabel product],?_,addingNew adding absent.2 absent.1⟩
      rw [listed, List.append_assoc]

theorem stillFetched (products : List Product) (id : Guid) :
    (!products.all (fun p => p.id != id)) = decide (id ∈ products.map Product.id) := by
  rw [Bool.eq_iff_iff]
  simp

theorem refreshedData (page : Page) (products : List Product) :
    (refreshProducts page products).data = (after refreshRow page.data products).filter
      (fun row => decide (row.id ∈ products.map Product.id)) :=
  List.filter_congr (fun row _ => stillFetched products row.id)

theorem refreshedDistinct {page : Page} (distinct : (page.data.map ProductViewModel.id).Nodup)
    (products : List Product) :
    ((refreshProducts page products).data.map ProductViewModel.id).Nodup := by
  rw [refreshedData]
  exact (refreshed distinct products).distinct.sublist (List.filter_sublist.map _)

theorem pageDistinct (history : List (List Product)) :
    ((pageAfter history).data.map ProductViewModel.id).Nodup := by
  have opened : (Page.opened.data.map ProductViewModel.id).Nodup := List.nodup_nil
  exact afterInvariant refreshProducts (fun page => (page.data.map ProductViewModel.id).Nodup)
    opened (fun _ products distinct => refreshedDistinct distinct products) history

theorem refreshedIds {page : Page} (distinct : (page.data.map ProductViewModel.id).Nodup)
    (products : List Product) (id : Guid) :
    id ∈ (refreshProducts page products).data.map ProductViewModel.id ↔
      id ∈ products.map Product.id := by
  have loop := refreshed distinct products
  rw [refreshedData]
  constructor
  · intro mem
    obtain ⟨row,inside,same⟩ := List.mem_map.mp mem
    rw [← same]
    exact of_decide_eq_true (List.mem_filter.mp inside).2
  · intro fetched
    obtain ⟨row,inside,same⟩ := List.mem_map.mp ((loop.ids id).mpr (.inr fetched))
    subst same
    exact List.mem_map.mpr ⟨row,List.mem_filter.mpr ⟨inside,decide_eq_true fetched⟩,rfl⟩

theorem refreshedValues {page : Page} (distinct : (page.data.map ProductViewModel.id).Nodup)
    (products : List Product) {row} (mem : row ∈ (refreshProducts page products).data) :
    ∃ product, lastWith Product.id row.id products = some product ∧
      row.quantity = product.quantity ∧ row.price = product.price := by
  rw [refreshedData] at mem
  obtain ⟨inside,fetched⟩ := List.mem_filter.mp mem
  have values := (refreshed distinct products).values row inside
  cases last : lastWith Product.id row.id products with
  | none => exact absurd (of_decide_eq_true fetched) ((lastWithNone Product.id).mp last)
  | some product =>
    rw [last] at values
    exact ⟨product,rfl,values⟩

theorem keptLabels (data : List ProductViewModel) (products : List Product) :
    (data.filter (fun row => decide (row.id ∈ products.map Product.id))).map
        ProductViewModel.label =
      (data.map ProductViewModel.label).filter
        (fun entry => decide (entry.1 ∈ products.map Product.id)) := by
  rw [List.filter_map]
  rfl

theorem refreshReconciles (history : List (List Product)) (products : List Product) :
    let before := (pageAfter history).data
    let data := (pageAfter (history ++ [products])).data
    (data.map ProductViewModel.id).Nodup ∧
    (∀ id, id ∈ data.map ProductViewModel.id ↔ id ∈ products.map Product.id) ∧
    (∀ row ∈ data, ∃ product, lastWith Product.id row.id products = some product ∧
      row.quantity = product.quantity ∧ row.price = product.price) ∧
    ∃ added, data.map ProductViewModel.label =
        (before.filter (fun row => decide (row.id ∈ products.map Product.id))).map
          ProductViewModel.label ++ added ∧
      ∀ entry ∈ added, entry.1 ∉ before.map ProductViewModel.id := by
  have distinct := pageDistinct history
  have step : pageAfter (history ++ [products]) = refreshProducts (pageAfter history) products :=
    afterSnoc refreshProducts .opened history products
  simp only [step]
  refine ⟨refreshedDistinct distinct products,refreshedIds distinct products,
    fun _ mem => refreshedValues distinct products mem,?_⟩
  obtain ⟨added,listed,adding⟩ := refreshAdds distinct products
  refine ⟨added.filter (fun entry => decide (entry.1 ∈ products.map Product.id)),?_,?_⟩
  · rw [refreshedData, keptLabels, listed, List.filter_append, keptLabels]
  · intro entry mem
    exact adding.fresh entry (List.mem_filter.mp mem).1

end MonitoringForDevOps.UI.ProductTable
