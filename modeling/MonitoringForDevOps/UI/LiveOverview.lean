import MonitoringForDevOps.StockService.Program
import MonitoringForDevOps.StockService.UpdateRace
import MonitoringForDevOps.UI.ProductHistory

/-! Product overviews over the live stock service. Fetches of one page overlap each
other and the PUTs, and a response is written product by product while they run. -/
namespace MonitoringForDevOps.UI.LiveOverview
open Library Common Runs Interleaving KeyedList StableSort StockService UpdateRace ProductTable
  ProductHistory

inductive Fetch where
  | reading (read : List Product)
  | answered (products : List Product)
  deriving DecidableEq

/- Beside a page stand its open fetches and, as a record only, the lists that it has
been refreshed with so far. -/
inductive Actor where
  | put (call : UpdateCall)
  | overview (page : Page) (fetches : List Fetch) (refreshed : List (List Product))
  deriving DecidableEq

def Actor.fresh : Actor → Prop
  | .put call => ∃ id q, call = .waiting id q
  | .overview page fetches refreshed => page = .opened ∧ fetches = [] ∧ refreshed = []

def ProductViewModel.catalogue (row : ProductViewModel) : Guid × String × Decimal :=
  (row.id,row.name,row.price)

section OneCatalogue
variable {history : List (List Product)} {products : List Product}

end OneCatalogue

section Served
variable (stock : Stock) (actors : List Actor)

variable {stock actors}

end Served

section Overtaken

end Overtaken
end MonitoringForDevOps.UI.LiveOverview
