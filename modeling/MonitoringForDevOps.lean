import MonitoringForDevOps.UI.OrderAtomicity
import MonitoringForDevOps.External.DelayGenerator
import MonitoringForDevOps.Tracing.Shop
import MonitoringForDevOps.Metrics.MeticsInterceptor
import MonitoringForDevOps.UI.OrderPage
import MonitoringForDevOps.CustomerService.Business
import MonitoringForDevOps.CustomerService.Services
import MonitoringForDevOps.UI.CustomerPage
import MonitoringForDevOps.Library.KeyedList
import MonitoringForDevOps.Library.StableSort
import MonitoringForDevOps.UI.ProductTable
import MonitoringForDevOps.UI.ProductHistory
import MonitoringForDevOps.Metrics.CallTags
import MonitoringForDevOps.Library.Heap
import MonitoringForDevOps.StockService.ProductMetricsService
import MonitoringForDevOps.Library.LabelledCounter
import MonitoringForDevOps.Metrics.MeetupRepository
import MonitoringForDevOps.Library.Progress
import MonitoringForDevOps.UI.OrderProgress
import MonitoringForDevOps.Library.Refinement
import MonitoringForDevOps.Library.ReadModifyWrite
import MonitoringForDevOps.UI.OrderRefinement
import MonitoringForDevOps.UI.OrderSurvivors
import MonitoringForDevOps.Library.Linearization
import MonitoringForDevOps.UI.LiveOverview
import MonitoringForDevOps.External.DelayRace
import MonitoringForDevOps.UI.Storefront
import MonitoringForDevOps.Common.TelemetryBuilder
import MonitoringForDevOps.Metrics.GaugeAge
import MonitoringForDevOps.UI.OrderDemand
import MonitoringForDevOps.Metrics.DemoService
import MonitoringForDevOps.Tracing.Visits
import MonitoringForDevOps.UI.OrderWorth
