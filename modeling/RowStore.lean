import RowStore.Bytes.Hex
import RowStore.Database.View
import RowStore.Main
import RowStore.Proofs.Operations
import RowStore.Proofs.Runs
import RowStore.Proofs.FifoOrder
import RowStore.Proofs.FifoDiscipline
import RowStore.Proofs.CallSteps
import RowStore.Proofs.DirtyMarks
import RowStore.Proofs.Durability
import RowStore.Proofs.Progress
import RowStore.Proofs.Sheets
import RowStore.Proofs.Transparency
import RowStore.Proofs.Demands
import RowStore.Proofs.Enumeration
import RowStore.Proofs.PageImages
import RowStore.Proofs.TableScans
import RowStore.Proofs.GroupRows
import RowStore.Proofs.PlanResults
import RowStore.Proofs.Changes
import RowStore.Proofs.Deletion
import RowStore.Proofs.RegularStates
import RowStore.Proofs.SheetCopies
import RowStore.Proofs.SelfInsertion
import RowStore.Proofs.Flushes
import RowStore.Proofs.Reopening
import RowStore.Proofs.LoneTransactions
import RowStore.Proofs.LiveScans
import RowStore.Proofs.DetachedPlans
import RowStore.Proofs.Insertion
import RowStore.Proofs.Turnover
import RowStore.Proofs.Registrations
import RowStore.Proofs.StalePages
import RowStore.Proofs.Evictions
import RowStore.Proofs.SteadyTables
import RowStore.Proofs.LossyScans
import RowStore.Proofs.PartialChanges
import RowStore.Proofs.CatalogNames
import RowStore.Proofs.Lifecycles
import RowStore.Proofs.Occupancy
import RowStore.Proofs.Aggregates
import RowStore.Proofs.CanonicalImages
import RowStore.Proofs.CheckedReads
import RowStore.Proofs.SlotMaps
import RowStore.Proofs.Requests
import RowStore.Proofs.Completions
import RowStore.Proofs.TornPages
import RowStore.Proofs.UpdateMarks
import RowStore.Proofs.Reservations
import RowStore.Proofs.FailedEdits
import RowStore.Proofs.FailedFetches
import RowStore.Proofs.ReportedPages
import RowStore.Proofs.Rewinds
import RowStore.Proofs.FilteredCopies
import RowStore.Proofs.ImageRegions
import RowStore.Proofs.PageHistories
import RowStore.Proofs.PageTransfers
import RowStore.Proofs.RowEncodings
import RowStore.Proofs.SlotNumbers
import RowStore.Proofs.FailedMerges
