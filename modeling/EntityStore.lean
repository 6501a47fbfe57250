import EntityStore.Main
import EntityStore.Proofs.Dml.Upsert
import EntityStore.Proofs.Filter.Reading
import EntityStore.Proofs.Filter.Refusals
import EntityStore.Proofs.Filter.Undeclared
import EntityStore.Proofs.Filter.Fragments
import EntityStore.Proofs.Dml.Refusals
import EntityStore.Proofs.Dml.Defaults
import EntityStore.Proofs.Store.Calls
import EntityStore.Proofs.Ddl.Wording
import EntityStore.Proofs.Schema.DerivedNames
import EntityStore.Proofs.Reconcile.Realised
import EntityStore.Proofs.Reconcile.Agreement
import EntityStore.Proofs.Reconcile.Convergence
import EntityStore.Proofs.Reconcile.DryRun
import EntityStore.Proofs.Reconcile.FanOut
import EntityStore.Proofs.Change.IndexComparison
import EntityStore.Proofs.Change.ReportedTypes
import EntityStore.Proofs.Change.ReportedIndexes
import EntityStore.Proofs.Dml.Absence
import EntityStore.Proofs.Dml.Selection
import EntityStore.Proofs.Sql.Escapes
import EntityStore.Proofs.Ddl.Spellings
import EntityStore.Proofs.Calendar.Reading
import EntityStore.Proofs.Document.Reading
import EntityStore.Proofs.Sql.WholeNumbers
import EntityStore.Proofs.Filter.Templates
import EntityStore.Proofs.Filter.Orders
import EntityStore.Proofs.Filter.UnreadableDates
import EntityStore.Proofs.Filter.Documents
import EntityStore.Proofs.Schema.Declarations
