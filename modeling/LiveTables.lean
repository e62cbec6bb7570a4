import LiveTables.Scenario.Play
import LiveTables.Value.Json
import LiveTables.Value.Json.Reader
import LiveTables.IndexDef.Fields
import LiveTables.Proofs.Conclusion
import LiveTables.Proofs.Reach
import LiveTables.Proofs.StoreStep
import LiveTables.Proofs.Live
import LiveTables.Proofs.RegisteredIndexes
import LiveTables.Proofs.Publication
import LiveTables.Proofs.PublishedEntries
import LiveTables.Proofs.RefusedReload
import LiveTables.Proofs.BuiltTable
import LiveTables.Proofs.FreeLookup
import LiveTables.Proofs.Frame
import LiveTables.Proofs.Offers
import LiveTables.Proofs.Latches
import LiveTables.Proofs.Links
import LiveTables.Proofs.OneStore
import LiveTables.Proofs.Course
import LiveTables.Proofs.PassStages
import LiveTables.Proofs.CompletePass
import LiveTables.Proofs.OneWayLatch
import LiveTables.Proofs.Filling
import LiveTables.Proofs.Snapshots
import LiveTables.Proofs.Cycles
import LiveTables.Proofs.Joining
import LiveTables.Proofs.Settling
import LiveTables.Proofs.Gathering
import LiveTables.Proofs.Rounds
import LiveTables.Proofs.ToldListeners
import LiveTables.Proofs.GatheredListeners
import LiveTables.Proofs.CatalogPass
import LiveTables.Proofs.OtherCalls
import LiveTables.Proofs.CatalogTurns
import LiveTables.Proofs.ManagedBindings
import LiveTables.Proofs.QuotedText
import LiveTables.Proofs.WrittenConfig
import LiveTables.Proofs.Attempts
import LiveTables.Proofs.LaterListing
import LiveTables.Proofs.RepeatedReload
import LiveTables.Proofs.Agreement
import LiveTables.Proofs.AlikeCalls
import LiveTables.Proofs.SeparateTypes
import LiveTables.Proofs.KeyCollisions
import LiveTables.Proofs.ExactTable
import LiveTables.Proofs.LateDefinition
import LiveTables.Proofs.Verdicts
import LiveTables.Proofs.NotedFailures
import LiveTables.Proofs.FirstOffence
import LiveTables.Proofs.SelectedNames
import LiveTables.Proofs.DanglingIds
import LiveTables.Proofs.FaultedRegistration
import LiveTables.Proofs.BroaderScopes
import LiveTables.Proofs.IntegerKeys
import LiveTables.Proofs.InsertionOrder
