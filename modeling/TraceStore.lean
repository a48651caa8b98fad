import TraceStore.Logging.Setup
import TraceStore.Record.Reading
import TraceStore.Settings.Document
import TraceStore.Settings.Layers
import TraceStore.Workspace.Perform
import TraceStore.Proofs.Cache.Calls
import TraceStore.Proofs.Cache.SingleFlight
import TraceStore.Proofs.Cache.Capacity
import TraceStore.Proofs.Cache.Convergence
import TraceStore.Proofs.Record.ObjectGraph
import TraceStore.Proofs.Record.Texts
import TraceStore.Proofs.Store.Flushing
import TraceStore.Proofs.Store.Coherence
import TraceStore.Proofs.Store.FailedWrites
import TraceStore.Proofs.Store.LoadedActions
import TraceStore.Proofs.Store.LoadedOnce
import TraceStore.Proofs.Store.Lookups
import TraceStore.Proofs.Store.Orders
import TraceStore.Proofs.Record.Torn
import TraceStore.Proofs.Record.Rearranged
import TraceStore.Proofs.Workspace.Resolution
import TraceStore.Proofs.Workspace.Immutability
import TraceStore.Proofs.FileTree.Modes
import TraceStore.Proofs.Settings.Precedence
