import SnapshotStore.Concurrent.Counting
import SnapshotStore.Main
import SnapshotStore.Proofs.Concurrent.Realization
import SnapshotStore.Proofs.Concurrent.Retirement
import SnapshotStore.Proofs.Index.Bindings
import SnapshotStore.Proofs.Memory.Delivery
import SnapshotStore.Proofs.Payload.Burst
import SnapshotStore.Proofs.Payload.Language
import SnapshotStore.Proofs.Session.Balance
import SnapshotStore.Proofs.Session.Copying
import SnapshotStore.Proofs.Session.Isolation
import SnapshotStore.Proofs.Session.Reordering
import SnapshotStore.Proofs.Store.GroupedMap
import SnapshotStore.Proofs.Store.Separation
import SnapshotStore.Proofs.Workload.Agreement
import SnapshotStore.Proofs.Session.Listing
import SnapshotStore.Proofs.Session.Reading
import SnapshotStore.Proofs.Session.Fetching
import SnapshotStore.Proofs.Workload.Reloads
import SnapshotStore.Proofs.Session.Pieces
import SnapshotStore.Proofs.Index.Gather
import SnapshotStore.Proofs.Index.History
import SnapshotStore.Proofs.Data.Xorshift
import SnapshotStore.Proofs.Memory.KeyLists
import SnapshotStore.Concurrent.Quiescence
import SnapshotStore.Proofs.Concurrent.Ledger
import SnapshotStore.Proofs.Concurrent.Stocktaking
