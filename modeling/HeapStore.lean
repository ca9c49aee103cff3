import HeapStore.Engine.Change
import HeapStore.Engine.Scan
import HeapStore.Import.Basic
import HeapStore.Main
import HeapStore.Page.Encoding
import HeapStore.Page.Stored
import HeapStore.Proofs.Fetching
import HeapStore.Proofs.PageRows
import HeapStore.Settings.Reading
import HeapStore.Shell.Command
import HeapStore.Proofs.Changes
import HeapStore.Proofs.Scans
import HeapStore.Proofs.Calls
import HeapStore.Proofs.Isolation
import HeapStore.Proofs.Opening
import HeapStore.Proofs.Durability
import HeapStore.Proofs.Replays
import HeapStore.Proofs.Tracks
import HeapStore.Proofs.Serializability
import HeapStore.Proofs.Completion
import HeapStore.Proofs.Requests
import HeapStore.Proofs.Agreement
import HeapStore.Proofs.Ownership
import HeapStore.Proofs.Alike
import HeapStore.Proofs.Lockstep
import HeapStore.Proofs.Transparency
import HeapStore.Proofs.Secures
import HeapStore.Proofs.Snapshots
import HeapStore.Proofs.Lasting
import HeapStore.Proofs.Rollback
import HeapStore.Proofs.Timeouts
import HeapStore.Proofs.PageEdits
import HeapStore.Proofs.RowBytes
import HeapStore.Proofs.RecordCodec
import HeapStore.Proofs.PageBytes
import HeapStore.Proofs.Loading
import HeapStore.Proofs.Ongoing
import HeapStore.Pool.Records
import HeapStore.Proofs.Pinning
import HeapStore.Proofs.Mirrors
import HeapStore.Proofs.PoolCalls
import HeapStore.Proofs.PoolPinning
import HeapStore.Proofs.Packing
import HeapStore.Proofs.NewFiles
import HeapStore.Proofs.Importing
import HeapStore.Proofs.Conversion
import HeapStore.Proofs.Commands
import HeapStore.Proofs.Histories
import HeapStore.Proofs.Registry
import HeapStore.Proofs.FileCalls
import HeapStore.Proofs.PageNumbers
import HeapStore.Proofs.Living
import HeapStore.Proofs.Seen
import HeapStore.Proofs.FirstFree
import HeapStore.Proofs.LockGrants
import HeapStore.Proofs.Recency
import HeapStore.Proofs.Rewinding
import HeapStore.Proofs.Vacating
import HeapStore.Proofs.LockWakes
import HeapStore.Proofs.StoredPages
import HeapStore.Proofs.PageMap
import HeapStore.Proofs.DensePages
import HeapStore.Proofs.PageLayout
import HeapStore.Proofs.Pieces
import HeapStore.Proofs.EmptyRows
import HeapStore.Proofs.Grammar
import HeapStore.Proofs.Standing
import HeapStore.Proofs.Checkpoint
