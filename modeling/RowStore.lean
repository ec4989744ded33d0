import RowStore.Assoc
import RowStore.Bytes
import RowStore.Cache
import RowStore.Catalog
import RowStore.Config
import RowStore.Disk
import RowStore.Failure
import RowStore.Location
import RowStore.Page
import RowStore.Page.Encoding
import RowStore.Page.Layout
import RowStore.Proofs.Cache.Links
import RowStore.Proofs.Cache.Order
import RowStore.Proofs.Cache.Recency
import RowStore.Proofs.Cache.Refinement
import RowStore.Proofs.Cache.Inclusion
import RowStore.Proofs.Cache.Arena
import RowStore.Proofs.Catalog.Naming
import RowStore.Proofs.Codec.Text
import RowStore.Proofs.Codec.NumberText
import RowStore.Proofs.Codec.Row
import RowStore.Proofs.Codec.Parts
import RowStore.Proofs.Codec.Frame
import RowStore.Proofs.Codec.Page
import RowStore.Proofs.Codec.Edits
import RowStore.Proofs.Codec.ReadBack
import RowStore.Proofs.Codec.Exact
import RowStore.Proofs.Codec.Reload
import RowStore.Proofs.Codec.Flags
import RowStore.Proofs.Codec.Slots
import RowStore.Proofs.Codec.Grammar
import RowStore.Proofs.Codec.SlotCount
import RowStore.Proofs.Codec.Cutting
import RowStore.Proofs.Codec.Numerals
import RowStore.Proofs.Pool.Actions
import RowStore.Proofs.Pool.Feeding
import RowStore.Proofs.Pool.PlainTables
import RowStore.Proofs.Pool.FilePages
import RowStore.Proofs.Pool.Mirror
import RowStore.Proofs.Pool.FileSteps
import RowStore.Proofs.Pool.PoolSteps
import RowStore.Proofs.Pool.Residents
import RowStore.Proofs.Pool.RowSteps
import RowStore.Proofs.Pool.Scanning
import RowStore.Proofs.Pool.SetUp
import RowStore.Proofs.Pool.Refinement
import RowStore.Proofs.Pool.Filled
import RowStore.Proofs.Pool.InSync
import RowStore.Proofs.Pool.Tidy
import RowStore.Proofs.Pool.Losses
import RowStore.Proofs.Pool.Careful
import RowStore.Proofs.Pool.Requests
import RowStore.Proofs.Pool.FailedRequests
import RowStore.Proofs.Pool.Triples
import RowStore.Proofs.Pool.Growth
import RowStore.Proofs.Pool.Marks
import RowStore.Proofs.Pool.TxnFlush
import RowStore.Proofs.Pool.CursorSteps
import RowStore.Proofs.Pool.Places
import RowStore.Proofs.Pool.ScanHistory
import RowStore.Proofs.Pool.CleanReads
import RowStore.Proofs.Pool.Removals
import RowStore.Proofs.Pool.Additions
import RowStore.Proofs.Pool.Evolution
import RowStore.Proofs.Pool.Following
import RowStore.Proofs.Pool.Settled
import RowStore.Proofs.Pool.PageWrites
import RowStore.Proofs.Pool.PagesOnDisk
import RowStore.Proofs.Pool.Gauges
import RowStore.Proofs.Pool.GaugeSteps
import RowStore.Proofs.Pool.GaugeRows
import RowStore.Proofs.Pool.Appending
import RowStore.Proofs.Query.Tallies
import RowStore.Proofs.Query.Groups
import RowStore.Proofs.Query.Batches
import RowStore.Proofs.Query.Meaning
import RowStore.Proofs.Query.Reading
import RowStore.Proofs.Query.ReadOnly
import RowStore.Proofs.Query.Counting
import RowStore.Proofs.Query.Deleting
import RowStore.Proofs.Query.Inserting
import RowStore.Proofs.Query.Sessions
import RowStore.Proofs.Query.Exhaustion
import RowStore.Proofs.Query.Retries
import RowStore.Proofs.Query.Replaying
import RowStore.Proofs.Query.FirstOpening
import RowStore.Proofs.Query.Typing
import RowStore.Proofs.Query.TypedOpening
import RowStore.Proofs.Query.Soundness
import RowStore.Proofs.Query.Pulling
import RowStore.Proofs.Query.Overflow
import RowStore.Proofs.Query.Comparing
import RowStore.Proofs.Query.Splitting
import RowStore.Query.Aggregation
import RowStore.Query.Aggregator
import RowStore.Query.Operator
import RowStore.Query.Predicate
import RowStore.Query.RowBuffer
import RowStore.Query.TableScan
import RowStore.Row
import RowStore.Schema
import RowStore.Store
import RowStore.Store.Cursor
import RowStore.Store.Files
import RowStore.Store.Pages
import RowStore.Store.Rows
import RowStore.TableFile
import RowStore.Text.Boundary
import RowStore.Text.Checksum
import RowStore.Text.Quoted
import RowStore.Text.Unprintable
import RowStore.Text.Utf8
import RowStore.Value
import RowStore.Value.Cutting
import RowStore.Value.Encoding
import RowStore.Value.Reading
import RowStore.Main
