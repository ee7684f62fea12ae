import DocStore.Collection.Call
import DocStore.Collection.Request
import DocStore.Pipeline.Options
import DocStore.Schema.Builder
import DocStore.Proofs.Accumulator.Gathered
import DocStore.Proofs.Accumulator.Total
import DocStore.Proofs.Collection.Batch
import DocStore.Proofs.Collection.Finite
import DocStore.Proofs.Collection.Identity
import DocStore.Proofs.Collection.Refinement
import DocStore.Proofs.Collection.Retrieval
import DocStore.Proofs.Collection.Staging
import DocStore.Proofs.Collection.Upsert
import DocStore.Proofs.Collection.Validity
import DocStore.Proofs.Expr.DateFormat
import DocStore.Proofs.Expr.DateShift
import DocStore.Proofs.Expr.DateText
import DocStore.Proofs.Expr.Failure
import DocStore.Proofs.Expr.Slice
import DocStore.Proofs.Filter.Cached
import DocStore.Proofs.Filter.Demands
import DocStore.Proofs.Filter.Grammar
import DocStore.Proofs.Filter.Laws
import DocStore.Proofs.Filter.Rearranged
import DocStore.Proofs.Number.Exact
import DocStore.Proofs.Pipeline.Bucket
import DocStore.Proofs.Pipeline.BucketAuto
import DocStore.Proofs.Pipeline.Computed
import DocStore.Proofs.Pipeline.Failure
import DocStore.Proofs.Pipeline.Group
import DocStore.Proofs.Pipeline.Interval
import DocStore.Proofs.Pipeline.Label
import DocStore.Proofs.Pipeline.OneOrder
import DocStore.Proofs.Pipeline.Project
import DocStore.Proofs.Pipeline.Regroup
import DocStore.Proofs.Pipeline.Run
import DocStore.Proofs.Pipeline.Sifted
import DocStore.Proofs.Pipeline.Unwind
import DocStore.Proofs.Query.Dropped
import DocStore.Proofs.Query.Hidden
import DocStore.Proofs.Query.Kept
import DocStore.Proofs.Query.SortKeys
import DocStore.Proofs.Query.Sorting
import DocStore.Proofs.Query.Twice
import DocStore.Proofs.Schema.Rearranged
import DocStore.Proofs.Schema.Violation
import DocStore.Proofs.Storage.Checksum
import DocStore.Proofs.Storage.Compaction
import DocStore.Proofs.Storage.Equivalence
import DocStore.Proofs.Storage.Reopen
import DocStore.Proofs.Storage.Roundtrip
import DocStore.Proofs.Storage.Writable
import DocStore.Proofs.Update.Again
import DocStore.Proofs.Update.Commuting
import DocStore.Proofs.Value.Agreement
import DocStore.Proofs.Value.Aligned
import DocStore.Proofs.Value.Apart
import DocStore.Proofs.Value.Comparable
import DocStore.Proofs.Value.Definite
import DocStore.Proofs.Value.Key
import DocStore.Proofs.Value.Lossy
import DocStore.Proofs.Value.Order
import DocStore.Proofs.Value.Shuffled
