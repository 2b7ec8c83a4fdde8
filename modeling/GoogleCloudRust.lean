import GoogleCloudRust.Library.Barrier
import GoogleCloudRust.Library.Bytes
import GoogleCloudRust.Library.Fallible
import GoogleCloudRust.Library.FifoMap
import GoogleCloudRust.Library.Float64
import GoogleCloudRust.Library.Batches
import GoogleCloudRust.Library.HashMap
import GoogleCloudRust.Library.Interleaving
import GoogleCloudRust.Library.IntervalMap
import GoogleCloudRust.Library.LinkedSlots
import GoogleCloudRust.Library.Loop
import GoogleCloudRust.Library.OrdMap
import GoogleCloudRust.Library.OrderedCode
import GoogleCloudRust.Library.Router
import GoogleCloudRust.Library.Time
import GoogleCloudRust.Model.AffinityTracker
import GoogleCloudRust.Model.BatchActor
import GoogleCloudRust.Model.CacheUpdater
import GoogleCloudRust.Model.ChannelAffinity
import GoogleCloudRust.Model.ChannelPool
import GoogleCloudRust.Model.ClockCache
import GoogleCloudRust.Model.Dispatcher
import GoogleCloudRust.Model.EndpointCooldown
import GoogleCloudRust.Model.EndpointLifecycle
import GoogleCloudRust.Model.ExactlyOnceRetry
import GoogleCloudRust.Model.KeyExtractor
import GoogleCloudRust.Model.KeyRangeCache
import GoogleCloudRust.Model.KeyRecipe
import GoogleCloudRust.Model.KeyRecipeCache
import GoogleCloudRust.Model.LazyTransaction
import GoogleCloudRust.Model.PreparedOperation
import GoogleCloudRust.Model.Proto
import GoogleCloudRust.Model.ResultSet
import GoogleCloudRust.Model.RetryLoop
import GoogleCloudRust.Model.SsFormat
import GoogleCloudRust.Verification.AffinityTracker.Refinement
import GoogleCloudRust.Verification.BatchActor.Concurrent
import GoogleCloudRust.Verification.BatchActor.Ordering
import GoogleCloudRust.Verification.BatchActor.Sequential
import GoogleCloudRust.Verification.BatchActor.Workers
import GoogleCloudRust.Verification.CacheUpdater.Incarnations
import GoogleCloudRust.Verification.CacheUpdater.Locks
import GoogleCloudRust.Verification.CacheUpdater.Registration
import GoogleCloudRust.Verification.ChannelAffinity.Stickiness
import GoogleCloudRust.Verification.ChannelPool.Membership
import GoogleCloudRust.Verification.ChannelPool.Slots
import GoogleCloudRust.Verification.ChannelPool.Transitions
import GoogleCloudRust.Verification.ClockStore.Invariant
import GoogleCloudRust.Verification.Dispatcher.Delivery
import GoogleCloudRust.Verification.EndpointCooldown.Delay
import GoogleCloudRust.Verification.EndpointLifecycle.Bookkeeping
import GoogleCloudRust.Verification.KeyExtractor.Agreement
import GoogleCloudRust.Verification.KeyRangeCache.Contributions
import GoogleCloudRust.Verification.KeyRangeCache.Partition
import GoogleCloudRust.Verification.KeyRangeCache.Pointwise
import GoogleCloudRust.Verification.KeyRangeCache.References
import GoogleCloudRust.Verification.KeyRangeCache.Update
import GoogleCloudRust.Verification.KeyRecipe.Order
import GoogleCloudRust.Verification.KeyRecipe.UuidText
import GoogleCloudRust.Verification.KeyRecipe.Words
import GoogleCloudRust.Verification.KeyRecipeCache.Generations
import GoogleCloudRust.Verification.KeyRecipeCache.OperationUids
import GoogleCloudRust.Verification.KeyRecipeCache.Slots
import GoogleCloudRust.Verification.LazyTransaction.Leadership
import GoogleCloudRust.Verification.LazyTransaction.Lifecycle
import GoogleCloudRust.Verification.PreparedOperation.Matching
import GoogleCloudRust.Verification.ResultSet.Delivery
import GoogleCloudRust.Verification.ResultSet.Reassembly
import GoogleCloudRust.Verification.RetryLoop.Attempts
import GoogleCloudRust.Verification.RetryLoop.Deadline
import GoogleCloudRust.Verification.SsFormat.Order
import GoogleCloudRust.Verification.ExactlyOnceRetry.Reports
import GoogleCloudRust.Model.Leases
import GoogleCloudRust.Verification.Leases.ExactlyOnce
import GoogleCloudRust.Model.LeaseLoop
import GoogleCloudRust.Verification.LeaseLoop.Limits
import GoogleCloudRust.Verification.LeaseLoop.Order
import GoogleCloudRust.Verification.LeaseLoop.Decisions
import GoogleCloudRust.Verification.LeaseLoop.Processing
import GoogleCloudRust.Model.Hedging
import GoogleCloudRust.Verification.Hedging.Winner
import GoogleCloudRust.Verification.Hedging.Budget
import GoogleCloudRust.Library.Signed
import GoogleCloudRust.Model.BidiRead
import GoogleCloudRust.Verification.BidiRead.Ranges
import GoogleCloudRust.Verification.BidiRead.Steps
import GoogleCloudRust.Verification.BidiRead.Endings
import GoogleCloudRust.Verification.BidiRead.Senders
import GoogleCloudRust.Verification.BidiRead.Service
import GoogleCloudRust.Verification.BidiRead.Resumption
import GoogleCloudRust.Verification.BidiRead.Delivery
import GoogleCloudRust.Library.Decimal
import GoogleCloudRust.Model.Duration
import GoogleCloudRust.Verification.Duration.Texts
import GoogleCloudRust.Model.SendOptimizer
import GoogleCloudRust.Verification.SendOptimizer.Interpretation
import GoogleCloudRust.Model.Runner
import GoogleCloudRust.Verification.Runner.Responses
import GoogleCloudRust.Model.StreamPool
import GoogleCloudRust.Verification.StreamPool.Entries
import GoogleCloudRust.Model.Reader
import GoogleCloudRust.Verification.Reader.Rows
import GoogleCloudRust.Model.BidiWrite
import GoogleCloudRust.Verification.BidiWrite.Steps
import GoogleCloudRust.Verification.BidiWrite.Answers
import GoogleCloudRust.Library.Segments
import GoogleCloudRust.Verification.BidiWrite.Service
import GoogleCloudRust.Verification.BidiWrite.Persistence
import GoogleCloudRust.Library.Text
import GoogleCloudRust.Model.Checksum
import GoogleCloudRust.Verification.Checksum.Source
import GoogleCloudRust.Model.ResumableRead
import GoogleCloudRust.Verification.ResumableRead.Delivery
import GoogleCloudRust.Model.PerformUpload
import GoogleCloudRust.Verification.PerformUpload.Service
import GoogleCloudRust.Verification.PerformUpload.Validation
import GoogleCloudRust.Verification.PerformUpload.Transfer
import GoogleCloudRust.Model.Lro
import GoogleCloudRust.Verification.KeyRangeCache.PickRandom
import GoogleCloudRust.Verification.Lro.Protocol
import GoogleCloudRust.Verification.Lro.Limits
import GoogleCloudRust.Model.TokenCache
import GoogleCloudRust.Verification.TokenCache.Safety
import GoogleCloudRust.Model.ReadWriteTransaction
import GoogleCloudRust.Model.TransactionRunner
import GoogleCloudRust.Verification.TransactionRunner.Attempts
import GoogleCloudRust.Verification.TransactionRunner.Protocol
import GoogleCloudRust.Model.DropGuard
import GoogleCloudRust.Verification.DropGuard.Order
import GoogleCloudRust.Verification.DropGuard.Settled
import GoogleCloudRust.Model.QueryExecution
import GoogleCloudRust.Verification.QueryExecution.Reissue
import GoogleCloudRust.Model.RowIterator
import GoogleCloudRust.Verification.RowIterator.Readers
import GoogleCloudRust.Verification.RowIterator.Delivery
import GoogleCloudRust.Model.SqlCell
import GoogleCloudRust.Verification.SqlCell.Intervals
import GoogleCloudRust.Verification.SqlCell.Reference
import GoogleCloudRust.Verification.SqlCell.Decimals
import GoogleCloudRust.Library.Minimizers
import GoogleCloudRust.Verification.ClockStore.SecondChance
import GoogleCloudRust.Verification.EndpointCooldown.FastPath
import GoogleCloudRust.Verification.KeyRangeCache.Eligible
import GoogleCloudRust.Library.Joining
import GoogleCloudRust.Verification.ResultSet.Boundaries
import GoogleCloudRust.Verification.ResultSet.Merging
import GoogleCloudRust.Model.LocationRouter
import GoogleCloudRust.Verification.LocationRouter.Selection
import GoogleCloudRust.Library.WeightedBatches
import GoogleCloudRust.Verification.BatchActor.Cutting
import GoogleCloudRust.Verification.BatchActor.Limits
import GoogleCloudRust.Verification.BatchActor.Agreement
import GoogleCloudRust.Library.Renewal
import GoogleCloudRust.Model.LeaseDeadlines
import GoogleCloudRust.Verification.Leases.Deadlines
import GoogleCloudRust.Verification.BidiRead.MessageBoundaries
import GoogleCloudRust.Verification.BidiWrite.Watermark
import GoogleCloudRust.Model.AppendableWriter
import GoogleCloudRust.Verification.AppendableWriter.Intents
import GoogleCloudRust.Verification.AppendableWriter.Writing
import GoogleCloudRust.Verification.PerformUpload.Conservation
import GoogleCloudRust.Verification.PerformUpload.ContentRange
import GoogleCloudRust.Model.StreamingSource
import GoogleCloudRust.Verification.StreamingSource.Seek
import GoogleCloudRust.Model.Timestamp
import GoogleCloudRust.Verification.Wkt.Clamp
import GoogleCloudRust.Library.Calendar
import GoogleCloudRust.Verification.Timestamp.Conversions
import GoogleCloudRust.Model.FieldMask
import GoogleCloudRust.Verification.FieldMask.RoundTrip
import GoogleCloudRust.Library.Greedy
import GoogleCloudRust.Model.RoutingParameter
import GoogleCloudRust.Verification.SqlCell.Grammar
import GoogleCloudRust.Verification.RoutingParameter.Matching
import GoogleCloudRust.Library.Highest
import GoogleCloudRust.Model.Precommit
import GoogleCloudRust.Verification.Precommit.Commit
import GoogleCloudRust.Library.Rounding
import GoogleCloudRust.Model.JsonInteger
import GoogleCloudRust.Verification.JsonInteger.Exactness
import GoogleCloudRust.Model.ConnectionCache
import GoogleCloudRust.Verification.ConnectionCache.Entries
import GoogleCloudRust.Verification.ConnectionCache.Sharing
import GoogleCloudRust.Model.BidiWriteConnector
import GoogleCloudRust.Verification.BidiWriteConnector.Requests
import GoogleCloudRust.Verification.BidiWriteConnector.Budget
import GoogleCloudRust.Model.RouteResolution
import GoogleCloudRust.Verification.LocationRouter.Routes
import GoogleCloudRust.Verification.LocationRouter.Stickiness
import GoogleCloudRust.Model.AccessBoundary
import GoogleCloudRust.Verification.AccessBoundary.Coherence
import GoogleCloudRust.Model.RequestId
import GoogleCloudRust.Verification.RequestId.Uniqueness
