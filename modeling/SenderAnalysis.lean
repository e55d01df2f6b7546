import SenderAnalysis.Foundations.Runs
import SenderAnalysis.Foundations.OrderedMaps
import SenderAnalysis.Foundations.HashTables
import SenderAnalysis.Foundations.Effects
import SenderAnalysis.Foundations.Traces
import SenderAnalysis.Foundations.CyclicScans
import SenderAnalysis.Foundations.RunningOffsets
import SenderAnalysis.Foundations.SelectLoops
import SenderAnalysis.EntrySources.Observation
import SenderAnalysis.EntrySources.ShredStream.Entries
import SenderAnalysis.EntrySources.ShredStream.FecTracker
import SenderAnalysis.EntrySources.ShredStream.Deshred
import SenderAnalysis.EntrySources.ShredStream.FecSetRuns
import SenderAnalysis.EntrySources.ShredStream.FecCompletion
import SenderAnalysis.EntrySources.ShredStream.Grpc
import SenderAnalysis.EntrySources.ShredStream.EntryIndices
import SenderAnalysis.FanOut.Merger.Model
import SenderAnalysis.FanOut.Merger.SlotIndex
import SenderAnalysis.FanOut.Merger.ExactlyOnce
import SenderAnalysis.FanOut.Merger.Counters
import SenderAnalysis.FanOut.Merger.Conservation
import SenderAnalysis.FanOut.PohSupervisor.Model
import SenderAnalysis.FanOut.Samples
import SenderAnalysis.FanOut.WarmupGate
import SenderAnalysis.FanOut.Ordering.Model
import SenderAnalysis.FanOut.Ordering.SlotViews
import SenderAnalysis.FanOut.Ordering.Reports
import SenderAnalysis.FanOut.Ordering.SealedOnce
import SenderAnalysis.FanOut.PohSupervisor.SlotMoves
import SenderAnalysis.FanOut.PohSupervisor.SlotRuns
import SenderAnalysis.FanOut.PohSupervisor.SlotView
import SenderAnalysis.FanOut.PohSupervisor.SweepGaps
import SenderAnalysis.FanOut.PohSupervisor.Incarnations
import SenderAnalysis.FanOut.PohSupervisor.OrderedEmission
import SenderAnalysis.FanOut.PohSupervisor.Lifecycle
import SenderAnalysis.FanOut.PohSupervisor.TickCount
import SenderAnalysis.FanOut.PohSupervisor.TickSteps
import SenderAnalysis.FanOut.PohSupervisor.Reordering
import SenderAnalysis.FanOut.PohSupervisor.ArrivalFates
import SenderAnalysis.FanOut.PohSupervisor.ArrivalCounts
import SenderAnalysis.FanOut.PohSupervisor.SlotOrder
import SenderAnalysis.FanOut.PohSupervisor.Replays
import SenderAnalysis.FanOut.Nonce.LocalCompute
import SenderAnalysis.FanOut.Nonce.SlotHashes
import SenderAnalysis.FanOut.Nonce.Manager
import SenderAnalysis.FanOut.Nonce.Transitions
import SenderAnalysis.FanOut.Nonce.RoundRobin
import SenderAnalysis.FanOut.Nonce.Frames
import SenderAnalysis.FanOut.TriggerEngine.Model
import SenderAnalysis.FanOut.TriggerEngine.Firing
import SenderAnalysis.FanOut.TriggerEngine.Compaction
import SenderAnalysis.FanOut.TriggerEngine.Matching
import SenderAnalysis.FanOut.Pipeline.ScheduledTicks
import SenderAnalysis.FanOut.Pipeline.SlotFinality
import SenderAnalysis.FanOut.Pipeline.MergeTransparency
import SenderAnalysis.FanOut.Pipeline.SignatureVisibility
import SenderAnalysis.FanOut.Nonce.SpentValues
import SenderAnalysis.Foundations.Leases
import SenderAnalysis.FanOut.TxPool
import SenderAnalysis.FanOut.Preparer
import SenderAnalysis.FanOut.Dispatcher
import SenderAnalysis.FanOut.Pipeline.TriggerLives
import SenderAnalysis.FanOut.Pipeline.LiveTransactions
import SenderAnalysis.FanOut.Pipeline.NonceExclusivity
import SenderAnalysis.FanOut.Pipeline.TriggerExactness
import SenderAnalysis.Foundations.Ledgers
import SenderAnalysis.FanOut.Pipeline.ScheduleFlow
import SenderAnalysis.FanOut.Pipeline.ScheduleAccounts
import SenderAnalysis.FanOut.Pipeline.ScheduleFates
import SenderAnalysis.FanOut.Pipeline.PoolSweeps
import SenderAnalysis.Foundations.Rotations
import SenderAnalysis.FanOut.Signing
import SenderAnalysis.Foundations.Chunks
import SenderAnalysis.Foundations.FallibleMaps
import SenderAnalysis.FanOut.Nonce.AccountData
import SenderAnalysis.FanOut.Nonce.Bootstrap
import SenderAnalysis.FanOut.Nonce.RpcPoller
import SenderAnalysis.FanOut.Nonce.StaleRecovery
import SenderAnalysis.FanOut.Recorder.Model
import SenderAnalysis.FanOut.Recorder.Attempts
import SenderAnalysis.FanOut.Recorder.EventOrder
import SenderAnalysis.FanOut.Recorder.Landings
import SenderAnalysis.FanOut.Recorder.Conservation
import SenderAnalysis.FanOut.Recorder.Shutdown
import SenderAnalysis.FanOut.Senders.Model
import SenderAnalysis.FanOut.Senders.Verdicts
import SenderAnalysis.LeaderMap.Model
import SenderAnalysis.LeaderMap.Agreement
import SenderAnalysis.TickTriggerBench.Finalizer.Model
import SenderAnalysis.TickTriggerBench.Finalizer.Conservation
import SenderAnalysis.EntryComparator.Correlator.Model
import SenderAnalysis.EntryComparator.Correlator.Filing
import SenderAnalysis.EntryComparator.Correlator.KeyViews
import SenderAnalysis.EntryComparator.Correlator.Records
import SenderAnalysis.EntryComparator.Report
import SenderAnalysis.EntryComparator.Consistency
import SenderAnalysis.TickTriggerBench.Finalizer.FirstMatch
import SenderAnalysis.TickTriggerBench.LandingDistance
import SenderAnalysis.TickTriggerBench.TxPool
import SenderAnalysis.TickTriggerBench.Observer.Model
import SenderAnalysis.TickTriggerBench.Observer.SlotViews
import SenderAnalysis.TickTriggerBench.Observer.TickCount
import SenderAnalysis.TickTriggerBench.SendFlow
import SenderAnalysis.TickTriggerBench.SendAccounts
import SenderAnalysis.TickTriggerBench.SendLedger
import SenderAnalysis.TickTriggerBench.PendingSignatures
import SenderAnalysis.TickTriggerBench.RpcFallback
import SenderAnalysis.Foundations.BatchedWriters
import SenderAnalysis.TickTriggerBench.ParquetWriter
import SenderAnalysis.EntryComparator.Writer
import SenderAnalysis.EntryComparator.Anomalies
import SenderAnalysis.TickTriggerBench.Preparer.Model
import SenderAnalysis.TickTriggerBench.Preparer.UniqueBodies
import SenderAnalysis.FanOut.Senders.Throttle
import SenderAnalysis.FanOut.Senders.QuicConnections
import SenderAnalysis.FanOut.Senders.QuicReuse
import SenderAnalysis.Foundations.Json
import SenderAnalysis.FanOut.Senders.HttpReplies
import SenderAnalysis.FanOut.Senders.Classification
import SenderAnalysis.Foundations.RejectionSampling
import SenderAnalysis.FanOut.Schedule
import SenderAnalysis.FanOut.FinalReport
import SenderAnalysis.Foundations.Tallies
import SenderAnalysis.LeaderMap.Summary
import SenderAnalysis.Foundations.Modes
import SenderAnalysis.FanoutAnalysis.Loader
import SenderAnalysis.FanoutAnalysis.PairedDesign
import SenderAnalysis.FanoutAnalysis.OutcomeClasses
import SenderAnalysis.FanoutAnalysis.SendErrors
import SenderAnalysis.FanoutAnalysis.Denominators
import SenderAnalysis.FanoutAnalysis.SlotChange
import SenderAnalysis.Foundations.PairedComparisons
import SenderAnalysis.Foundations.Dispersion
import SenderAnalysis.FanoutAnalysis.Wide
import SenderAnalysis.FanoutAnalysis.Pairwise
import SenderAnalysis.FanoutAnalysis.CochransQ
import SenderAnalysis.Foundations.Numerals
import SenderAnalysis.LeaderMap.Cache
import SenderAnalysis.LeaderMap.SlotRanges
import SenderAnalysis.LeaderMap.LeaderCache
import SenderAnalysis.FanOut.TxBuilder
import SenderAnalysis.FanOut.Pipeline.AttemptMemos
import SenderAnalysis.Foundations.Replacement
import SenderAnalysis.FanOut.Senders.Scrubbing
