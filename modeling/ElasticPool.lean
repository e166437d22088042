import ElasticPool.Bus.Session
import ElasticPool.History.Session
import ElasticPool.Probe.Session
import ElasticPool.Proofs.Abort
import ElasticPool.Proofs.ArrivalOrder
import ElasticPool.Proofs.BusDelivery
import ElasticPool.Proofs.CallSequence
import ElasticPool.Proofs.Completion
import ElasticPool.Proofs.DesiredBounds
import ElasticPool.Proofs.ErrorCounts
import ElasticPool.Proofs.FailureDrain
import ElasticPool.Proofs.FailureFate
import ElasticPool.Proofs.InvocationFates
import ElasticPool.Proofs.LagDetection
import ElasticPool.Proofs.LastJoin
import ElasticPool.Proofs.Lifecycle
import ElasticPool.Proofs.LiveRun
import ElasticPool.Proofs.LoadEvidence
import ElasticPool.Proofs.LoadReadings
import ElasticPool.Proofs.MeasurementPairs
import ElasticPool.Proofs.MemoryVerdicts
import ElasticPool.Proofs.MemoryWarnings
import ElasticPool.Proofs.NumberedEntries
import ElasticPool.Proofs.ProbeExecution
import ElasticPool.Proofs.Reaction
import ElasticPool.Proofs.ReadingPace
import ElasticPool.Proofs.RecorderCalls
import ElasticPool.Proofs.RunAccount
import ElasticPool.Proofs.RunIsolation
import ElasticPool.Proofs.RunMemory
import ElasticPool.Proofs.SampleAges
import ElasticPool.Proofs.SamplingClocks
import ElasticPool.Proofs.SamplingTurns
import ElasticPool.Proofs.SamplingWindows
import ElasticPool.Proofs.ScalingConvergence
import ElasticPool.Proofs.ScalingPace
import ElasticPool.Proofs.ScalingSteps
import ElasticPool.Proofs.ScriptExecution
import ElasticPool.Proofs.SeriesOrder
import ElasticPool.Proofs.SettingsDocuments
import ElasticPool.Proofs.SlotAccounting
import ElasticPool.Proofs.StartDiscipline
import ElasticPool.Proofs.StartGrants
import ElasticPool.Proofs.StartRate
import ElasticPool.Proofs.StartWaits
import ElasticPool.Proofs.Suspension
import ElasticPool.Proofs.TickSeries
import ElasticPool.Proofs.UnprunedHistory
import ElasticPool.Proofs.WorkplaceExecution
import ElasticPool.Settings.Document
import ElasticPool.Simulation.Script
