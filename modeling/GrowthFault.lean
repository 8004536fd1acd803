import GrowthFault.Heap.Bench
import GrowthFault.Heap.Call
import GrowthFault.Heap.Interleaving
import GrowthFault.Interposer.Interleaving
import GrowthFault.Interposer.Script
import GrowthFault.Main
import GrowthFault.Proofs.AcceptedLines
import GrowthFault.Proofs.AllocatorContract
import GrowthFault.Proofs.AppendCampaigns
import GrowthFault.Proofs.AppendOutcomes
import GrowthFault.Proofs.BootstrapCalls
import GrowthFault.Proofs.CalendarDates
import GrowthFault.Proofs.CallAccounting
import GrowthFault.Proofs.CanonicalValues
import GrowthFault.Proofs.CheckerAgreement
import GrowthFault.Proofs.ConcurrentResolution
import GrowthFault.Proofs.DecimalRendering
import GrowthFault.Proofs.DecodedLines
import GrowthFault.Proofs.DistinctKeys
import GrowthFault.Proofs.EmittedLog
import GrowthFault.Proofs.EnvironmentReading
import GrowthFault.Proofs.FailedGrowth
import GrowthFault.Proofs.FaithfulTypes
import GrowthFault.Proofs.FileValidation
import GrowthFault.Proofs.InjectorEquivalence
import GrowthFault.Proofs.InterposedAllocator
import GrowthFault.Proofs.Introspection
import GrowthFault.Proofs.LaunchedChild
import GrowthFault.Proofs.LayeredCalls
import GrowthFault.Proofs.LedgerExactness
import GrowthFault.Proofs.MatrixLog
import GrowthFault.Proofs.MatrixReports
import GrowthFault.Proofs.OrdinalAnalysis
import GrowthFault.Proofs.OrdinalReading
import GrowthFault.Proofs.PreloadedLedger
import GrowthFault.Proofs.PrintedText
import GrowthFault.Proofs.PublishedResolution
import GrowthFault.Proofs.ReadRecords
import GrowthFault.Proofs.ReaderAgreement
import GrowthFault.Proofs.RenderedWords
import GrowthFault.Proofs.ReportCounting
import GrowthFault.Proofs.ReportLines
import GrowthFault.Proofs.ScannedDocuments
import GrowthFault.Proofs.ScenarioOutcomes
import GrowthFault.Proofs.SchemaReading
import GrowthFault.Proofs.ScriptRuns
import GrowthFault.Proofs.ScriptedScenarios
import GrowthFault.Proofs.SeamReports
import GrowthFault.Proofs.SharedTracker
import GrowthFault.Proofs.StackedInjectors
import GrowthFault.Proofs.StressSchedules
import GrowthFault.Proofs.StressVerdicts
import GrowthFault.Proofs.SuccessfulSteps
import GrowthFault.Proofs.TextLines
import GrowthFault.Proofs.TextReading
import GrowthFault.Proofs.TimestampOrder
import GrowthFault.Proofs.TraceIds
import GrowthFault.Proofs.TrackerTransparency
import GrowthFault.Proofs.TranscriptFacts
import GrowthFault.Proofs.TranscriptReading
import GrowthFault.Proofs.WrittenScalars
import GrowthFault.Proofs.WrittenValues
