import Npunlock.ActDpuCover
import Npunlock.Completeness
import Npunlock.ConsumerCover
import Npunlock.DmaActCover
import Npunlock.GraphInput
import Npunlock.Projection
import Npunlock.Sequence
import Npunlock.TileCovers
import Npunlock.Compare
import Npunlock.CompareSpec
import Npunlock.IrWorker
import Npunlock.MoviWorker
import Npunlock.Backtracking
import Npunlock.Traversal
import Npunlock.TopologyMapping
import Npunlock.IrGraphSpec
import Npunlock.GroupAssignment
import Npunlock.ProgramRun
import Npunlock.BundleSpec
import Npunlock.SubmissionRuns
import Npunlock.PlannedBuild
import Npunlock.RunAgreement
import Npunlock.TrackerLifecycle
import Npunlock.ArtifactGraph
import Npunlock.ArtifactGraphRuns
import Npunlock.BestFirst
import Npunlock.Binary32
import Npunlock.Ensemble
import Npunlock.RuntimeApi
import Npunlock.RuntimeApiSpec
import Npunlock.Binary16
import Npunlock.Binary32Value
import Npunlock.GreedySelection
import Npunlock.Nms
import Npunlock.NmsKernelSpec
import Npunlock.NmsReference
import Npunlock.NmsSpec
import Npunlock.SpecializedKernel
import Npunlock.SpecializedSpec
import Npunlock.SecureHash
import Npunlock.CompareEquivalence
import Npunlock.HnswHeaps
import Npunlock.IoResult
import Npunlock.KernelInclude
import Npunlock.LocationExpression
import Npunlock.MemrefDensity
import Npunlock.Navigation
import Npunlock.RelocationOwnership
import Npunlock.ScheduleHops
import Npunlock.Sha256Spec
import Npunlock.ShaveElf
import Npunlock.ShaveElfSpec
import Npunlock.SymbolAddressing
import Npunlock.TopologicalNodes
import Npunlock.RecordSchema
import Npunlock.RecordSchemaSpec
import Npunlock.DpuAddressMasks
import Npunlock.IntervalCompaction
import Npunlock.TreeShape
import Npunlock.JsonText
import Npunlock.PatchReport
import Npunlock.PatchReportSpec
import Npunlock.DetectionAccounting
import Npunlock.ShapeInference
import Npunlock.ShapeInferenceSpec
import Npunlock.BindingResolution
import Npunlock.HnswIndex
import Npunlock.HnswIndexFile
import Npunlock.HnswBuild
import Npunlock.HnswKernel
import Npunlock.HnswKernelSpec
import Npunlock.HnswPacking
import Npunlock.HnswPackingSpec
