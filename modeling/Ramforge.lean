import Ramforge.Rust.Exec
import Ramforge.Rust.Call
import Ramforge.Rust.Checked
import Ramforge.Rust.Intervals
import Ramforge.Rust.RangeSet
import Ramforge.Rust.SetFamily
import Ramforge.Rust.Trace
import Ramforge.Rust.KeyMove
import Ramforge.Rust.MapSum
import Ramforge.Rust.Text
import Ramforge.Rust.Loop
import Ramforge.Rust.Lru
import Ramforge.Rust.Rows
import Ramforge.Rust.LittleEndian
import Ramforge.Rust.ByteReader
import Ramforge.Rust.Codec
import Ramforge.Rust.Tiles
import Ramforge.Rust.Buffer
import Ramforge.Rust.Dot
import Ramforge.Rust.Parallel
import Ramforge.Rust.Ranking
import Ramforge.Core.Memory
import Ramforge.Core.MemoryStep
import Ramforge.Core.MemoryBatch
import Ramforge.Core.MemoryRun
import Ramforge.Core.MemoryAccounting
import Ramforge.Core.MemoryFrame
import Ramforge.Core.MemoryPrefix
import Ramforge.Core.Cache
import Ramforge.Core.CacheRun
import Ramforge.Core.CacheCoherence
import Ramforge.Core.CacheRefinement
import Ramforge.Core.Model
import Ramforge.Core.Gguf
import Ramforge.Core.GgufRoundTrip
import Ramforge.Core.GgufArithmetic
import Ramforge.Core.ModelSet
import Ramforge.Core.ModelSetLayout
import Ramforge.Core.ModelSetAssembly
import Ramforge.Core.DataSource
import Ramforge.Core.DataSourceRead
import Ramforge.Core.DataSourceRun
import Ramforge.Core.Rope
import Ramforge.Core.ShardAddressing
import Ramforge.Core.F32
import Ramforge.Core.Quant
import Ramforge.Core.QuantPacking
import Ramforge.Core.QuantQ5K
import Ramforge.Core.QuantQ3K
import Ramforge.Core.QuantRows
import Ramforge.Core.Compute
import Ramforge.Core.QuantRowRun
import Ramforge.Core.QuantQ40
import Ramforge.Core.QuantQ6K
import Ramforge.Core.Tensor
import Ramforge.Core.HalfPrecision
import Ramforge.Core.QuantMinima
import Ramforge.Core.FusedMatvec
import Ramforge.Core.Attention
import Ramforge.Core.Resource
import Ramforge.Core.ResourceTotals
import Ramforge.Core.ResourceOwnership
import Ramforge.Runtime.LayerCache
import Ramforge.Runtime.LayerCacheStep
import Ramforge.Runtime.LayerCacheRun
import Ramforge.Runtime.LayerCacheOwnership
import Ramforge.Runtime.KvCache
import Ramforge.Runtime.KvStep
import Ramforge.Runtime.KvHistory
import Ramforge.Runtime.KvGrowth
import Ramforge.Runtime.StreamBudget
import Ramforge.Runtime.Decoding
import Ramforge.Runtime.Simd
import Ramforge.Runtime.Backend
import Ramforge.Runtime.BackendSettings
import Ramforge.Runtime.RowChunks
import Ramforge.Runtime.DispatchAgreement
import Ramforge.Runtime.ResourceLifetime
import Ramforge.Runtime.ResidencyInventory
import Ramforge.Runtime.InventoryScan
import Ramforge.Runtime.LinuxMount
import Ramforge.Runtime.Sampling
import Ramforge.Runtime.SharedPages
import Ramforge.Runtime.InventoryTotal
import Ramforge.Runtime.StagingPlan
import Ramforge.Runtime.ResidencyPlanner
import Ramforge.Runtime.ResidencyManager
import Ramforge.Runtime.ResidencyStep
import Ramforge.Runtime.ResidencyPlanExact
import Ramforge.Runtime.ReleaseSafety
import Ramforge.Runtime.PlannerCalibration
import Ramforge.Runtime.CalibrationOrder
import Ramforge.Runtime.CalibrationPlan
import Ramforge.Runtime.CalibrationTasks
import Ramforge.Runtime.CalibrationRun
import Ramforge.Runtime.CalibrationMeasure
import Ramforge.Runtime.CalibrationSafety
import Ramforge.Runtime.Planner
import Ramforge.Runtime.PlannerSoundness
import Ramforge.Runtime.RuntimeConfig
import Ramforge.Runtime.PlanCompiler
import Ramforge.Runtime.PlanPersistence
import Ramforge.Runtime.PlanFormat
import Ramforge.Runtime.Support
import Ramforge.Runtime.LlamaConfig
import Ramforge.Runtime.LayerRead
import Ramforge.Runtime.LayerReadExact
import Ramforge.Runtime.LayerReadOrder
import Ramforge.Runtime.Accounting
import Ramforge.Runtime.PlanModel
import Ramforge.Runtime.PlanPipeline
import Ramforge.Runtime.PlanStorage
import Ramforge.Runtime.PlanCompatibility
import Ramforge.Runtime.PageResidency
import Ramforge.Runtime.PagePopulation
import Ramforge.Runtime.PageObservation
import Ramforge.Runtime.PageAccounting
import Ramforge.Rust.Scope
import Ramforge.Core.TensorRead
import Ramforge.Runtime.TensorLoad
import Ramforge.Runtime.Persistent
import Ramforge.Runtime.ModelLoad
import Ramforge.Rust.Ends
import Ramforge.Runtime.WeightLoad
import Ramforge.Runtime.StartupWeights
import Ramforge.Runtime.StartupAgreement
import Ramforge.Runtime.LayerLoad
import Ramforge.Runtime.LayerLoadAtomic
import Ramforge.Rust.BackEdges
import Ramforge.Rust.Grouping
import Ramforge.Rust.Unicode
import Ramforge.Core.ChatTemplate
import Ramforge.Core.TemplateLexing
import Ramforge.Rust.Json
import Ramforge.Core.TemplateComments
import Ramforge.Core.TemplateValue
import Ramforge.Core.TemplateRender
import Ramforge.Core.TemplateJson
import Ramforge.Core.TemplateFlatten
import Ramforge.Core.TemplateFuel
import Ramforge.Runtime.GraphManifest
import Ramforge.Runtime.ConsumerAnalysis
import Ramforge.Runtime.ExecutionProfile
import Ramforge.Runtime.ProfileEvidence
import Ramforge.Runtime.Prediction
import Ramforge.Rust.Serde
import Ramforge.Runtime.ProfilePersistence
import Ramforge.Runtime.PredictionConfidence
import Ramforge.Runtime.PredictionAccuracy
import Ramforge.Runtime.PredictionLedger
import Ramforge.Runtime.PredictionPlanner
import Ramforge.Runtime.PredictionStaging
import Ramforge.Runtime.PredictionEvaluation
import Ramforge.Runtime.PredictionConsistency
import Ramforge.Runtime.PredictionSim
import Ramforge.Runtime.SimAccounting
import Ramforge.Runtime.SimSharing
import Ramforge.Rust.Utf8
import Ramforge.Core.Tokenizer
import Ramforge.Core.Detokenize
import Ramforge.Core.TokenEncoder
import Ramforge.Core.VocabularyMaps
import Ramforge.Core.SentencePiece
import Ramforge.Core.SentencePieceRoundTrip
import Ramforge.Core.Gpt2
import Ramforge.Core.Gpt2Pieces
import Ramforge.Core.Gpt2RoundTrip
import Ramforge.Runtime.ModelFingerprint
import Ramforge.Core.SentencePieceOptimal
import Ramforge.Core.SpecialTokens
import Ramforge.Core.Elementwise
import Ramforge.Core.MemoryScope
import Ramforge.Rust.Coincide
import Ramforge.Rust.Settles
import Ramforge.Core.FileContents
import Ramforge.Core.QuantLayouts
import Ramforge.Runtime.ForwardState
import Ramforge.Runtime.ForwardPass
import Ramforge.Runtime.Generation
import Ramforge.Runtime.EngineStart
import Ramforge.Runtime.HostInvariant
import Ramforge.Runtime.ForwardFrame
import Ramforge.Rust.Rounds
import Ramforge.Runtime.ForwardCommit
import Ramforge.Runtime.ForwardEffects
import Ramforge.Runtime.TensorContents
import Ramforge.Runtime.LayerContents
import Ramforge.Runtime.ForwardTransparency
import Ramforge.Runtime.GenerationFrame
import Ramforge.Runtime.LoadedModel
import Ramforge.Runtime.EngineLifecycle
import Ramforge.Runtime.StreamedProduct
import Ramforge.Runtime.GenerationTransparency
import Ramforge.Runtime.EngineTransparency
import Ramforge.Runtime.GenerationOutcome
import Ramforge.Rust.BinaryFloat
import Ramforge.Rust.Covering
import Ramforge.Rust.PairReduction
import Ramforge.Rust.Rotation
