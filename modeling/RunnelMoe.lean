import RunnelMoe.Words
import RunnelMoe.JsonModel
import RunnelMoe.JsonRoundTrip
import RunnelMoe.KeyedSum
import RunnelMoe.ManifestModel
import RunnelMoe.ManifestUnique
import RunnelMoe.Runs
import RunnelMoe.Vectors
import RunnelMoe.StoreErrors
import RunnelMoe.PageSpecs
import RunnelMoe.CacheLimits
import RunnelMoe.CacheEntries
import RunnelMoe.CacheOps
import RunnelMoe.CacheCalls
import RunnelMoe.CacheLedger
import RunnelMoe.CacheReserve
import RunnelMoe.CacheTransitions
import RunnelMoe.CacheRefine
import RunnelMoe.CacheShutdown
import RunnelMoe.CacheMachine
import RunnelMoe.CacheLeases
import RunnelMoe.CacheCancel
import RunnelMoe.CacheAdmission
import RunnelMoe.AsyncReads
import RunnelMoe.CacheLoads
import RunnelMoe.CacheService
import RunnelMoe.CacheExchange
import RunnelMoe.CacheResolve
import RunnelMoe.CacheSettled
import RunnelMoe.CacheVerified
import RunnelMoe.Readers
import RunnelMoe.Results
import RunnelMoe.Bitmasks
import RunnelMoe.OfflinePaging
import RunnelMoe.SimModel
import RunnelMoe.SimTrace
import RunnelMoe.SimMetrics
import RunnelMoe.SimOracle
import RunnelMoe.SimBelady
import RunnelMoe.SimExact
import RunnelMoe.SimSketch
import RunnelMoe.SimPolicy
import RunnelMoe.SimEngine
import RunnelMoe.SimKernel
import RunnelMoe.SimPlans
import RunnelMoe.SimSteps
import RunnelMoe.SimPrefetch
import RunnelMoe.SimRouter
import RunnelMoe.SimReplay
import RunnelMoe.SimBound
import RunnelMoe.SimCausality
import RunnelMoe.CasCollect
import RunnelMoe.CasCollected
import RunnelMoe.Queues
import RunnelMoe.RecencyStacks
import RunnelMoe.SimAccepts
import RunnelMoe.SimSegments
import RunnelMoe.SimLists
import RunnelMoe.SimInclusion
import RunnelMoe.LruAgreement
import RunnelMoe.SimDegrade
import RunnelMoe.SimGroups
import RunnelMoe.SimUnits
import RunnelMoe.SimScaling
import RunnelMoe.SimParse
import RunnelMoe.Slices
import RunnelMoe.ManifestFacts
import RunnelMoe.PageTables
import RunnelMoe.Artifacts
import RunnelMoe.CasFiles
import RunnelMoe.CasStreams
import RunnelMoe.Reassembly
import RunnelMoe.Sketches
import RunnelMoe.SimFrequency
import RunnelMoe.SimIsolation
import RunnelMoe.SimMemory
import RunnelMoe.SimSignals
import RunnelMoe.Codes
import RunnelMoe.SimDecisions
import RunnelMoe.CasPlays
import RunnelMoe.StageNames
import RunnelMoe.SharedBlocks
import RunnelMoe.CasReclaim
import RunnelMoe.CasCopy
import RunnelMoe.CacheTouches
import RunnelMoe.CacheFlags
import RunnelMoe.CachePrefetches
import RunnelMoe.ResumeTokens
import RunnelMoe.WordMaps
import RunnelMoe.SimRandom
import RunnelMoe.BinaryFloats
import RunnelMoe.KernelErrors
import RunnelMoe.KernelBf16
import RunnelMoe.RuntimeGreedy
import RunnelMoe.PositionalIo
import RunnelMoe.KernelChecks
import RunnelMoe.KernelGemv
