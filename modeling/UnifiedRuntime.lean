import UnifiedRuntime.Loader.PreFilter
import UnifiedRuntime.LevelZero.EventRecycling
import UnifiedRuntime.Sanitizer.MemBufferRuns
import UnifiedRuntime.Streams.FinishThreads
import UnifiedRuntime.Streams.QueueRuns
import UnifiedRuntime.Buffers.Runs
import UnifiedRuntime.Loader.SingletonRuns
import UnifiedRuntime.Validation.LeakRuns
import UnifiedRuntime.Sanitizer.AsanRelease
import UnifiedRuntime.Sanitizer.KernelArgsRuns
import UnifiedRuntime.LevelZeroV2.CommandListCacheRuns
import UnifiedRuntime.LevelZeroV2.EventAllocate
import UnifiedRuntime.LevelZeroV2.MemoryRuns
import UnifiedRuntime.Sanitizer.AsanGeometry
import UnifiedRuntime.Sanitizer.ShadowPages
import UnifiedRuntime.Sanitizer.LocalShadow
import UnifiedRuntime.Sanitizer.MsanMigration
import UnifiedRuntime.Sanitizer.RectCopy
import UnifiedRuntime.SubBuffers.Proper
import UnifiedRuntime.LevelZeroV2.QueueFinish
import UnifiedRuntime.Validation.BoundsSound
import UnifiedRuntime.Loader.EnvRoundTrip
import UnifiedRuntime.Loader.DeviceGetSelected
import UnifiedRuntime.Pools.Total
import UnifiedRuntime.Pools.Documented
import UnifiedRuntime.LevelZeroV2.DiscreteMapsRuns
import UnifiedRuntime.LevelZero.CompletionRuns
import UnifiedRuntime.LevelZeroV2.GenericFill
import UnifiedRuntime.LevelZero.WorkGroupResults
import UnifiedRuntime.Pools.Coverage
import UnifiedRuntime.LevelZero.BisectCleanup
import UnifiedRuntime.LevelZero.QueueGroupsSafe
import UnifiedRuntime.LevelZero.WaitList
import UnifiedRuntime.LevelZero.EventPoolRuns
import UnifiedRuntime.LevelZero.InteropBuffer
import UnifiedRuntime.NativeCpu.LaunchCover
import UnifiedRuntime.NativeCpu.Fill
import UnifiedRuntime.NativeCpu.UsmRuns
import UnifiedRuntime.NativeCpu.CapturesRuns
import UnifiedRuntime.NativeCpu.QueueOrder
import UnifiedRuntime.NativeCpu.QueueLifetimes
import UnifiedRuntime.LevelZero.UsmPoolsRuns
import UnifiedRuntime.LevelZero.ProfilingRecordings
import UnifiedRuntime.Hip.CommandBufferFill
import UnifiedRuntime.Streams.LatestEvents
import UnifiedRuntime.Cuda.BufferMap
import UnifiedRuntime.Cuda.KernelUpdateRuns
import UnifiedRuntime.Common.InfoQuery
import UnifiedRuntime.Common.LaunchSizes
import UnifiedRuntime.Hip.RectCopy
import UnifiedRuntime.LevelZero.ProgramBinaries
import UnifiedRuntime.LevelZero.ProgramStates
import UnifiedRuntime.LevelZero.ProgramResourcesRuns
import UnifiedRuntime.Cuda.LazyAllocation
import UnifiedRuntime.LevelZero.DeviceCacheRuns
import UnifiedRuntime.Common.LocalSizeLoops
import UnifiedRuntime.Common.Samplers
import UnifiedRuntime.Common.UserPools
import UnifiedRuntime.Common.ProgramLife
import UnifiedRuntime.Common.LogFormat
import UnifiedRuntime.Loader.Lifetime
import UnifiedRuntime.Common.KernelMetadata
