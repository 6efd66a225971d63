import NdsRecomp.Library.OpSystem
import NdsRecomp.Library.TicketRound
import NdsRecomp.Library.PartitionPoint
import NdsRecomp.Library.KeyedMerge
import NdsRecomp.Library.FirstMax
import NdsRecomp.Library.ByteBitmap
import NdsRecomp.Dispatch.Lookup
import NdsRecomp.Dispatch.Registry
import NdsRecomp.Dispatch.Selection
import NdsRecomp.Bus.CoreInvariant
import NdsRecomp.Bus.FastEqualsSlow
import NdsRecomp.Timing.MemCycles
import NdsRecomp.Runtime.FastLimitInvariant
import NdsRecomp.Runtime.StaticGuard
import NdsRecomp.Runtime.Machine
import NdsRecomp.Exec.CodeBytes
import NdsRecomp.Exec.SeenPage
import NdsRecomp.Exec.StoreStamps
import NdsRecomp.Ipc.FifoQueue
import NdsRecomp.Scheduler.RoundPlan
import NdsRecomp.Scheduler.EventDeadlines
import NdsRecomp.Video.RendererView
import NdsRecomp.Cart.WriteDiscipline
import NdsRecomp.Library.FedBuffer
import NdsRecomp.Spu.Playback
import NdsRecomp.Spu.ChannelCursor
import NdsRecomp.Spu.ChannelRun
import NdsRecomp.Spu.CaptureCursor
import NdsRecomp.Spu.SavableSound
import NdsRecomp.Io.Dma
import NdsRecomp.Io.MathUnit
import NdsRecomp.Io.Timers
import NdsRecomp.Library.FrameStream
import NdsRecomp.Library.LittleEndian
import NdsRecomp.Net.Capture
import NdsRecomp.Net.Sanitize
import NdsRecomp.Net.Replay
import NdsRecomp.LiveOverlay.Banks
import NdsRecomp.LiveOverlay.RequiredBytes
import NdsRecomp.LiveOverlay.Coverage
import NdsRecomp.Video.BandPool
import NdsRecomp.Video.BandPoolFrames
import NdsRecomp.Video.LinePool
import NdsRecomp.Video.LinePoolOrder
import NdsRecomp.Library.TopTwo
import NdsRecomp.Video.Compositor
import NdsRecomp.Video.DirectPaths
import NdsRecomp.Video.PresentAgrees
import NdsRecomp.Net.MacPositions
import NdsRecomp.Net.SanitizedReplay
import NdsRecomp.Library.KeyedUnique
import NdsRecomp.Recompiler.EmitDispatch
import NdsRecomp.Recompiler.PruneSafety
import NdsRecomp.Library.IndexRanges
import NdsRecomp.Recompiler.EmissionPlan
import NdsRecomp.Recompiler.SplitFunctions
import NdsRecomp.Recompiler.EmissionCoverage
import NdsRecomp.Recompiler.EmittedOnce
import NdsRecomp.Io.SquareRoot
import NdsRecomp.Video.CaptureStore
import NdsRecomp.Exec.VramMetadata
import NdsRecomp.Library.BlockSync
import NdsRecomp.Video.TextureBytes
import NdsRecomp.Video.TextureCoherence
import NdsRecomp.LiveOverlay.Pipeline
import NdsRecomp.LiveOverlay.HandOff
import NdsRecomp.Library.KeyedList
import NdsRecomp.LiveOverlay.DormantReturn
import NdsRecomp.Net.Bridge
import NdsRecomp.Net.BridgeAccounting
import NdsRecomp.LiveOverlay.FutilityGuard
import NdsRecomp.LiveOverlay.RunVerdict
import NdsRecomp.ShardCompiler.CaptureIndex
import NdsRecomp.ShardCompiler.IndexGrows
import NdsRecomp.ShardCompiler.QueueKeepsWork
import NdsRecomp.Library.ReloadCounter
import NdsRecomp.Io.Divider
import NdsRecomp.Io.TimerSplit
import NdsRecomp.Io.TimerOverflow
import NdsRecomp.Cart.SecureArea
import NdsRecomp.Runtime.Tier3Sync
import NdsRecomp.Timing.CodeFold
import NdsRecomp.Io.DmaSplit
import NdsRecomp.Exec.ByteQueries
import NdsRecomp.Recompiler.TrackerSound
import NdsRecomp.Boot.DirectBoot
import NdsRecomp.Firmware.PatchedSettings
import NdsRecomp.Host.GovernorRuns
import NdsRecomp.Host.ProfRing
import NdsRecomp.Host.EmuProfile
import NdsRecomp.Net.EventRingSound
import NdsRecomp.Spu.MixArithmetic
import NdsRecomp.Spu.MixBounds
import NdsRecomp.Spu.MixFits
import NdsRecomp.Recompiler.RelocSound
import NdsRecomp.Net.SanitizerLaw
import NdsRecomp.Video.ObjPass
import NdsRecomp.Video.TextLine
import NdsRecomp.Runtime.Shifters
import NdsRecomp.Recompiler.ChunkCuts
import NdsRecomp.Recompiler.JumpTables
import NdsRecomp.Recompiler.ConfigSections
import NdsRecomp.Recompiler.ReturnAliases
import NdsRecomp.LiveOverlay.GuardReject
import NdsRecomp.Net.LocalMpReplies
import NdsRecomp.LiveOverlay.Admission
import NdsRecomp.Coverage.SessionRuns
import NdsRecomp.Recompiler.PrecedingRoundTrip
import NdsRecomp.Firmware.GeneratedVerifies
import NdsRecomp.Recompiler.Sha1
import NdsRecomp.Net.DhcpDns
import NdsRecomp.Coverage.SpanSeeds
import NdsRecomp.Coverage.IngestOrder
import NdsRecomp.Coverage.AssembleRuns
import NdsRecomp.Coverage.StreamExact
import NdsRecomp.Runtime.CallReturnStack
import NdsRecomp.Video.AdaptiveStack
import NdsRecomp.Recompiler.FinderReads
import NdsRecomp.Net.Classify
