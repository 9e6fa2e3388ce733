import LearningKernels.Machine.ByteMemory
import LearningKernels.Machine.Path
import LearningKernels.Machine.AddressSpace
import LearningKernels.Machine.Paging
import LearningKernels.Machine.Segmentation
import LearningKernels.Machine.Countdown
import LearningKernels.Machine.Coverage
import LearningKernels.Machine.Stack
import LearningKernels.Machine.InterruptController
import LearningKernels.Machine.BlockCopy
import LearningKernels.Machine.Digits
import LearningKernels.Machine.Text
import LearningKernels.Machine.ForwardCopy
import LearningKernels.Machine.WriteSequence
import LearningKernels.Machine.SharedLock
import LearningKernels.Machine.Terminal
import LearningKernels.Machine.TerminalLines
import LearningKernels.OsElephant.SetupPage
import LearningKernels.OsElephant.Bitmap
import LearningKernels.OsElephant.FirstFit
import LearningKernels.OsElephant.BitmapLaws
import LearningKernels.OsElephant.Strings
import LearningKernels.OsElephant.StringOrder
import LearningKernels.OsElephant.StringWrites
import LearningKernels.OsElephant.Memory
import LearningKernels.OsElephant.BumpAllocator
import LearningKernels.OsElephant.AllocatorRuns
import LearningKernels.OsElephant.PoolSafety
import LearningKernels.OsElephant.PageTableAdd
import LearningKernels.OsElephant.BootMap
import LearningKernels.OsElephant.KernelPages
import LearningKernels.OsElephant.MemoryDetect
import LearningKernels.OsElephant.ArdsBuffer
import LearningKernels.OsElephant.UsableMemory
import LearningKernels.OsElephant.Console
import LearningKernels.OsElephant.ConsoleRefinement
import LearningKernels.OsElephant.ConsoleRuns
import LearningKernels.OsElephant.Interrupt
import LearningKernels.OsElephant.InterruptReturn
import LearningKernels.OsElephant.InterruptBoard
import LearningKernels.OsElephant.InterruptRuns
import LearningKernels.OsElephant.InterruptTicks
import LearningKernels.OsElephant.KernelInit
import LearningKernels.OsElephant.Segments
import LearningKernels.OsElephant.DiskRead
import LearningKernels.OsElephant.BootSector
import LearningKernels.OsElephant.MemoryFallback
import LearningKernels.OsElephant.EnterPaging
import LearningKernels.OsElephant.PutInt
import LearningKernels.OsElephant.Reports
import LearningKernels.OsElephant.Timer
import LearningKernels.Tptfs.Mount
import LearningKernels.Tptfs.Ledger
import LearningKernels.Tptfs.MountErrors
import LearningKernels.Tptfs.Delegation
import LearningKernels.Tptfs.Alias
import LearningKernels.Tptfs.AliasAccounting
import LearningKernels.Tptfs.NodeHash
import LearningKernels.Tptfs.AliasCalls
import LearningKernels.Tptfs.Bypass
import LearningKernels.Tptfs.Lifetime
import LearningKernels.Tptfs.LifetimeSteps
import LearningKernels.Tptfs.LifetimeOperations
import LearningKernels.Tptfs.LifetimeRuns
import LearningKernels.Tptfs.LifetimeUnlink
import LearningKernels.Tptfs.LifetimeAlias
import LearningKernels.Tptfs.LifetimeDrain
import LearningKernels.Tptfs.VnodeLock
import LearningKernels.Tptfs.VnodeLockInvariant
import LearningKernels.Tptfs.VnodeLockSteps
import LearningKernels.Tptfs.VnodeLockCalls
import LearningKernels.Tptfs.VnodeLockApart
import LearningKernels.Tptfs.VnodeLockNodes
import LearningKernels.Tptfs.VnodeLockRetire
import LearningKernels.Tptfs.VnodeLockRuns
import LearningKernels.Tptfs.VnodeLockFrame
import LearningKernels.Tptfs.VnodeLockAlias
import LearningKernels.Tptfs.VnodeLockProgress
import LearningKernels.Tptfs.VnodeLockSafety
import LearningKernels.Tptfs.VnodeHolds
import LearningKernels.Tptfs.VnodeHoldSteps
import LearningKernels.Tptfs.VnodeHoldRuns
import LearningKernels.Tptfs.WriteCount
import LearningKernels.Toyos.Number
import LearningKernels.Toyos.Vsprintf
import LearningKernels.Toyos.Format
import LearningKernels.Toyos.Concatenation
import LearningKernels.Toyos.Numeral
import LearningKernels.Toyos.Spelling
import LearningKernels.Toyos.RoundTrip
import LearningKernels.Toyos.Printk
import LearningKernels.Toyos.Field
import LearningKernels.Toyos.TextFields
import LearningKernels.Toyos.Arguments
import LearningKernels.Toyos.Stars
import LearningKernels.Toyos.Rounds
import LearningKernels.Toyos.LongValues
import LearningKernels.Toyos.Printout
import LearningKernels.Toyos.StringBuffer
import LearningKernels.Toyos.Strcmp
