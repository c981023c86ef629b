import BufferManager.Types
import BufferManager.Lib.ErrorState
import BufferManager.Page.FrameAllocator
import BufferManager.Page.PageTable
import BufferManager.Replacement.Replacer
import BufferManager.Replacement.ClockReplacer
import BufferManager.Manager.Locked
import BufferManager.Manager.Calls
import BufferManager.Guarantees.Guards
import BufferManager.Guarantees.PinCounts
import BufferManager.Protocol.Reservation
import BufferManager.Protocol.Wakeups
import BufferManager.Guarantees.Exclusion
import BufferManager.Guarantees.Frames
import BufferManager.Guarantees.Wakeups
import BufferManager.Page.Refinement
import BufferManager.Executor.AsyncExecutor
import BufferManager.Guarantees.Agreement
import BufferManager.Guarantees.AsyncTasks
import BufferManager.Guarantees.Atomicity
import BufferManager.Guarantees.FlushAll
import BufferManager.Storage.PageArray
import BufferManager.Guarantees.DiskPages
import BufferManager.Guarantees.Reopening
import BufferManager.Manager.Construction
import BufferManager.Guarantees.Construction
import BufferManager.Guarantees.Replacement
import BufferManager.Guarantees.Offsets
import BufferManager.Guarantees.FlushBarrier
import BufferManager.Guarantees.Updates
import BufferManager.Protocol.Rollback
import BufferManager.Guarantees.Rollback
import BufferManager.Guarantees.Completion
import BufferManager.Guarantees.PageStore
import BufferManager.Guarantees.Progress
import BufferManager.Guarantees.Recovery
import BufferManager.Guarantees.AsyncCalls
import BufferManager.Guarantees.Shutdown
import BufferManager.Guarantees.Format
import BufferManager.Guarantees.PageContents
import BufferManager.Guarantees.Transfers
import BufferManager.Guarantees.Linearization
import BufferManager.Guarantees.OneWorker
import BufferManager.Guarantees.OldContents
