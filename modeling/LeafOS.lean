import LeafOS.Lib.Trace
import LeafOS.Lib.RoundRobin
import LeafOS.Scheduler.ProcessState
import LeafOS.Scheduler.Basic
import LeafOS.Scheduler.Conservation
import LeafOS.Scheduler.Switch
import LeafOS.Scheduler.Fairness
import LeafOS.Interrupts.TimerFrame
import LeafOS.Lib.Grid
import LeafOS.Vga.Writer
import LeafOS.Vga.TextModel
import LeafOS.Shell.Basic
import LeafOS.Shell.LineEditing
import LeafOS.Allocators.FixedSizeBlock
import LeafOS.Allocators.Safety
import LeafOS.Memory.FrameAllocator
import LeafOS.Drivers.Pit
import LeafOS.Interrupts.Syscall
import LeafOS.Interrupts.ApicTimer
import LeafOS.Interrupts.Vectors
import LeafOS.Memory.Heap
import LeafOS.Scheduler.ContextSwitch
import LeafOS.Lib.SpinLock
import LeafOS.Main.Locks
import LeafOS.Main.Preemption
import LeafOS.Interrupts.Dispatch
