import Mathlib

/-!
# Process states and the frame `ProcessState::new` lays out

`ProcessState` (`scheduler.rs`) is the record the context switch reads: the saved kernel
stack pointer, the top of the kernel stack, and the two boxed stacks. `ProcessState::new`
returns the record and, before that, writes the first frame the switch code pops into the
kernel stack. This module gives the two parts separately:

1. `ProcessState.new`: the record. It depends on the stacks only.
2. `ProcessState.initFrame`: the words written, in program order, as (address, value). The
   writes are relative to `kernelAddr`, one past the last byte of the kernel stack, at the
   negative `usize` offsets of the source.
-/

namespace LeafOS

/-- A boxed byte slice `Box<[u8]>`: the address of its first byte and its length. -/
structure Slice where
  addr : UInt64
  len : UInt64
  deriving DecidableEq, Repr

/-- `scheduler::ProcessState`. It is `#[repr(C)]`: the switch code reads `kernel_rsp` at
offset 0 and `kernel_top_rsp` at offset 8. -/
structure ProcessState where
  kernelRsp : UInt64
  kernelTopRsp : UInt64
  kernelStack : Slice
  userStack : Slice
  deriving DecidableEq, Repr

/-- `gdt::KERNEL_CODE_SEGMENT_IDX`. -/
def kernelCodeSegmentIdx : UInt64 := 1

/-- `gdt::USER_CODE_SEGMENT_IDX`. -/
def userCodeSegmentIdx : UInt64 := 2

namespace ProcessState

/-- `DEFAULT_FLAGS`: the reserved bit 1 and the interrupt enable flag. -/
def defaultFlags : UInt64 := (0 : UInt64) ||| ((1 : UInt64) <<< 1) ||| ((1 : UInt64) <<< 9)

/-- `INTERRUPT_FRAME_OFFSET`. -/
def interruptFrameOffset : UInt64 := 4

/-- `code_selector`: the code segment's GDT index times 8, or-ed with the requested privilege
level (0 for the kernel, 3 for user tasks). -/
def codeSelector (kernel : Bool) : UInt64 :=
  (if kernel then kernelCodeSegmentIdx * 8 else userCodeSegmentIdx * 8) |||
    (if kernel then 0 else 3)

/-- `kernel_addr`: the address just past the kernel stack. -/
def kernelAddr (kernelStack : Slice) : UInt64 := kernelStack.addr + kernelStack.len

/-- The address `kernel_stack.offset(-k)` writes, for the `*mut usize` at `kernel_addr`. -/
def slot (kernelStack : Slice) (k : UInt64) : UInt64 := kernelAddr kernelStack - 8 * k

/-- The words `ProcessState::new` writes, in program order: `rsp`, the flags, the code
selector and `rip` at offsets `0` to `-3`, zero for `rax` to `r15` at `-4` to `-17`, and
`rbp` at `-18`. -/
def initFrame (kernelStack userStack : Slice) (kernel : Bool) (startFn : UInt64) :
    List (UInt64 × UInt64) :=
  [(slot kernelStack 0, if kernel then kernelAddr kernelStack else userStack.addr),
    (slot kernelStack 1, defaultFlags),
    (slot kernelStack 2, codeSelector kernel),
    (slot kernelStack 3, startFn)] ++
  (List.range 14).map (fun i => (slot kernelStack (interruptFrameOffset + i.toUInt64), 0)) ++
  [(slot kernelStack (interruptFrameOffset + 14), kernelAddr kernelStack)]

/-- The record `ProcessState::new` returns. The privilege flag and the start function go into
the frame only (`initFrame`). -/
def new (kernelStack userStack : Slice) : ProcessState where
  kernelRsp := kernelAddr kernelStack - 8 * (14 + interruptFrameOffset)
  kernelTopRsp := kernelAddr kernelStack + kernelStack.len
  kernelStack := kernelStack
  userStack := userStack

end ProcessState

end LeafOS
