import LeafOS.Scheduler.ProcessState

/-!
# The frames of the context switch

`apic_timer_handler` (`interrupts.rs`) saves a task by pushing `rax`, `rbx`, …, `r15`, `rbp`
below the frame the interrupt pushed, and resumes one by loading `rsp` from its
`ProcessState` and popping `rbp`, `r15`, …, `rax`; `iretq` then pops `rip`, `cs`, `rflags`,
`rsp` and `ss`. For a new task these twenty words are the frame `ProcessState::new` wrote.

1. `restore_eq`: the pops read the words `rsp + 8 j`, `j = 0, …, 19`, in order.
2. `restore_save`: popping from where the pushes left the stack gives back the registers and
   the interrupt's frame.
3. `initFrame_eq`: `new` writes nineteen words at `kernel_rsp + 8 j`, `j = 0, …, 18`; the
   lowest is at `kernel_rsp` and the highest, the `rsp` word, at `kernel_addr` itself, one
   past the kernel stack.
4. `restore_new`: the first switch pops what `new` wrote for `rbp` to `rsp`, and for `ss` the
   word just above `kernel_addr`, which `new` never writes.
-/

namespace LeafOS

/-- Memory as 64-bit words at byte addresses. The switch code and `ProcessState::new` access
whole words at `kernel_addr + 8 j` only, so none of their words overlap. -/
abbrev Memory := UInt64 → UInt64

/-- Write the words `ws` in order. -/
def Memory.writeAll (m : Memory) (ws : List (UInt64 × UInt64)) : Memory :=
  ws.foldl (fun m w => Function.update m w.1 w.2) m

@[simp] theorem Memory.writeAll_nil (m : Memory) : m.writeAll [] = m := rfl

@[simp] theorem Memory.writeAll_cons (m : Memory) (w : UInt64 × UInt64)
    (ws : List (UInt64 × UInt64)) :
    m.writeAll (w :: ws) = Memory.writeAll (Function.update m w.1 w.2) ws := rfl

/-- The general-purpose registers `apic_timer_handler` saves and restores. -/
structure Regs where
  rax : UInt64
  rbx : UInt64
  rcx : UInt64
  rdx : UInt64
  rsi : UInt64
  rdi : UInt64
  r8 : UInt64
  r9 : UInt64
  r10 : UInt64
  r11 : UInt64
  r12 : UInt64
  r13 : UInt64
  r14 : UInt64
  r15 : UInt64
  rbp : UInt64
  deriving DecidableEq, Repr

/-- The five words `iretq` pops in 64-bit mode. -/
structure IretFrame where
  rip : UInt64
  cs : UInt64
  rflags : UInt64
  rsp : UInt64
  ss : UInt64
  deriving DecidableEq, Repr

/-- `push`: the stack pointer moves down a word and the value is stored there. -/
def push (m : Memory) (rsp v : UInt64) : Memory × UInt64 :=
  (Function.update m (rsp - 8) v, rsp - 8)

/-- `pop`: the word at `rsp`, and the stack pointer after it. -/
def pop (m : Memory) (rsp : UInt64) : UInt64 × UInt64 := (m rsp, rsp + 8)

/-- The save path of `apic_timer_handler`: `push rax`, `push rbx`, …, `push r15`, `push rbp`,
from the stack pointer the interrupt left. The stack pointer after it is the one
`mov [rax], rsp` stores. -/
def save (m : Memory) (rsp : UInt64) (r : Regs) : Memory × UInt64 :=
  let (m, rsp) := push m rsp r.rax
  let (m, rsp) := push m rsp r.rbx
  let (m, rsp) := push m rsp r.rcx
  let (m, rsp) := push m rsp r.rdx
  let (m, rsp) := push m rsp r.rsi
  let (m, rsp) := push m rsp r.rdi
  let (m, rsp) := push m rsp r.r8
  let (m, rsp) := push m rsp r.r9
  let (m, rsp) := push m rsp r.r10
  let (m, rsp) := push m rsp r.r11
  let (m, rsp) := push m rsp r.r12
  let (m, rsp) := push m rsp r.r13
  let (m, rsp) := push m rsp r.r14
  let (m, rsp) := push m rsp r.r15
  push m rsp r.rbp

/-- The restore path of `apic_timer_handler` from `mov rsp, [rax]`: `pop rbp`, `pop r15`, …,
`pop rax`, `iretq`. -/
def restore (m : Memory) (rsp : UInt64) : Regs × IretFrame :=
  let (rbp, rsp) := pop m rsp
  let (r15, rsp) := pop m rsp
  let (r14, rsp) := pop m rsp
  let (r13, rsp) := pop m rsp
  let (r12, rsp) := pop m rsp
  let (r11, rsp) := pop m rsp
  let (r10, rsp) := pop m rsp
  let (r9, rsp) := pop m rsp
  let (r8, rsp) := pop m rsp
  let (rdi, rsp) := pop m rsp
  let (rsi, rsp) := pop m rsp
  let (rdx, rsp) := pop m rsp
  let (rcx, rsp) := pop m rsp
  let (rbx, rsp) := pop m rsp
  let (rax, rsp) := pop m rsp
  let (rip, rsp) := pop m rsp
  let (cs, rsp) := pop m rsp
  let (rflags, rsp) := pop m rsp
  let (rsp', rsp) := pop m rsp
  let (ss, _) := pop m rsp
  (⟨rax, rbx, rcx, rdx, rsi, rdi, r8, r9, r10, r11, r12, r13, r14, r15, rbp⟩,
    ⟨rip, cs, rflags, rsp', ss⟩)

/-- The pops read the twenty words from `rsp` up. -/
theorem restore_eq (m : Memory) (rsp : UInt64) :
    restore m rsp =
      (⟨m (rsp + 112), m (rsp + 104), m (rsp + 96), m (rsp + 88), m (rsp + 80), m (rsp + 72),
        m (rsp + 64), m (rsp + 56), m (rsp + 48), m (rsp + 40), m (rsp + 32), m (rsp + 24),
        m (rsp + 16), m (rsp + 8), m rsp⟩,
        ⟨m (rsp + 120), m (rsp + 128), m (rsp + 136), m (rsp + 144), m (rsp + 152)⟩) := by
  simp [restore, pop, UInt64.add_assoc]

/-- The pushes write the fifteen words below `rsp`, `rax` highest, and leave the stack pointer
`120` bytes lower. -/
theorem save_eq (m : Memory) (rsp : UInt64) (r : Regs) :
    save m rsp r =
      (m.writeAll [(rsp - 8, r.rax), (rsp - 16, r.rbx), (rsp - 24, r.rcx), (rsp - 32, r.rdx),
        (rsp - 40, r.rsi), (rsp - 48, r.rdi), (rsp - 56, r.r8), (rsp - 64, r.r9),
        (rsp - 72, r.r10), (rsp - 80, r.r11), (rsp - 88, r.r12), (rsp - 96, r.r13),
        (rsp - 104, r.r14), (rsp - 112, r.r15), (rsp - 120, r.rbp)], rsp - 120) := by
  simp only [save, push, sub_sub, UInt64.reduceAdd, Memory.writeAll_cons, Memory.writeAll_nil]

/-- The restore path run from the stack pointer the save path left pops the registers saved,
and `iretq` the five words the interrupt pushed above them. -/
theorem restore_save (m : Memory) (rsp : UInt64) (r : Regs) :
    restore (save m rsp r).1 (save m rsp r).2 =
      (r, ⟨m rsp, m (rsp + 8), m (rsp + 16), m (rsp + 24), m (rsp + 32)⟩) := by
  -- count every address up from the stack pointer `b` the pushes leave
  obtain ⟨b, rfl⟩ : ∃ b, rsp = b + 120 := ⟨rsp - 120, by grind⟩
  rw [save_eq, restore_eq]
  simp only [add_sub_assoc, add_assoc, UInt64.reduceSub, UInt64.reduceAdd, add_zero,
    Memory.writeAll_cons, Memory.writeAll_nil]
  simp

namespace ProcessState

/-- `new` writes its frame at `kernel_rsp + 8 j`: `rsp` at `j = 18`, which is `kernel_addr`,
down to `rbp` at `j = 0`. -/
theorem initFrame_eq (ks us : Slice) (kernel : Bool) (startFn : UInt64) :
    initFrame ks us kernel startFn =
      let r := (new ks us).kernelRsp
      [(r + 144, if kernel then kernelAddr ks else us.addr), (r + 136, defaultFlags),
        (r + 128, codeSelector kernel), (r + 120, startFn),
        (r + 112, 0), (r + 104, 0), (r + 96, 0), (r + 88, 0), (r + 80, 0), (r + 72, 0),
        (r + 64, 0), (r + 56, 0), (r + 48, 0), (r + 40, 0), (r + 32, 0), (r + 24, 0),
        (r + 16, 0), (r + 8, 0), (r, kernelAddr ks)] := by
  simp only [initFrame, new, slot, interruptFrameOffset, List.range_succ, List.range_zero,
    List.map_cons, List.map_nil, List.nil_append, List.cons_append, List.cons.injEq,
    Prod.mk.injEq, and_true]
  refine ⟨?_, ?_, ?_, ?_, ?_, ?_, ?_, ?_, ?_, ?_, ?_, ?_, ?_, ?_, ?_, ?_, ?_, ?_, ?_⟩ <;> grind

/-- `kernel_addr` is `kernel_rsp + 144`, the address of the `rsp` word. -/
theorem kernelAddr_eq (ks us : Slice) : kernelAddr ks = (new ks us).kernelRsp + 144 := by
  simp only [new, interruptFrameOffset]
  grind

/-- The first switch into a task pops the frame `new` wrote: `rbp` is `kernel_addr`, the other
registers are zero, and `iretq` gets the start function, the code selector, `DEFAULT_FLAGS` and
`kernel_addr` for a kernel task or the lowest address of the user stack for a user task. The
twentieth word, `ss`, is the one just above `kernel_addr`, which `new` does not write. -/
theorem restore_new (m : Memory) (ks us : Slice) (kernel : Bool) (startFn : UInt64) :
    restore (m.writeAll (initFrame ks us kernel startFn)) (new ks us).kernelRsp =
      (⟨0, 0, 0, 0, 0, 0, 0, 0, 0, 0, 0, 0, 0, 0, kernelAddr ks⟩,
        ⟨startFn, codeSelector kernel, defaultFlags,
          if kernel then kernelAddr ks else us.addr, m (kernelAddr ks + 8)⟩) := by
  rw [initFrame_eq, restore_eq, kernelAddr_eq ks us]
  simp [UInt64.add_assoc]

/-- A kernel task with a 4096-byte kernel stack at `0x10000`: `new` writes its `rsp` word at
`0x11000`, one past the stack; `kernel_top_rsp` is `0x12000`, a whole stack length past it; and
the first switch pops `ss` from `0x11008`, which `new` never writes. -/
theorem new_frame_overruns_stack :
    (0x11000, 0x11000) ∈ initFrame ⟨0x10000, 4096⟩ ⟨0x20000, 4096⟩ true 0x30000 ∧
      (new ⟨0x10000, 4096⟩ ⟨0x20000, 4096⟩).kernelTopRsp = 0x12000 ∧
      (restore
          (Memory.writeAll (fun _ => 0xdead)
            (initFrame ⟨0x10000, 4096⟩ ⟨0x20000, 4096⟩ true 0x30000))
        (new ⟨0x10000, 4096⟩ ⟨0x20000, 4096⟩).kernelRsp).2.ss = 0xdead :=
  ⟨by decide, rfl, rfl⟩

end ProcessState

end LeafOS
