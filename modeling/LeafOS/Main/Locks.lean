import LeafOS.Lib.SpinLock
import LeafOS.Scheduler.Basic

/-!
# kernel_main under the scheduler's timer

`kernel_main` (`main.rs`) arms the scheduler's timer with
`start_timer_one_shot(SCHEDULER_TIMER_DELAY)` and goes on: two `start_proc`s, a `println!`,
`SHELL.lock().init()`, `init_kb_handler()`, `hlt_loop()`. The timer's interrupt can come
between any two of its steps, and it switches away: `current_task_ptr` gives `VOID_TASK` for
kernel_main's context on the first interrupt. After that the CPU runs the started processes
and the idle task, each preempted by the next interrupt: `test_fn` makes write system calls,
`test_fn_hello` loops, the idle task halts.

Every lock on these paths is a `spin::Mutex`, or the `Once` of a lazy static, which spins
every other access while its initializer runs. The interrupt handler and the system calls run
with interrupts off, so only kernel_main can be preempted holding one.

1. `Lock`, `Op`: the locks, and the operations of a path as `SpinLock.Op`s read off the
   source: `alloc` for a call into the global allocator, `locked` for a guard, `deref` for a
   lazy static.
2. `mainSteps`: kernel_main's steps after the arming; a `println!` is one step, since `_print`
   runs with interrupts off.
3. `tickOps`, `writeOps`: the operations of `apic_timer_handler` in a given scheduler state,
   and of the write system call of `test_fn`.
4. `Sys`, `step`, `run`: the system, its events (the running context's next step, or a timer
   interrupt) and its runs; `none` is a context spinning forever.
-/

namespace LeafOS.KernelMain

open SpinLock

/-- The lazy statics initialised on these paths. -/
inductive Static where
  | SCHEDULER
  | SHELL
  | EVENT_HANDLERS
  | IDLE_TASK
  deriving DecidableEq, Repr

/-- The spin locks on these paths. -/
inductive Lock where
  /-- The `Mutex` of `scheduler::SCHEDULER`. -/
  | SCHEDULER
  /-- The lock of the global allocator `ALLOCATOR`, a `LockedHeap`. -/
  | ALLOCATOR
  /-- The `Mutex` of `shell::SHELL`. -/
  | SHELL
  /-- The `Mutex` of `vga_buffer::WRITER`. -/
  | WRITER
  /-- The `Mutex` of `events::EVENT_HANDLERS`. -/
  | EVENT_HANDLERS
  /-- The `Mutex` around the idle task in `IDLE_TASK`. -/
  | IDLE_TASK
  /-- The `Once` of a lazy static while its initializer runs. -/
  | once (s : Static)
  deriving DecidableEq, Repr

/-- What kernel_main does between its lock operations that the model keeps: the push of
`start_process`, the store of `INITIALIZED` in `Shell::init`, the end of a lazy static's
initializer. -/
inductive Act where
  | startProcess
  | storeInitialized
  | lazyInit (s : Static)
  deriving DecidableEq, Repr

/-- An operation of a path. -/
abbrev Op := SpinLock.Op Lock Act

/-- One call into the global allocator: `LockedHeap` takes its lock. -/
def alloc : List Op := [.acquire .ALLOCATOR, .release .ALLOCATOR]

/-- `n` calls into the allocator. -/
def allocs (n : ℕ) : List Op := (List.replicate n alloc).flatten

/-- `m.lock()`, and the guard dropped after `body`. -/
def locked (l : Lock) (body : List Op) : List Op := [.acquire l] ++ body ++ [.release l]

/-- An access of the lazy static `s`: the first one runs its initializer, which calls the
allocator `n` times; every access spins while the initializer runs. -/
def deref (s : Static) (ready : Bool) (n : ℕ) : List Op :=
  locked (.once s) (if ready then [] else allocs n ++ [.act (.lazyInit s)])

/-! ## kernel_main -/

/-- `scheduler::start_proc(f, true)`: `SCHEDULER.lock()`, whose first access boxes a
`RoundRobinScheduler` into an `Arc`, and `start_process` under the lock: the two boxed
stacks, the boxed `ProcessState`, and the `Vec::push`, which allocates on the first push
only. The push is where the model puts the new task; nothing sees the scheduler before the
guard is dropped. -/
def startProc (first : Bool) : List Op :=
  deref .SCHEDULER (!first) 2 ++
    locked .SCHEDULER (allocs 3 ++ (if first then alloc else []) ++ [.act .startProcess])

/-- `SHELL.lock().init()`: the first access of `SHELL` builds the prompt (`String::from`,
the first and fifth push of `ColoredString::from_string`, the string's drop); `Shell::init`
writes it under `WRITER` and stores `INITIALIZED` before that guard is dropped, and the guard
of `SHELL` is dropped at the end of the statement. -/
def shellInit : List Op :=
  deref .SHELL false 4 ++ locked .SHELL (locked .WRITER [.act .storeInitialized])

/-- `init_kb_handler()`: `EVENT_HANDLERS.lock().register_keyboard_handler(..)`. The closure
captures nothing, so its box allocates nothing; the `Vec::push` allocates. -/
def initKbHandler : List Op :=
  deref .EVENT_HANDLERS false 0 ++ locked .EVENT_HANDLERS alloc

/-- `println!` before the shell is up: `_print` takes `WRITER` with interrupts off. -/
def println : List Op := locked .WRITER []

/-- kernel_main's steps from `start_timer_one_shot(SCHEDULER_TIMER_DELAY)` on, each one
operation but the `println!`; `hlt_loop` has none. -/
def mainSteps : List (List Op) :=
  (startProc true).map ([·]) ++ (startProc false).map ([·]) ++ [println] ++
    shellInit.map ([·]) ++ initKbHandler.map ([·])

/-! ## The timer interrupt and the system call -/

/-- `get_idle_task().clone().lock()`: `IDLE_TASK.call_once` creates the idle task (its two
boxed stacks, the boxed `ProcessState`, the `Arc`) unless `created`. -/
def idleOps (created : Bool) : List Op := deref .IDLE_TASK created 4 ++ locked .IDLE_TASK []

/-- `get_scheduler().lock()` around one call; the first access of `SCHEDULER` initialises it. -/
def schedulerOps (ready : Bool) : List Op := deref .SCHEDULER ready 2 ++ locked .SCHEDULER []

/-- The operations of `apic_timer_handler` in the state `k`, with `SCHEDULER` initialised or
not: `current_task_ptr` takes the idle task when nothing runs after the first call;
`select_next_task` takes the scheduler for `pick_next`, again in `replace_curr_task` to
reinsert a running task, and takes the idle task when the queue was empty. `restart_apic`
takes no lock. -/
def tickOps (k : Kernel) (schedulerReady : Bool) : List Op :=
  (if k.task.isNone && k.init then idleOps k.idleTask.isSome else []) ++
    schedulerOps schedulerReady ++
    (if k.task.isSome then schedulerOps true else []) ++
    (if k.scheduler.tasks.isEmpty then
      idleOps (k.idleTask.isSome || (k.task.isNone && k.init)) else [])

/-- The write system call of `test_fn`: `_handle_write` copies the message into a `String`,
`println!` goes through `SHELL` once `INITIALIZED` is set (one `Shell::write` for the message
and one for the newline, each under `WRITER`) and straight to `WRITER` before, and the string
is dropped. -/
def writeOps (initialized : Bool) : List Op :=
  alloc ++
    (if initialized then
      deref .SHELL true 0 ++ locked .SHELL (locked .WRITER [] ++ locked .WRITER [])
    else locked .WRITER []) ++
    alloc

/-- The process id `start_process` gives `test_fn`, the first process kernel_main starts. -/
def testFnId : UInt64 := 1

/-! ## The system -/

/-- The context the CPU runs. -/
inductive Ctx where
  | main
  | idle
  | task (id : UInt64)
  deriving DecidableEq, Repr

/-- The context resumed from a `*mut ProcessState`: `VOID_TASK` holds kernel_main's. -/
def Ctx.ofPtr : StatePtr → Ctx
  | .void => .main
  | .idle => .idle
  | .task id => .task id

/-- The system after `scheduler::init`, from the arming of the scheduler's timer on. -/
structure Sys where
  /-- The scheduler's globals. -/
  kernel : Kernel
  /-- kernel_main's next step. -/
  pc : ℕ
  /-- The locks held between two events. -/
  held : Finset Lock
  /-- The context the CPU runs. -/
  running : Ctx
  /-- `shell::INITIALIZED`. -/
  initialized : Bool
  /-- Whether the lazy static `SCHEDULER` is initialised. -/
  schedulerReady : Bool

/-- The system when the scheduler's timer is armed, from the state `scheduler::init` leaves. -/
def armed (voidStackAddrs : UInt64 × UInt64) : Sys :=
  ⟨.boot voidStackAddrs, 0, ∅, .main, false, false⟩

/-- An event: the running context takes its next step, with the addresses of the stacks
`start_process` boxes if the step is its push, or the timer interrupt comes, with the
interrupted stack pointer and the stacks `get_idle_task` boxes if it creates the idle task. -/
inductive Event where
  | run (stackAddrs : UInt64 × UInt64)
  | tick (rsp : UInt64) (idleStackAddrs : UInt64 × UInt64)
  deriving DecidableEq, Repr

namespace Sys

/-- The action of an operation of kernel_main; a push of `start_process` boxes its stacks at
`stackAddrs`. -/
def apply (stackAddrs : UInt64 × UInt64) (s : Sys) : Op → Sys
  | .act .startProcess =>
    { s with kernel := (s.kernel.step (.start stackAddrs.1 stackAddrs.2)).2 }
  | .act .storeInitialized => { s with initialized := true }
  | .act (.lazyInit .SCHEDULER) => { s with schedulerReady := true }
  | _ => s

/-- One step of kernel_main, taken with no interrupt inside it. -/
def mainStep (s : Sys) (ops : List Op) (stackAddrs : UInt64 × UInt64) : Option Sys :=
  (runAtomic s.held ops).map fun held =>
    { ops.foldl (apply stackAddrs) s with held := held, pc := s.pc + 1 }

/-- One event. kernel_main runs its next step, or nothing once in `hlt_loop`; `test_fn` makes
its write system call; `test_fn_hello` and the idle task take no lock. A timer interrupt runs
`apic_timer_handler` and resumes the context `select_next_task` returns. -/
def step (s : Sys) : Event → Option Sys
  | .run stackAddrs =>
    match s.running with
    | .main =>
      match mainSteps[s.pc]? with
      | some ops => s.mainStep ops stackAddrs
      | none => some s
    | .task id =>
      if id = testFnId then
        (runAtomic s.held (writeOps s.initialized)).map fun held => { s with held := held }
      else some s
    | .idle => some s
  | .tick rsp i =>
    (runAtomic s.held (tickOps s.kernel s.schedulerReady)).map fun held =>
      { s with
        held := held
        kernel := (s.kernel.timerTick rsp i).2
        running := Ctx.ofPtr (s.kernel.timerTick rsp i).1.resumed
        schedulerReady := true }

/-- The state after a run, `none` once a context spins forever. -/
def run (s : Sys) : List Event → Option Sys
  | [] => some s
  | e :: es => (s.step e).bind fun s' => s'.run es

@[simp] theorem run_nil (s : Sys) : s.run [] = some s := rfl

@[simp] theorem run_cons (s : Sys) (e : Event) (es : List Event) :
    s.run (e :: es) = (s.step e).bind fun s' => s'.run es := rfl

end Sys

end LeafOS.KernelMain
