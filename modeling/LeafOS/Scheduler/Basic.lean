import LeafOS.Lib.Trace
import LeafOS.Lib.RoundRobin
import LeafOS.Scheduler.ProcessState

/-!
# The round-robin scheduler and the timer interrupt

The state of `scheduler.rs` is the `RoundRobinScheduler` behind `SCHEDULER` (the waiting
tasks and the last process id), the running task `TASK`, the one-shot flag `INIT`, the lazily
created idle task `IDLE_TASK` and the `VOID_TASK` state that `scheduler::init` sets. `Kernel`
is that state after `scheduler::init`.

The context switch is `apic_timer_handler` (`interrupts.rs`): it saves `rsp` into the state
`current_task_ptr` returns, asks `select_next_task` for the next state and loads `rsp` from
it. `Kernel.timerTick` is one such interrupt, `Kernel.step` one event of a run: a
`start_proc` or a timer interrupt.

Stacks are boxed by the global allocator, whose addresses come with the events. Memory the
frames are written to is the subject of `TimerFrame`; here a `ProcessState` is its record.
-/

namespace LeafOS

/-- `process::State`. -/
inductive State where
  | Waiting
  | Runnable
  | Running
  | ShuttingDown
  deriving DecidableEq, Repr

/-- `process::Process`. -/
structure Process where
  id : UInt64
  state : State
  deriving DecidableEq, Repr

/-- A task as the scheduler keeps it: `(Process, Box<ProcessState>)`. -/
abbrev Task := Process × ProcessState

/-- The `ProcessState` a `*mut ProcessState` of the switch code points to: `VOID_TASK`'s,
the idle task's, or the box of the task with the given process id. -/
inductive StatePtr where
  | void
  | idle
  | task (id : UInt64)
  deriving DecidableEq, Repr

/-- The size of the stacks `start_process` and `get_idle_task` box (`[0; 4096]`). -/
def taskStackLen : UInt64 := 4096

/-- `RoundRobinScheduler`. -/
structure RoundRobinScheduler where
  tasks : List Task
  taskId : UInt64
  deriving DecidableEq, Repr

namespace RoundRobinScheduler

/-- `RoundRobinScheduler::new`. -/
def new : RoundRobinScheduler := ⟨[], 0⟩

/-- `pick_next`: `Vec::pop`, the last task. -/
def pickNext (s : RoundRobinScheduler) : Option Task × RoundRobinScheduler :=
  (s.tasks.getLast?, { s with tasks := s.tasks.dropLast })

/-- `reinsert_task`: `Vec::insert(0, task)`. -/
def reinsertTask (s : RoundRobinScheduler) (task : Task) : RoundRobinScheduler :=
  { s with tasks := task :: s.tasks }

/-- `start_process`: the next id, and a runnable task with fresh stacks pushed at the back.
Returns the new id. -/
def startProcess (s : RoundRobinScheduler) (kernelStackAddr userStackAddr : UInt64) :
    UInt64 × RoundRobinScheduler :=
  let taskId := s.taskId + 1
  (taskId,
    { tasks := s.tasks ++ [(⟨taskId, .Runnable⟩,
        ProcessState.new ⟨kernelStackAddr, taskStackLen⟩ ⟨userStackAddr, taskStackLen⟩)]
      taskId := taskId })

@[simp] theorem startProcess_taskId (s : RoundRobinScheduler) (a b : UInt64) :
    (s.startProcess a b).2.taskId = s.taskId + 1 := rfl

@[simp] theorem startProcess_tasks (s : RoundRobinScheduler) (a b : UInt64) :
    (s.startProcess a b).2.tasks = s.tasks ++ [(⟨s.taskId + 1, .Runnable⟩,
      ProcessState.new ⟨a, taskStackLen⟩ ⟨b, taskStackLen⟩)] := rfl

end RoundRobinScheduler

/-- The scheduler's globals after `scheduler::init`. -/
structure Kernel where
  /-- `SCHEDULER`. -/
  scheduler : RoundRobinScheduler
  /-- `TASK`: the running task. -/
  task : Option Task
  /-- `INIT`. -/
  init : Bool
  /-- `IDLE_TASK`, empty until `get_idle_task` first runs. -/
  idleTask : Option Task
  /-- `VOID_TASK`. -/
  voidTask : ProcessState
  deriving Repr

/-- What one timer interrupt does: the state `rsp` is saved into, the state resumed, and the
stack pointer loaded from it. -/
structure Switch where
  saved : StatePtr
  resumed : StatePtr
  rsp : Option UInt64
  deriving DecidableEq, Repr

/-- An event of a run: `start_proc` with the addresses of the two boxed stacks, or a timer
interrupt with the interrupted stack pointer and the stacks `get_idle_task` boxes if it
creates the idle task now. -/
inductive Event where
  | start (kernelStackAddr userStackAddr : UInt64)
  | tick (rsp : UInt64) (idleStackAddrs : UInt64 × UInt64)
  deriving DecidableEq, Repr

namespace Kernel

/-- The state after `scheduler::init`: `VOID_TASK` with a 256-byte kernel stack and an empty
user stack. -/
def boot (voidStackAddrs : UInt64 × UInt64) : Kernel where
  scheduler := .new
  task := none
  init := false
  idleTask := none
  voidTask := ProcessState.new ⟨voidStackAddrs.1, 256⟩ ⟨voidStackAddrs.2, 0⟩

/-- `get_idle_task`: `IDLE_TASK.call_once` creates the idle task, process id 0, on its first
call only. -/
def getIdleTask (k : Kernel) (stackAddrs : UInt64 × UInt64) : Task × Kernel :=
  match k.idleTask with
  | some t => (t, k)
  | none =>
    let t : Task := (⟨0, .Runnable⟩,
      ProcessState.new ⟨stackAddrs.1, taskStackLen⟩ ⟨stackAddrs.2, taskStackLen⟩)
    (t, { k with idleTask := some t })

/-- `replace_curr_task`: the running task, if any, goes back to the front of the queue and
`task` becomes the running one. -/
def replaceCurrTask (k : Kernel) (task : Option Task) : Kernel :=
  match k.task with
  | some old => { k with scheduler := k.scheduler.reinsertTask old, task := task }
  | none => { k with task := task }

/-- `select_next_task`: the task `pick_next` returns becomes the running one; with none, the
running task goes back to the queue and the idle task is resumed. -/
def selectNextTask (k : Kernel) (idleStackAddrs : UInt64 × UInt64) : StatePtr × Kernel :=
  let k' := { k with scheduler := k.scheduler.pickNext.2 }
  match k.scheduler.pickNext.1 with
  | none => (.idle, ((k'.replaceCurrTask none).getIdleTask idleStackAddrs).2)
  | some task => (.task task.1.id, k'.replaceCurrTask (some task))

/-- `current_task_ptr`: the running task's state; with none, `VOID_TASK` on the first call
and the idle task's state after that. -/
def currentTaskPtr (k : Kernel) (idleStackAddrs : UInt64 × UInt64) : StatePtr × Kernel :=
  match k.task with
  | some t => (.task t.1.id, k)
  | none =>
    if !k.init then (.void, { k with init := true })
    else (.idle, (k.getIdleTask idleStackAddrs).2)

/-- Set the saved kernel stack pointer of a task. -/
def setRsp (rsp : UInt64) (t : Task) : Task := (t.1, { t.2 with kernelRsp := rsp })

/-- `mov [rax], rsp`: store `rsp` into the `kernel_rsp` of the state `p` points to. A task's
box is the running task's, which is where `current_task_ptr` found it. -/
def saveRsp (k : Kernel) (p : StatePtr) (rsp : UInt64) : Kernel :=
  match p with
  | .void => { k with voidTask := { k.voidTask with kernelRsp := rsp } }
  | .idle => { k with idleTask := k.idleTask.map (setRsp rsp) }
  | .task id => { k with task := k.task.map fun t => if t.1.id = id then setRsp rsp t else t }

/-- The record `p` points to, if there is one. -/
def stateAt (k : Kernel) : StatePtr → Option ProcessState
  | .void => some k.voidTask
  | .idle => k.idleTask.map (·.2)
  | .task id => (k.task.filter (·.1.id = id)).map (·.2)

/-- One run of `apic_timer_handler`: save `rsp` through `current_task_ptr`, switch with
`select_next_task`, and load `rsp` from the state it returns (`mov rsp, [rax]`). -/
def timerTick (k : Kernel) (rsp : UInt64) (idleStackAddrs : UInt64 × UInt64) : Switch × Kernel :=
  let (saved, k₁) := k.currentTaskPtr idleStackAddrs
  let k₂ := k₁.saveRsp saved rsp
  let (resumed, k₃) := k₂.selectNextTask idleStackAddrs
  (⟨saved, resumed, (k₃.stateAt resumed).map (·.kernelRsp)⟩, k₃)

/-- One event: `start_proc` emits nothing, a timer interrupt emits its switch. -/
def step (k : Kernel) : Event → Option Switch × Kernel
  | .start kernelStackAddr userStackAddr =>
    (none, { k with scheduler := (k.scheduler.startProcess kernelStackAddr userStackAddr).2 })
  | .tick rsp idleStackAddrs =>
    let (sw, k') := k.timerTick rsp idleStackAddrs
    (some sw, k')

/-- The state after a run. -/
def run (k : Kernel) (es : List Event) : Kernel := Trace.run step k es

/-- The switches of a run, one per timer interrupt. -/
def switches (k : Kernel) (es : List Event) : List Switch := Trace.outputs step k es

@[simp] theorem step_start (k : Kernel) (a b : UInt64) :
    k.step (.start a b) = (none, { k with scheduler := (k.scheduler.startProcess a b).2 }) := rfl

@[simp] theorem step_tick (k : Kernel) (rsp : UInt64) (i : UInt64 × UInt64) :
    k.step (.tick rsp i) = (some (k.timerTick rsp i).1, (k.timerTick rsp i).2) := rfl

@[simp] theorem run_nil (k : Kernel) : k.run [] = k := rfl

@[simp] theorem run_cons (k : Kernel) (e : Event) (es : List Event) :
    k.run (e :: es) = (k.step e).2.run es := rfl

theorem run_append (k : Kernel) (es es' : List Event) : k.run (es ++ es') = (k.run es).run es' :=
  Trace.run_append step k es es'

@[simp] theorem switches_nil (k : Kernel) : k.switches [] = [] := rfl

@[simp] theorem switches_cons (k : Kernel) (e : Event) (es : List Event) :
    k.switches (e :: es) = (k.step e).1.toList ++ (k.step e).2.switches es := rfl

/-- The state the next `current_task_ptr` returns. -/
def current (k : Kernel) : StatePtr :=
  match k.task with
  | some t => .task t.1.id
  | none => if k.init then .idle else .void

/-- The state `select_next_task` resumes for the task `pick_next` returned. -/
def resumedPtr : Option Task → StatePtr
  | none => .idle
  | some t => .task t.1.id

/-- The process id of the running task. -/
def runningId (k : Kernel) : Option UInt64 := k.task.map (·.1.id)

/-- The process ids of the queue, front first. -/
def queueIds (k : Kernel) : List UInt64 := k.scheduler.tasks.map (·.1.id)

/-! ## What each function does -/

/-- `current_task_ptr` returns `current`; it sets `INIT` when nothing runs and may create the
idle task, and changes nothing else. -/
theorem currentTaskPtr_eq (k : Kernel) (i : UInt64 × UInt64) :
    ∃ idle, k.currentTaskPtr i =
      (k.current, { k with init := k.init || k.task.isNone, idleTask := idle }) := by
  refine ⟨(k.currentTaskPtr i).2.idleTask, ?_⟩
  rcases k with ⟨sched, task, init, idle, void⟩
  cases task with
  | some t => simp [currentTaskPtr, current]
  | none => cases init <;> cases idle <;> simp [currentTaskPtr, current, getIdleTask]

/-- `select_next_task` resumes the back of the queue, or the idle task, rotates the running task
and the queue, may create the idle task, and changes nothing else. -/
theorem selectNextTask_eq (k : Kernel) (i : UInt64 × UInt64) :
    ∃ idle, k.selectNextTask i = (resumedPtr k.scheduler.tasks.getLast?,
      { k with
        scheduler := { k.scheduler with tasks := (RoundRobin.rotate k.task k.scheduler.tasks).2 }
        task := (RoundRobin.rotate k.task k.scheduler.tasks).1
        idleTask := idle }) := by
  refine ⟨(k.selectNextTask i).2.idleTask, ?_⟩
  rcases k with ⟨⟨tasks, taskId⟩, task, init, idle, void⟩
  rcases List.eq_nil_or_concat' tasks with rfl | ⟨q, x, rfl⟩
  · cases task <;> cases idle <;> simp [selectNextTask, replaceCurrTask, getIdleTask,
      RoundRobinScheduler.pickNext, RoundRobinScheduler.reinsertTask, resumedPtr]
  · cases task <;> simp [selectNextTask, replaceCurrTask, RoundRobinScheduler.pickNext,
      RoundRobinScheduler.reinsertTask, resumedPtr]

@[simp] theorem saveRsp_scheduler (k : Kernel) (p : StatePtr) (rsp : UInt64) :
    (k.saveRsp p rsp).scheduler = k.scheduler := by
  cases p <;> rfl

@[simp] theorem saveRsp_init (k : Kernel) (p : StatePtr) (rsp : UInt64) :
    (k.saveRsp p rsp).init = k.init := by
  cases p <;> rfl

/-- Saving a stack pointer keeps the running task's id. -/
@[simp] theorem saveRsp_runningId (k : Kernel) (p : StatePtr) (rsp : UInt64) :
    (k.saveRsp p rsp).runningId = k.runningId := by
  cases p with
  | void | idle => rfl
  | task id =>
    simp only [saveRsp, runningId, Option.map_map]
    congr 1
    funext t
    by_cases h : t.1.id = id <;> simp [h, setRsp]

@[simp] theorem saveRsp_task_isSome (k : Kernel) (p : StatePtr) (rsp : UInt64) :
    (k.saveRsp p rsp).task.isSome = k.task.isSome := by
  cases p <;> simp [saveRsp]

/-! ## One timer interrupt -/

section TimerTick

variable (k : Kernel) (rsp : UInt64) (i : UInt64 × UInt64)

/-- The state a timer interrupt hands to `select_next_task`: `k` after `current_task_ptr` and
the save. -/
theorem timerTick_eq : ∃ k₂ : Kernel, k₂.scheduler = k.scheduler ∧ k₂.task.isSome = k.task.isSome ∧
    k₂.runningId = k.runningId ∧ k₂.init = (k.init || k.task.isNone) ∧
    k.timerTick rsp i = (⟨k.current, (k₂.selectNextTask i).1,
      ((k₂.selectNextTask i).2.stateAt (k₂.selectNextTask i).1).map (·.kernelRsp)⟩,
      (k₂.selectNextTask i).2) := by
  obtain ⟨idle, h⟩ := currentTaskPtr_eq k i
  refine ⟨{ k with init := k.init || k.task.isNone, idleTask := idle }.saveRsp k.current rsp,
    by simp, by simp, by rw [saveRsp_runningId]; rfl, by simp, ?_⟩
  simp only [timerTick, h]

theorem timerTick_saved : (k.timerTick rsp i).1.saved = k.current := by
  obtain ⟨k₂, -, -, -, -, h⟩ := timerTick_eq k rsp i
  rw [h]

theorem timerTick_resumed :
    (k.timerTick rsp i).1.resumed = resumedPtr k.scheduler.tasks.getLast? := by
  obtain ⟨k₂, hs, -, -, -, h⟩ := timerTick_eq k rsp i
  obtain ⟨idle, h₂⟩ := selectNextTask_eq k₂ i
  rw [h, h₂, hs]

@[simp] theorem timerTick_taskId :
    (k.timerTick rsp i).2.scheduler.taskId = k.scheduler.taskId := by
  obtain ⟨k₂, hs, -, -, -, h⟩ := timerTick_eq k rsp i
  obtain ⟨idle, h₂⟩ := selectNextTask_eq k₂ i
  rw [h, h₂, hs]

theorem timerTick_init : (k.timerTick rsp i).2.init = (k.init || k.task.isNone) := by
  obtain ⟨k₂, -, -, -, hi, h⟩ := timerTick_eq k rsp i
  obtain ⟨idle, h₂⟩ := selectNextTask_eq k₂ i
  rw [h, h₂, ← hi]

/-- On process ids, a timer interrupt is one round-robin rotation. -/
theorem timerTick_ids :
    ((k.timerTick rsp i).2.runningId, (k.timerTick rsp i).2.queueIds) =
      RoundRobin.rotate k.runningId k.queueIds := by
  obtain ⟨k₂, hs, -, hr, -, h⟩ := timerTick_eq k rsp i
  obtain ⟨idle, h₂⟩ := selectNextTask_eq k₂ i
  rw [h, h₂]
  simp only [runningId, queueIds] at hr ⊢
  rw [← hr, ← hs, RoundRobin.rotate_map]

/-- After a timer interrupt that started with `INIT` set or nothing running, `current` is the
state it resumed. -/
theorem timerTick_current (hk : (k.init || k.task.isNone) = true) :
    (k.timerTick rsp i).2.current = (k.timerTick rsp i).1.resumed := by
  obtain ⟨k₂, hs, -, -, hi, h⟩ := timerTick_eq k rsp i
  obtain ⟨idle, h₂⟩ := selectNextTask_eq k₂ i
  rw [h, h₂]
  simp only [current, resumedPtr, hs]
  rcases List.eq_nil_or_concat' k.scheduler.tasks with hq | ⟨q, x, hq⟩
  · simp [hq, hi, hk]
  · simp [hq]

end TimerTick

end Kernel

/-- The number of `start_proc` events of a run. -/
def starts (es : List Event) : ℕ := (es.filter fun e => e matches .start _ _).length

@[simp] theorem starts_nil : starts [] = 0 := rfl

@[simp] theorem starts_start (a b : UInt64) (es : List Event) :
    starts (.start a b :: es) = starts es + 1 := by
  simp [starts]

@[simp] theorem starts_tick (rsp : UInt64) (i : UInt64 × UInt64) (es : List Event) :
    starts (.tick rsp i :: es) = starts es := by
  simp [starts]

end LeafOS
