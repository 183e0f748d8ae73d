import LeafOS.Main.Locks
import LeafOS.Scheduler.Fairness

/-!
# kernel_main preempted for good

The first timer interrupt saves kernel_main's context into `VOID_TASK`, and no interrupt
resumes it (`ofPtr_resumed_ne_main`). From then on every context runs with interrupts off and
gives back the locks it takes, so the locks kernel_main held at that interrupt stay held for
ever, and a context that takes one of them spins for ever.

1. `nested_tickOps`, `nested_writeOps`: the handler and the write system call take and give
   back their locks in nested order; `acquired_tickOps_subset`, `mem_acquired_writeOps`: what
   they take.
2. `step_of_ne_main`, `run_of_free`: once kernel_main no longer runs, an event completes
   exactly when it takes no lock kernel_main holds, and a run in which none does follows the
   scheduler model, `Kernel.run` of its timer interrupts.
3. `MainAt`, `run_main`: kernel_main's first steps, before any interrupt: the locks it holds
   are `heldAt`, and the starts it made are `mainStarts`.
4. `firstTick_refines`: when kernel_main holds no `contended` lock at the first interrupt, no
   later run spins, kernel_main never runs again, and the scheduler's state is the one
   `Kernel.run` gives for kernel_main's starts and the interrupts.
5. `firstTick_hangs_iff`: some later run spins exactly when kernel_main holds a `contended`
   lock at the first interrupt.
-/

namespace LeafOS.KernelMain

open SpinLock

/-! ## What the paths take -/

@[simp] theorem acquired_alloc : acquired alloc = [Lock.ALLOCATOR] := rfl

@[simp] theorem acquired_allocs (n : ℕ) : acquired (allocs n) = List.replicate n .ALLOCATOR := by
  induction n with
  | zero => rfl
  | succ n ih =>
    rw [allocs, List.replicate_succ, List.flatten_cons, acquired_append, ← allocs, ih]
    rfl

@[simp] theorem acquired_locked (l : Lock) (body : List Op) :
    acquired (locked l body) = l :: acquired body := by
  simp [locked]

@[simp] theorem acquired_deref (s : Static) (ready : Bool) (n : ℕ) :
    acquired (deref s ready n) = .once s :: if ready then [] else List.replicate n .ALLOCATOR := by
  cases ready <;> simp [deref]

theorem nested_alloc : Nested alloc := .crit _ .nil (by simp) .nil

theorem nested_allocs (n : ℕ) : Nested (allocs n) :=
  Nested.flatten fun _ h => List.eq_of_mem_replicate h ▸ nested_alloc

theorem nested_locked {l : Lock} {body : List Op} (h : Nested body) (hl : l ∉ acquired body) :
    Nested (locked l body) :=
  h.locked l hl

theorem nested_deref (s : Static) (ready : Bool) (n : ℕ) : Nested (deref s ready n) := by
  cases ready with
  | false => exact nested_locked ((nested_allocs n).append (.act _ .nil)) (by simp)
  | true => exact nested_locked .nil (by simp)

theorem nested_idleOps (created : Bool) : Nested (idleOps created) :=
  (nested_deref _ _ _).append (nested_locked .nil (by simp))

theorem nested_schedulerOps (ready : Bool) : Nested (schedulerOps ready) :=
  (nested_deref _ _ _).append (nested_locked .nil (by simp))

theorem nested_tickOps (k : Kernel) (ready : Bool) : Nested (tickOps k ready) := by
  unfold tickOps
  refine ((Nested.append ?_ (nested_schedulerOps ready)).append ?_).append ?_
  all_goals split
  all_goals first | exact nested_idleOps _ | exact nested_schedulerOps _ | exact .nil

theorem nested_writeOps (initialized : Bool) : Nested (writeOps initialized) := by
  have hw : Nested (locked .WRITER []) := nested_locked .nil (by simp)
  refine (nested_alloc.append ?_).append nested_alloc
  cases initialized with
  | false => exact hw
  | true => exact (nested_deref _ _ _).append (nested_locked (hw.append hw) (by simp))

/-- The locks the timer interrupt can take. -/
def tickLocks : List Lock :=
  [.SCHEDULER, .once .SCHEDULER, .ALLOCATOR, .IDLE_TASK, .once .IDLE_TASK]

theorem acquired_idleOps_subset (created : Bool) : acquired (idleOps created) ⊆ tickLocks := by
  cases created <;> simp [idleOps, tickLocks, List.subset_def]

theorem acquired_schedulerOps_subset (ready : Bool) :
    acquired (schedulerOps ready) ⊆ tickLocks := by
  cases ready <;> simp [schedulerOps, tickLocks, List.subset_def]

theorem acquired_tickOps_subset (k : Kernel) (ready : Bool) :
    acquired (tickOps k ready) ⊆ tickLocks := by
  simp only [tickOps, acquired_append, List.append_subset]
  refine ⟨⟨⟨?_, acquired_schedulerOps_subset ready⟩, ?_⟩, ?_⟩
  all_goals split
  all_goals first
    | exact acquired_idleOps_subset _ | exact acquired_schedulerOps_subset _ | simp

/-- Every timer interrupt takes `SCHEDULER` and waits on its `Once`. -/
theorem scheduler_mem_acquired_tickOps (k : Kernel) (ready : Bool) :
    Lock.SCHEDULER ∈ acquired (tickOps k ready) ∧
      Lock.once .SCHEDULER ∈ acquired (tickOps k ready) := by
  simp [tickOps, schedulerOps]

theorem mem_acquired_writeOps {initialized : Bool} {l : Lock} :
    l ∈ acquired (writeOps initialized) ↔
      l = .ALLOCATOR ∨ l = .WRITER ∨
        (initialized = true ∧ (l = .SHELL ∨ l = .once .SHELL)) := by
  cases initialized <;> simp [writeOps] <;> tauto

/-- The locks some context takes after kernel_main is preempted for good: every timer
interrupt takes `SCHEDULER` and its `Once`; every write of `test_fn` takes the allocator and
`WRITER`, and `SHELL` and its `Once` once `INITIALIZED` is set. -/
def contended (initialized : Bool) : List Lock :=
  [.SCHEDULER, .once .SCHEDULER, .ALLOCATOR, .WRITER] ++
    if initialized then [.SHELL, .once .SHELL] else []

theorem mem_contended_of_writeOps {initialized : Bool} {l : Lock}
    (h : l ∈ acquired (writeOps initialized)) : l ∈ contended initialized := by
  rcases mem_acquired_writeOps.mp h with rfl | rfl | ⟨rfl, rfl | rfl⟩ <;> simp [contended]

/-- The contended locks the timer interrupt does not take are the write's. -/
theorem mem_acquired_writeOps_of_contended {initialized : Bool} {l : Lock}
    (hc : l ∈ contended initialized) (hS : l ≠ .SCHEDULER) (hS' : l ≠ .once .SCHEDULER) :
    l ∈ acquired (writeOps initialized) := by
  apply mem_acquired_writeOps.mpr
  simp only [contended, List.mem_append, List.mem_cons, List.not_mem_nil, or_false] at hc
  rcases hc with (rfl | rfl | rfl | rfl) | hc
  · exact absurd rfl hS
  · exact absurd rfl hS'
  · exact .inl rfl
  · exact .inr (.inl rfl)
  · split at hc
    · exact .inr (.inr ⟨‹_›, by simpa using hc⟩)
    · simp at hc

/-! ## After the first timer interrupt -/

/-- No timer interrupt resumes kernel_main: `select_next_task` returns the idle task or a
task, never `VOID_TASK`. -/
theorem ofPtr_resumed_ne_main (k : Kernel) (rsp : UInt64) (i : UInt64 × UInt64) :
    Ctx.ofPtr (k.timerTick rsp i).1.resumed ≠ .main := by
  rw [Kernel.timerTick_resumed]
  cases k.scheduler.tasks.getLast? <;> simp [Kernel.resumedPtr, Ctx.ofPtr]

/-- The timer interrupts of a run, as events of the scheduler model. -/
def kernelEvents : List Event → List LeafOS.Event
  | [] => []
  | .run _ :: es => kernelEvents es
  | .tick rsp i :: es => .tick rsp i :: kernelEvents es

namespace Sys

/-- What an event runs once kernel_main no longer runs. -/
def ops (s : Sys) : Event → List Op
  | .run _ =>
    match s.running with
    | .task id => if id = testFnId then writeOps s.initialized else []
    | _ => []
  | .tick _ _ => tickOps s.kernel s.schedulerReady

/-- The state after an event that completes, once kernel_main no longer runs. -/
def after (s : Sys) : Event → Sys
  | .run _ => s
  | .tick rsp i =>
    { s with
      kernel := (s.kernel.timerTick rsp i).2
      running := Ctx.ofPtr (s.kernel.timerTick rsp i).1.resumed
      schedulerReady := true }

theorem nested_ops (s : Sys) (e : Event) : Nested (s.ops e) := by
  cases e with
  | run a =>
    cases hr : s.running with
    | task id =>
      simp only [ops, hr]
      split
      · exact nested_writeOps _
      · exact .nil
    | main | idle => simp only [ops, hr]; exact .nil
  | tick rsp i => exact nested_tickOps _ _

/-- What an event takes, once kernel_main no longer runs: the timer interrupt's locks, or the
contended ones. -/
theorem acquired_ops (s : Sys) (e : Event) :
    ∀ l ∈ acquired (s.ops e), l ∈ tickLocks ∨ l ∈ contended s.initialized := by
  intro l hl
  cases e with
  | run a =>
    cases hr : s.running with
    | task id =>
      simp only [ops, hr] at hl
      split at hl
      · exact .inr (mem_contended_of_writeOps hl)
      · simp at hl
    | main | idle => simp [ops, hr] at hl
  | tick rsp i => exact .inl (acquired_tickOps_subset _ _ hl)

@[simp] theorem after_held (s : Sys) (e : Event) : (s.after e).held = s.held := by
  cases e <;> rfl

@[simp] theorem after_initialized (s : Sys) (e : Event) :
    (s.after e).initialized = s.initialized := by
  cases e <;> rfl

theorem after_running (s : Sys) (hs : s.running ≠ .main) (e : Event) :
    (s.after e).running ≠ .main := by
  cases e with
  | run a => exact hs
  | tick rsp i => exact ofPtr_resumed_ne_main _ _ _

theorem after_kernel (s : Sys) (e : Event) :
    (s.after e).kernel = s.kernel.run (kernelEvents [e]) := by
  cases e <;> rfl

/-- A timer interrupt, wherever kernel_main is: the handler's operations against the held
locks. -/
theorem step_tick (s : Sys) (rsp : UInt64) (i : UInt64 × UInt64) :
    s.step (.tick rsp i) = (runAtomic s.held (s.ops (.tick rsp i))).map fun held =>
      { s.after (.tick rsp i) with held := held } := rfl

/-- Once kernel_main no longer runs, an event runs its operations against the held locks. -/
theorem step_of_ne_main {s : Sys} (hs : s.running ≠ .main) (e : Event) :
    s.step e = (runAtomic s.held (s.ops e)).map fun held => { s.after e with held := held } := by
  cases e with
  | tick rsp i => rfl
  | run a =>
    rcases s with ⟨k, pc, held, running, initialized, ready⟩
    cases running with
    | main => exact absurd rfl hs
    | idle => rfl
    | task id =>
      by_cases hid : id = testFnId
      · simp [step, ops, after, hid]
      · simp [step, ops, after, hid]

/-- An event that takes no held lock completes and leaves them held. -/
theorem map_after_of_free (s : Sys) (e : Event)
    (hfree : ∀ l ∈ acquired (s.ops e), l ∉ s.held) :
    (runAtomic s.held (s.ops e)).map (fun held => { s.after e with held := held }) =
      some (s.after e) := by
  rw [(s.nested_ops e).runAtomic_eq_some hfree, Option.map_some]
  cases e <;> rfl

/-- An event that takes a held lock spins for ever. -/
theorem map_after_of_held (s : Sys) (e : Event) {l : Lock} (hl : l ∈ acquired (s.ops e))
    (hheld : l ∈ s.held) :
    (runAtomic s.held (s.ops e)).map (fun held => { s.after e with held := held }) = none := by
  rw [(s.nested_ops e).runAtomic_eq_none hl hheld, Option.map_none]

/-- A run from a state kernel_main no longer runs in, and whose held locks no context takes:
nothing spins, the held locks stay held, and the scheduler follows its timer interrupts. -/
theorem run_of_free (evs : List Event) :
    ∀ s : Sys, s.running ≠ .main →
      (∀ l ∈ s.held, l ∉ tickLocks ∧ l ∉ contended s.initialized) →
      ∃ s', s.run evs = some s' ∧ s'.running ≠ .main ∧ s'.held = s.held ∧
        s'.kernel = s.kernel.run (kernelEvents evs) := by
  induction evs with
  | nil => intro s hs _; exact ⟨s, rfl, hs, rfl, rfl⟩
  | cons e evs ih =>
    intro s hs hfree
    -- the event takes only locks no one holds
    have hstep : s.step e = some (s.after e) := by
      rw [step_of_ne_main hs, map_after_of_free]
      intro l hl hheld
      rcases s.acquired_ops e l hl with h | h
      · exact (hfree l hheld).1 h
      · exact (hfree l hheld).2 h
    obtain ⟨s', hrun, hs', hheld, hk⟩ := ih (s.after e) (s.after_running hs e)
      (by simpa using hfree)
    refine ⟨s', by rw [run_cons, hstep, Option.bind_some, hrun], hs', by rw [hheld, after_held],
      ?_⟩
    rw [hk, after_kernel]
    cases e <;> rfl

/-- A run in pieces. -/
theorem run_append (s : Sys) (evs evs' : List Event) :
    s.run (evs ++ evs') = (s.run evs).bind fun s' => s'.run evs' := by
  induction evs generalizing s with
  | nil => rfl
  | cons e evs ih =>
    rw [List.cons_append, run_cons, run_cons, Option.bind_assoc]
    congr 1
    funext s'
    exact ih s'

end Sys

/-! ## kernel_main before the first interrupt -/

/-- kernel_main's operations in its first `p` steps. -/
def opsBefore (p : ℕ) : List Op := (List.take p mainSteps).flatten

/-- The locks kernel_main holds after its first `p` steps. -/
def heldAt (p : ℕ) : Finset Lock := (runAtomic ∅ (opsBefore p)).getD ∅

/-- Whether kernel_main has stored `INITIALIZED` in its first `p` steps. -/
def initAt (p : ℕ) : Bool := decide (.act .storeInitialized ∈ opsBefore p)

/-- Whether `SCHEDULER` is initialised after kernel_main's first `p` steps. -/
def readyAt (p : ℕ) : Bool := decide (.act (.lazyInit .SCHEDULER) ∈ opsBefore p)

/-- How many processes kernel_main has started in its first `p` steps. -/
def startsAt (p : ℕ) : ℕ := (opsBefore p).count (.act .startProcess)

/-- The starts the operations `ops` make, with the stacks of their event. -/
def startsOf (ops : List Op) (stackAddrs : UInt64 × UInt64) : List LeafOS.Event :=
  (ops.filter (· = .act .startProcess)).map fun _ => .start stackAddrs.1 stackAddrs.2

/-- The starts kernel_main makes in its steps from step `p` on, with the stacks of their
events. -/
def mainStartsFrom (p : ℕ) (as : List (UInt64 × UInt64)) : List LeafOS.Event :=
  ((List.drop p mainSteps).zip as).flatMap fun x => startsOf x.1 x.2

/-- The starts kernel_main makes in its first steps. -/
def mainStarts (as : List (UInt64 × UInt64)) : List LeafOS.Event := mainStartsFrom 0 as

theorem opsBefore_succ {p : ℕ} (hp : p < mainSteps.length) :
    opsBefore (p + 1) = opsBefore p ++ mainSteps[p] := by
  rw [opsBefore, opsBefore, List.take_add_one, List.getElem?_eq_getElem hp, Option.toList_some,
    List.flatten_append, List.flatten_singleton]

theorem opsBefore_of_le {p : ℕ} (hp : mainSteps.length ≤ p) :
    opsBefore p = opsBefore mainSteps.length := by
  rw [opsBefore, opsBefore, List.take_of_length_le hp, List.take_length]

/-- kernel_main's prefixes stop growing at its last step, so a fact about the prefixes up to
there, which `decide` settles, is a fact about all of them. -/
theorem opsBefore_min (p : ℕ) : opsBefore (min p mainSteps.length) = opsBefore p := by
  rcases le_total p mainSteps.length with hp | hp
  · rw [min_eq_left hp]
  · rw [min_eq_right hp, opsBefore_of_le hp]

theorem min_lt_length_succ (p : ℕ) : min p mainSteps.length < mainSteps.length + 1 :=
  Nat.lt_succ_of_le (min_le_right _ _)

/-- kernel_main never spins on itself: each of its prefixes runs from no lock held. -/
theorem runAtomic_opsBefore_isSome :
    ∀ p : Fin (mainSteps.length + 1), (runAtomic ∅ (opsBefore p)).isSome := by
  decide

theorem runAtomic_opsBefore (p : ℕ) : runAtomic ∅ (opsBefore p) = some (heldAt p) := by
  obtain ⟨held, h⟩ :=
    Option.isSome_iff_exists.mp (runAtomic_opsBefore_isSome ⟨_, min_lt_length_succ p⟩)
  rw [opsBefore_min] at h
  rw [heldAt, h, Option.getD_some]

/-- kernel_main holds neither lock of the idle task, which only the handler takes. -/
theorem idle_not_mem_heldAt (p : ℕ) :
    Lock.IDLE_TASK ∉ heldAt p ∧ Lock.once .IDLE_TASK ∉ heldAt p := by
  have h : ∀ q : Fin (mainSteps.length + 1),
      Lock.IDLE_TASK ∉ heldAt q ∧ Lock.once .IDLE_TASK ∉ heldAt q := by
    decide
  simp only [heldAt] at h ⊢
  rw [← opsBefore_min p]
  exact h ⟨_, min_lt_length_succ p⟩

/-- Where kernel_main holds a contended lock other than `SCHEDULER` and its `Once`, it has
started both processes and `SCHEDULER` is initialised. -/
theorem started_of_contended {p : ℕ} {l : Lock} (hl : l ∈ heldAt p)
    (hc : l ∈ contended (initAt p)) (hs : Lock.SCHEDULER ∉ heldAt p)
    (hs' : Lock.once .SCHEDULER ∉ heldAt p) : readyAt p = true ∧ startsAt p = 2 := by
  have h : ∀ q : Fin (mainSteps.length + 1), Lock.SCHEDULER ∉ heldAt q →
      Lock.once .SCHEDULER ∉ heldAt q → (∃ l ∈ heldAt q, l ∈ contended (initAt q)) →
      readyAt q = true ∧ startsAt q = 2 := by
    decide
  simp only [heldAt, initAt, readyAt, startsAt] at h hl hc hs hs' ⊢
  rw [← opsBefore_min p] at hl hc hs hs' ⊢
  exact h ⟨_, min_lt_length_succ p⟩ hs hs' ⟨l, hl, hc⟩

theorem startsOf_cons (op : Op) (ops : List Op) (a : UInt64 × UInt64) :
    startsOf (op :: ops) a = startsOf [op] a ++ startsOf ops a := by
  by_cases h : op = .act .startProcess <;> simp [startsOf, h]

theorem apply_fields (a : UInt64 × UInt64) (s : Sys) (op : Op) :
    (s.apply a op).held = s.held ∧ (s.apply a op).pc = s.pc ∧
      (s.apply a op).running = s.running ∧
      (s.apply a op).initialized = (s.initialized || decide (.act .storeInitialized = op)) ∧
      (s.apply a op).schedulerReady =
        (s.schedulerReady || decide (.act (.lazyInit .SCHEDULER) = op)) ∧
      (s.apply a op).kernel = s.kernel.run (startsOf [op] a) := by
  rcases op with l | l | ⟨⟩ | ⟨⟩ | ⟨⟨⟩ | ⟨⟩ | ⟨⟩ | ⟨⟩⟩ <;>
    simp [Sys.apply, startsOf, Kernel.run]

/-- kernel_main's operations within one step keep what they do not act on. -/
theorem foldl_apply (a : UInt64 × UInt64) (ops : List Op) : ∀ s : Sys,
    (ops.foldl (Sys.apply a) s).held = s.held ∧ (ops.foldl (Sys.apply a) s).pc = s.pc ∧
      (ops.foldl (Sys.apply a) s).running = s.running ∧
      (ops.foldl (Sys.apply a) s).initialized =
        (s.initialized || decide (.act .storeInitialized ∈ ops)) ∧
      (ops.foldl (Sys.apply a) s).schedulerReady =
        (s.schedulerReady || decide (.act (.lazyInit .SCHEDULER) ∈ ops)) ∧
      (ops.foldl (Sys.apply a) s).kernel = s.kernel.run (startsOf ops a) := by
  induction ops with
  | nil => intro s; simp [startsOf]
  | cons op ops ih =>
    intro s
    obtain ⟨h1, h2, h3, h4, h5, h6⟩ := apply_fields a s op
    obtain ⟨i1, i2, i3, i4, i5, i6⟩ := ih (s.apply a op)
    rw [List.foldl_cons]
    refine ⟨i1.trans h1, i2.trans h2, i3.trans h3, ?_, ?_, ?_⟩
    · simp only [i4, h4, List.mem_cons, Bool.decide_or, Bool.or_assoc]
    · simp only [i5, h5, List.mem_cons, Bool.decide_or, Bool.or_assoc]
    · rw [i6, h6, ← Kernel.run_append, startsOf_cons op ops a]

@[simp] theorem mainStartsFrom_nil (p : ℕ) : mainStartsFrom p [] = [] := by
  simp [mainStartsFrom]

theorem mainStartsFrom_of_lt {p : ℕ} (hp : p < mainSteps.length) (a : UInt64 × UInt64)
    (as : List (UInt64 × UInt64)) :
    mainStartsFrom p (a :: as) = startsOf mainSteps[p] a ++ mainStartsFrom (p + 1) as := by
  rw [mainStartsFrom, mainStartsFrom, List.drop_eq_getElem_cons hp, List.zip_cons_cons,
    List.flatMap_cons]

theorem mainStartsFrom_of_le {p : ℕ} (hp : mainSteps.length ≤ p)
    (as : List (UInt64 × UInt64)) :
    mainStartsFrom p as = [] := by
  simp [mainStartsFrom, List.drop_of_length_le hp]

theorem mainStartsFrom_cons (p : ℕ) (a : UInt64 × UInt64) (as : List (UInt64 × UInt64)) :
    mainStartsFrom p (a :: as) = mainStartsFrom p [a] ++ mainStartsFrom (p + 1) as := by
  rcases lt_or_ge p mainSteps.length with hp | hp
  · rw [mainStartsFrom_of_lt hp, mainStartsFrom_of_lt hp, mainStartsFrom_nil, List.append_nil]
  · rw [mainStartsFrom_of_le hp, mainStartsFrom_of_le hp, mainStartsFrom_of_le (by omega),
      List.append_nil]

theorem length_startsOf (ops : List Op) (a : UInt64 × UInt64) :
    (startsOf ops a).length = ops.count (.act .startProcess) := by
  rw [startsOf, List.length_map, List.count_eq_length_filter]
  rfl

theorem length_mainStartsFrom (as : List (UInt64 × UInt64)) : ∀ p : ℕ,
    (mainStartsFrom p as).length =
      ((List.drop p mainSteps).take as.length).flatten.count (.act .startProcess) := by
  induction as with
  | nil => intro p; simp [mainStartsFrom]
  | cons a as ih =>
    intro p
    rcases lt_or_ge p mainSteps.length with hp | hp
    · rw [mainStartsFrom_of_lt hp, List.length_append, ih, length_startsOf,
        List.drop_eq_getElem_cons hp, List.length_cons, List.take_succ_cons, List.flatten_cons,
        List.count_append]
    · simp [mainStartsFrom_of_le hp, List.drop_of_length_le hp]

/-- kernel_main's starts are `startsAt` many. -/
theorem length_mainStarts (as : List (UInt64 × UInt64)) :
    (mainStarts as).length = startsAt as.length := by
  rw [mainStarts, length_mainStartsFrom, List.drop_zero, startsAt, opsBefore]

theorem start_of_mem_mainStarts {as : List (UInt64 × UInt64)} {e : LeafOS.Event}
    (he : e ∈ mainStarts as) : ∃ a b, e = .start a b := by
  simp only [mainStarts, mainStartsFrom, startsOf, List.mem_flatMap, List.mem_map] at he
  obtain ⟨x, -, -, -, rfl⟩ := he
  exact ⟨_, _, rfl⟩

/-- `s` is kernel_main after its first `p` steps, before any timer interrupt. -/
structure MainAt (s : Sys) (p : ℕ) : Prop where
  running : s.running = .main
  pc : s.pc = min p mainSteps.length
  held : s.held = heldAt p
  initialized : s.initialized = initAt p
  schedulerReady : s.schedulerReady = readyAt p

theorem mainAt_armed (v : UInt64 × UInt64) : MainAt (armed v) 0 :=
  ⟨rfl, rfl, rfl, rfl, rfl⟩

/-- One step of kernel_main: it holds `heldAt (p + 1)` after it. -/
theorem MainAt.step {s : Sys} {p : ℕ} (h : MainAt s p) (a : UInt64 × UInt64) :
    ∃ s', s.step (.run a) = some s' ∧ MainAt s' (p + 1) ∧
      s'.kernel = s.kernel.run (mainStartsFrom p [a]) := by
  rcases lt_or_ge p mainSteps.length with hp | hp
  · have hpc : s.pc = p := by rw [h.pc, min_eq_left hp.le]
    -- the step's operations take the prefix from `heldAt p` to `heldAt (p + 1)`
    have hrun : runAtomic s.held mainSteps[p] = some (heldAt (p + 1)) := by
      have := runAtomic_opsBefore (p + 1)
      rw [opsBefore_succ hp, runAtomic_append, runAtomic_opsBefore, Option.bind_some] at this
      rwa [h.held]
    obtain ⟨f1, f2, f3, f4, f5, f6⟩ := foldl_apply a mainSteps[p] s
    refine ⟨{ mainSteps[p].foldl (Sys.apply a) s with held := heldAt (p + 1), pc := s.pc + 1 },
      by simp only [Sys.step, h.running, hpc, List.getElem?_eq_getElem hp, Sys.mainStep, hrun,
        Option.map_some], ⟨?_, ?_, rfl, ?_, ?_⟩, ?_⟩
    · exact f3.trans h.running
    · simp only [hpc]
      omega
    · rw [f4, h.initialized, initAt, initAt, opsBefore_succ hp]
      simp only [List.mem_append, Bool.decide_or]
    · rw [f5, h.schedulerReady, readyAt, readyAt, opsBefore_succ hp]
      simp only [List.mem_append, Bool.decide_or]
    · rw [f6, mainStartsFrom_of_lt hp, mainStartsFrom_nil, List.append_nil]
  · have hpc : s.pc = mainSteps.length := by rw [h.pc, min_eq_right hp]
    have hsat (q : ℕ) (hq : mainSteps.length ≤ q) : opsBefore q = opsBefore p := by
      rw [opsBefore_of_le hq, opsBefore_of_le hp]
    refine ⟨s, by simp [Sys.step, h.running, hpc], ⟨h.running, ?_, ?_, ?_, ?_⟩, ?_⟩
    · rw [hpc]
      omega
    · rw [h.held, heldAt, heldAt, hsat (p + 1) (by omega)]
    · rw [h.initialized, initAt, initAt, hsat (p + 1) (by omega)]
    · rw [h.schedulerReady, readyAt, readyAt, hsat (p + 1) (by omega)]
    · rw [mainStartsFrom_of_le hp, Kernel.run_nil]

/-- kernel_main's steps, with no interrupt among them. -/
theorem MainAt.run {s : Sys} {p : ℕ} (h : MainAt s p) (as : List (UInt64 × UInt64)) :
    ∃ s', s.run (as.map .run) = some s' ∧ MainAt s' (p + as.length) ∧
      s'.kernel = s.kernel.run (mainStartsFrom p as) := by
  induction as generalizing s p with
  | nil => exact ⟨s, rfl, by simpa using h, by simp⟩
  | cons a as ih =>
    obtain ⟨s₁, h₁, hm₁, hk₁⟩ := h.step a
    obtain ⟨s', h', hm', hk'⟩ := ih hm₁
    refine ⟨s', by rw [List.map_cons, Sys.run_cons, h₁, Option.bind_some, h'], ?_, ?_⟩
    · rwa [List.length_cons, ← Nat.add_assoc, Nat.add_right_comm]
    · rw [hk', hk₁, mainStartsFrom_cons p a as, Kernel.run_append]

theorem run_main (v : UInt64 × UInt64) (as : List (UInt64 × UInt64)) :
    ∃ s, (armed v).run (as.map .run) = some s ∧ MainAt s as.length ∧
      s.kernel = (Kernel.boot v).run (mainStarts as) := by
  obtain ⟨s, h, hm, hk⟩ := (mainAt_armed v).run as
  exact ⟨s, h, by simpa using hm, hk⟩

/-! ## The first timer interrupt -/

theorem mem_tickLocks {l : Lock} (h : l ∈ tickLocks) (initialized : Bool) :
    l ∈ contended initialized ∨ l = .IDLE_TASK ∨ l = .once .IDLE_TASK := by
  simp only [tickLocks, List.mem_cons, List.not_mem_nil, or_false] at h
  rcases h with rfl | rfl | rfl | rfl | rfl <;> simp [contended]

/-- The first timer interrupt and any run after it, when kernel_main holds no contended
lock: nothing spins, kernel_main's locks stay held, and the scheduler follows the interrupts. -/
theorem run_firstTick_of_free {s : Sys} {p : ℕ} (h : MainAt s p)
    (hfree : ∀ l ∈ heldAt p, l ∉ contended (initAt p)) (rsp : UInt64) (i : UInt64 × UInt64)
    (evs : List Event) :
    ∃ s', s.run (.tick rsp i :: evs) = some s' ∧ s'.running ≠ .main ∧ s'.held = heldAt p ∧
      s'.kernel = s.kernel.run (kernelEvents (.tick rsp i :: evs)) := by
  -- besides the contended locks the handler takes only the idle task's, which kernel_main
  -- never holds
  have htick : ∀ l ∈ s.held, l ∉ tickLocks ∧ l ∉ contended s.initialized := by
    intro l hl
    rw [h.held] at hl
    rw [h.initialized]
    refine ⟨fun ht => ?_, hfree l hl⟩
    rcases mem_tickLocks ht (initAt p) with hc | rfl | rfl
    · exact hfree l hl hc
    · exact (idle_not_mem_heldAt p).1 hl
    · exact (idle_not_mem_heldAt p).2 hl
  have hstep : s.step (.tick rsp i) = some (s.after (.tick rsp i)) := by
    rw [Sys.step_tick, Sys.map_after_of_free]
    intro l hl hheld
    exact (htick l hheld).1 (acquired_tickOps_subset _ _ hl)
  obtain ⟨s', hrun, hs', hheld, hk⟩ := Sys.run_of_free evs (s.after (.tick rsp i))
    (ofPtr_resumed_ne_main _ _ _) (by simpa using htick)
  refine ⟨s', by rw [Sys.run_cons, hstep, Option.bind_some, hrun], hs', ?_, ?_⟩
  · rw [hheld, Sys.after_held, h.held]
  · rw [hk, Sys.after_kernel]
    rfl

/-- For every interleaving in which kernel_main takes its first steps, with the allocator
giving the stacks `as` where it boxes them, and the scheduler's first timer interrupt comes
while kernel_main holds no contended lock: no context ever spins, kernel_main never runs
again, the locks it held stay held, and the scheduler's state is the one the scheduler model
`Kernel.run` gives for kernel_main's starts followed by the interrupts. -/
theorem firstTick_refines (v : UInt64 × UInt64) (as : List (UInt64 × UInt64))
    (hfree : ∀ l ∈ heldAt as.length, l ∉ contended (initAt as.length))
    (rsp : UInt64) (i : UInt64 × UInt64) (evs : List Event) :
    ∃ s, (armed v).run (as.map .run ++ .tick rsp i :: evs) = some s ∧ s.running ≠ .main ∧
      s.held = heldAt as.length ∧
      s.kernel = (Kernel.boot v).run (mainStarts as ++ kernelEvents (.tick rsp i :: evs)) := by
  obtain ⟨s₀, h₀, hm, hk⟩ := run_main v as
  obtain ⟨s, h, hs, hheld, hk'⟩ := run_firstTick_of_free hm hfree rsp i evs
  refine ⟨s, by rw [Sys.run_append, h₀, Option.bind_some, h], hs, hheld, ?_⟩
  rw [hk', hk, Kernel.run_append]

/-- The first interrupt after `println!("Startup succeeded!")`, with both processes started. -/
theorem firstTick_refines_after_println :
    (∀ l ∈ heldAt 30, l ∉ contended (initAt 30)) ∧
      ∃ s, (armed (0x8000, 0x9000)).run
          ((List.replicate 30 (0x1000, 0x2000)).map .run ++ [.tick 0x50000 (0x6000, 0x7000)]) =
          some s ∧ s.running ≠ .main ∧ s.held = heldAt 30 ∧
        s.kernel = (Kernel.boot (0x8000, 0x9000)).run
          (mainStarts (List.replicate 30 (0x1000, 0x2000)) ++
            kernelEvents [.tick 0x50000 (0x6000, 0x7000)]) :=
  ⟨by decide, firstTick_refines _ _ (by decide) _ _ []⟩

/-- Two starts from `scheduler::init`: nothing runs, and the queue holds processes 1 and 2. -/
theorem run_two_starts (v : UInt64 × UInt64) (a b c d : UInt64) :
    ((Kernel.boot v).run [.start a b, .start c d]).task = none ∧
      ((Kernel.boot v).run [.start a b, .start c d]).init = false ∧
      ((Kernel.boot v).run [.start a b, .start c d]).queueIds = [1, 2] :=
  ⟨rfl, rfl, rfl⟩

/-- A timer interrupt with `SCHEDULER` initialised and processes waiting, unless nothing runs
after the first interrupt: it takes only `SCHEDULER` and its `Once`. -/
theorem acquired_tickOps_of_queue {k : Kernel} (hq : k.scheduler.tasks ≠ [])
    (hidle : (k.task.isNone && k.init) = false) :
    ∀ l ∈ acquired (tickOps k true), l = .SCHEDULER ∨ l = .once .SCHEDULER := by
  intro l hl
  have hq' : k.scheduler.tasks.isEmpty = false := List.isEmpty_eq_false_iff.mpr hq
  simp only [tickOps, hidle, hq', Bool.false_eq_true, if_false, List.nil_append,
    List.append_nil, acquired_append, List.mem_append] at hl
  have hs : ∀ l ∈ acquired (schedulerOps true), l = .SCHEDULER ∨ l = .once .SCHEDULER := by
    simp [schedulerOps]
  rcases hl with hl | hl
  · exact hs l hl
  · split at hl
    · exact hs l hl
    · simp at hl

/-- Such a timer interrupt completes unless `SCHEDULER` or its `Once` is held. -/
theorem step_tick_of_queue {s : Sys} (hq : s.kernel.scheduler.tasks ≠ [])
    (hidle : (s.kernel.task.isNone && s.kernel.init) = false) (hready : s.schedulerReady = true)
    (hS : Lock.SCHEDULER ∉ s.held) (hS' : Lock.once .SCHEDULER ∉ s.held) (rsp : UInt64)
    (i : UInt64 × UInt64) : s.step (.tick rsp i) = some (s.after (.tick rsp i)) := by
  rw [Sys.step_tick, Sys.map_after_of_free]
  intro l hl hheld
  rw [Sys.ops, hready] at hl
  rcases acquired_tickOps_of_queue hq hidle l hl with rfl | rfl
  exacts [hS hheld, hS' hheld]

/-- When kernel_main holds a contended lock at the first timer interrupt, some run spins: the
interrupt itself when kernel_main holds `SCHEDULER` or its `Once`, else the first write of
`test_fn`, two interrupts later. -/
theorem hang_of_contended {v : UInt64 × UInt64} {as : List (UInt64 × UInt64)} {s : Sys}
    (hm : MainAt s as.length) (hk : s.kernel = (Kernel.boot v).run (mainStarts as))
    {l : Lock} (hl : l ∈ heldAt as.length) (hc : l ∈ contended (initAt as.length)) :
    ∃ rsp i evs, s.run (.tick rsp i :: evs) = none := by
  -- the interrupt itself spins when kernel_main holds `SCHEDULER` or its `Once`
  have htick (l' : Lock) (hl' : l' ∈ acquired (tickOps s.kernel s.schedulerReady))
      (hh : l' ∈ heldAt as.length) : ∃ rsp i evs, s.run (.tick rsp i :: evs) = none :=
    ⟨0, (0, 0), [], by
      rw [Sys.run_cons, Sys.step_tick, Sys.map_after_of_held s _ hl' (hm.held ▸ hh)]
      rfl⟩
  obtain ⟨hS1, hS2⟩ := scheduler_mem_acquired_tickOps s.kernel s.schedulerReady
  by_cases hS : Lock.SCHEDULER ∈ heldAt as.length
  · exact htick _ hS1 hS
  by_cases hS' : Lock.once .SCHEDULER ∈ heldAt as.length
  · exact htick _ hS2 hS'
  obtain ⟨hready, hstarts⟩ := started_of_contended hl hc hS hS'
  -- kernel_main has started both processes: nothing runs, and 1 and 2 wait
  obtain ⟨e₁, e₂, hst⟩ := List.length_eq_two.mp ((length_mainStarts as).trans hstarts)
  have he₁ : e₁ ∈ mainStarts as := by simp [hst]
  have he₂ : e₂ ∈ mainStarts as := by simp [hst]
  obtain ⟨a, b, rfl⟩ := start_of_mem_mainStarts he₁
  obtain ⟨c, d, rfl⟩ := start_of_mem_mainStarts he₂
  rw [hst] at hk
  obtain ⟨ht, hi, hq⟩ := run_two_starts v a b c d
  rw [← hk] at ht hi hq
  have hfS : Lock.SCHEDULER ∉ s.held := by rwa [hm.held]
  have hfS' : Lock.once .SCHEDULER ∉ s.held := by rwa [hm.held]
  -- the first interrupt resumes process 2
  set s₁ := s.after (.tick 0 (0, 0)) with hs₁
  have hstep₁ : s.step (.tick 0 (0, 0)) = some s₁ :=
    step_tick_of_queue (fun h => by simp [Kernel.queueIds, h] at hq) (by simp [ht, hi])
      (hm.schedulerReady.trans hready) hfS hfS' 0 (0, 0)
  have hk₁ : s₁.kernel = (s.kernel.timerTick 0 (0, 0)).2 := rfl
  have hids₁ : (s₁.kernel.runningId, s₁.kernel.queueIds) = (some 2, [1]) := by
    rw [hk₁, Kernel.timerTick_ids, show s.kernel.runningId = none by simp [Kernel.runningId, ht],
      hq]
    rfl
  simp only [Prod.mk.injEq] at hids₁
  -- the second resumes process 1, `test_fn`
  set s₂ := s₁.after (.tick 0 (0, 0)) with hs₂
  have hstep₂ : s₁.step (.tick 0 (0, 0)) = some s₂ := by
    have hrunning : s₁.kernel.task.isSome := by
      simpa [Kernel.runningId] using congrArg Option.isSome hids₁.1
    refine step_tick_of_queue (fun h => by simp [Kernel.queueIds, h] at hids₁) ?_ rfl
      (by rwa [hs₁, Sys.after_held]) (by rwa [hs₁, Sys.after_held]) 0 (0, 0)
    simp [Option.isNone_iff_eq_none, Option.isSome_iff_ne_none.mp hrunning]
  have hrun₂ : s₂.running = .task testFnId := by
    have : s₂.running = Ctx.ofPtr (s₁.kernel.timerTick 0 (0, 0)).1.resumed := rfl
    rw [this, Kernel.timerTick_resumed, Kernel.resumedPtr_getLast, hids₁.2]
    rfl
  have hini₂ : s₂.initialized = initAt as.length := by
    rw [hs₂, Sys.after_initialized, hs₁, Sys.after_initialized, hm.initialized]
  -- its write takes the contended lock
  have hwrite : s₂.step (.run (0, 0)) = none := by
    rw [Sys.step_of_ne_main (by simp [hrun₂])]
    refine Sys.map_after_of_held s₂ _ (l := l) ?_ (by rw [hs₂, hs₁]; exact hm.held ▸ hl)
    simp only [Sys.ops, hrun₂, if_true, hini₂]
    exact mem_acquired_writeOps_of_contended hc (fun h => hS (h ▸ hl)) (fun h => hS' (h ▸ hl))
  exact ⟨0, (0, 0), [.tick 0 (0, 0), .run (0, 0)], by
    rw [Sys.run_cons, hstep₁, Option.bind_some, Sys.run_cons, hstep₂, Option.bind_some,
      Sys.run_cons, hwrite, Option.bind_none]⟩

/-- For every interleaving in which kernel_main takes its first steps, with the stacks `as`,
before the scheduler's first timer interrupt: some continuation makes a context spin for
ever exactly when kernel_main holds a contended lock at that interrupt. -/
theorem firstTick_hangs_iff (v : UInt64 × UInt64) (as : List (UInt64 × UInt64)) :
    (∃ rsp i evs, (armed v).run (as.map .run ++ .tick rsp i :: evs) = none) ↔
      ∃ l ∈ heldAt as.length, l ∈ contended (initAt as.length) := by
  obtain ⟨s₀, h₀, hm, hk⟩ := run_main v as
  simp only [Sys.run_append, h₀, Option.bind_some]
  constructor
  · rintro ⟨rsp, i, evs, hnone⟩
    by_contra hfree
    simp only [not_exists, not_and] at hfree
    obtain ⟨s, h, -⟩ := run_firstTick_of_free hm hfree rsp i evs
    rw [h] at hnone
    cases hnone
  · rintro ⟨l, hl, hc⟩
    exact hang_of_contended hm hk hl hc

end LeafOS.KernelMain
