import LeafOS.Scheduler.Conservation
import LeafOS.Interrupts.TimerFrame

/-!
# No saved context is lost

`apic_timer_handler` pushes the interrupted registers, stores the stack pointer into the
`ProcessState` box `current_task_ptr` returns, and loads the stack pointer of the box
`select_next_task` returns. Between two interrupts a box moves between `TASK` and the queue,
but it keeps what was stored into it: the scheduler moves the boxes, never their contents.

1. `record`: the box a pointer of the switch code points to, wherever the scheduler keeps it.
2. `timerTick_record_of_ne`, `timerTick_record_saved`: a timer interrupt keeps every box but
   the one it stores into, which then holds the stack pointer; `record_step` for any event.
3. `timerTick_rsp_record`: the stack pointer a switch loads is the resumed box's.
4. `record_run`: along a run, a box no switch stores into is kept.
5. `resume_restores_context`: a context resumed after any run of starts and interrupts that do
   not store into it loads the stack pointer it was saved with; where the words the save path
   wrote are still there, it gets back its registers and its interrupt frame.
-/

namespace LeafOS.Kernel

/-- The `ProcessState` box a pointer of the switch code points to, wherever the scheduler keeps
it: `VOID_TASK`, the idle task's, or that of the task with the id, running or waiting. -/
def record (k : Kernel) : StatePtr → Option ProcessState
  | .void => some k.voidTask
  | .idle => k.idleTask.map (·.2)
  | .task id => ((k.task.toList ++ k.scheduler.tasks).find? fun t => t.1.id = id).map (·.2)

theorem map_id_scheduled (k : Kernel) :
    (k.task.toList ++ k.scheduler.tasks).map (·.1.id) = k.runningId.toList ++ k.queueIds := by
  rcases k with ⟨sched, task, init, idle, void⟩
  cases task <;> simp [runningId, queueIds]

/-- In a conserved state the running task and the queue have pairwise different ids. -/
theorem Conserved.ids_nodup {k : Kernel} (hk : k.Conserved) :
    ((k.task.toList ++ k.scheduler.tasks).map (·.1.id)).Nodup := by
  have hs : k.scheduledIds.Nodup := hk.nodup_iff.mpr List.nodup_range'
  rw [map_id_scheduled]
  exact ((scheduledIds_perm k).nodup_iff.mp hs).of_map _

/-! ## The functions of the switch -/

section Functions

variable {k : Kernel} (i : UInt64 × UInt64) {p : StatePtr} {s : ProcessState}

/-- `get_idle_task` creates the idle task's box only where there was none. -/
theorem record_getIdleTask (h : k.record p = some s) : (k.getIdleTask i).2.record p = some s := by
  rcases hidle : k.idleTask with _ | t
  · cases p <;> simp_all [getIdleTask, record]
  · simpa [getIdleTask, hidle] using h

theorem record_currentTaskPtr (h : k.record p = some s) :
    (k.currentTaskPtr i).2.record p = some s := by
  unfold currentTaskPtr
  split
  · exact h
  · split
    · -- setting `INIT` touches no box
      cases p <;> exact h
    · exact record_getIdleTask i h

/-- Storing into one box keeps every other. -/
theorem record_saveRsp_of_ne {q : StatePtr} (hqp : q ≠ p) (rsp : UInt64)
    (h : k.record p = some s) : (k.saveRsp q rsp).record p = some s := by
  cases q with
  | void => cases p <;> simp_all [saveRsp, record]
  | idle => cases p <;> simp_all [saveRsp, record]
  | task id =>
    cases p with
    | void | idle => simpa [saveRsp, record] using h
    | task id' =>
      have hne : id ≠ id' := fun h' => hqp (h' ▸ rfl)
      rcases ht : k.task with _ | t
      · simpa [saveRsp, record, ht] using h
      · by_cases hid : t.1.id = id
        · -- the running task's box is stored into, and it is not the one with id `id'`
          have hid' : t.1.id ≠ id' := hid ▸ hne
          simpa [saveRsp, record, ht, hid, hid', hne, setRsp] using h
        · simpa [saveRsp, record, ht, hid] using h

/-- After `current_task_ptr` and the store, the box `current` points to holds the stack
pointer. -/
theorem record_saveRsp_current (k : Kernel) (rsp : UInt64) :
    (((k.currentTaskPtr i).2.saveRsp k.current rsp).record k.current).map (·.kernelRsp) =
      some rsp := by
  rcases ht : k.task with _ | t
  · cases hinit : k.init
    · simp [current, currentTaskPtr, saveRsp, record, ht, hinit]
    · cases hidle : k.idleTask <;>
        simp [current, currentTaskPtr, getIdleTask, saveRsp, record, setRsp, ht, hinit, hidle]
  · simp [current, currentTaskPtr, saveRsp, record, setRsp, ht]

theorem selectNextTask_idleTask {t : Task} (ht : k.idleTask = some t) :
    (k.selectNextTask i).2.idleTask = some t := by
  unfold selectNextTask
  split <;> cases k.task <;> simp [replaceCurrTask, getIdleTask, ht]

/-- `select_next_task` rotates the running task and the queue and may create the idle task's
box; with pairwise different ids, every box is found as before. -/
theorem record_selectNextTask (hnd : ((k.task.toList ++ k.scheduler.tasks).map (·.1.id)).Nodup)
    (h : k.record p = some s) : (k.selectNextTask i).2.record p = some s := by
  obtain ⟨idle, hsel⟩ := selectNextTask_eq k i
  cases p with
  | void => rw [hsel]; exact h
  | idle =>
    obtain ⟨t, ht, rfl⟩ := Option.map_eq_some_iff.mp h
    simp [record, selectNextTask_idleTask i ht]
  | task id =>
    rw [hsel]
    simp only [record] at h ⊢
    rw [RoundRobin.find?_rotate (·.1.id) k.task k.scheduler.tasks hnd id]
    exact h

/-- The state a switch resumes is the running task's box, or the idle task's. -/
theorem stateAt_selectNextTask (k : Kernel) :
    (k.selectNextTask i).2.stateAt (k.selectNextTask i).1 =
      (k.selectNextTask i).2.record (k.selectNextTask i).1 := by
  obtain ⟨idle, hsel⟩ := selectNextTask_eq k i
  rw [hsel]
  rcases List.eq_nil_or_concat' k.scheduler.tasks with hq | ⟨q, x, hq⟩
  · simp [hq, resumedPtr, stateAt, record]
  · simp only [hq, resumedPtr, stateAt, record, RoundRobin.rotate_concat, Option.toList_some,
      List.singleton_append, List.getLast?_concat, Option.filter_some, decide_true, if_true,
      List.find?_cons_of_pos, List.find?_cons_of_pos (p := fun t => decide (t.1.id = x.1.id))
        (decide_eq_true rfl)]

end Functions

/-! ## One timer interrupt -/

section TimerTick

variable {k : Kernel} (rsp : UInt64) (i : UInt64 × UInt64)

/-- The state after a timer interrupt: `current_task_ptr`, the store into `current`, and
`select_next_task`. -/
theorem timerTick_snd (k : Kernel) :
    (k.timerTick rsp i).2 =
      (((k.currentTaskPtr i).2.saveRsp k.current rsp).selectNextTask i).2 := by
  obtain ⟨idle, h⟩ := currentTaskPtr_eq k i
  simp only [timerTick, h]

theorem ids_nodup_saveRsp (hk : k.Conserved) :
    ((((k.currentTaskPtr i).2.saveRsp k.current rsp).task.toList ++
      ((k.currentTaskPtr i).2.saveRsp k.current rsp).scheduler.tasks).map (·.1.id)).Nodup := by
  obtain ⟨idle, h⟩ := currentTaskPtr_eq k i
  have hr : ((k.currentTaskPtr i).2.saveRsp k.current rsp).runningId = k.runningId := by
    rw [saveRsp_runningId, h]
    rfl
  have hq : ((k.currentTaskPtr i).2.saveRsp k.current rsp).queueIds = k.queueIds := by
    simp only [queueIds, saveRsp_scheduler, h]
  rw [map_id_scheduled, hr, hq, ← map_id_scheduled]
  exact hk.ids_nodup

/-- A timer interrupt keeps every box it does not store into. -/
theorem timerTick_record_of_ne (hk : k.Conserved) {p : StatePtr} {s : ProcessState}
    (hp : p ≠ k.current) (h : k.record p = some s) : (k.timerTick rsp i).2.record p = some s := by
  have h₁ := record_currentTaskPtr i h
  have h₂ := record_saveRsp_of_ne (Ne.symm hp) rsp h₁
  rw [timerTick_snd]
  exact record_selectNextTask i (ids_nodup_saveRsp rsp i hk) h₂

/-- The box a timer interrupt stores into holds the stack pointer afterwards. -/
theorem timerTick_record_saved (hk : k.Conserved) :
    ((k.timerTick rsp i).2.record k.current).map (·.kernelRsp) = some rsp := by
  obtain ⟨s, hs, hrsp⟩ := Option.map_eq_some_iff.mp (record_saveRsp_current i k rsp)
  rw [timerTick_snd, record_selectNextTask i (ids_nodup_saveRsp rsp i hk) hs]
  simp [hrsp]

/-- The stack pointer a switch loads is the one in the box it resumes. -/
theorem timerTick_rsp_record (k : Kernel) :
    (k.timerTick rsp i).1.rsp =
      ((k.timerTick rsp i).2.record (k.timerTick rsp i).1.resumed).map (·.kernelRsp) := by
  simp only [timerTick]
  rw [stateAt_selectNextTask]

end TimerTick

/-! ## Along a run -/

/-- An event keeps every box that no switch of it stores into. -/
theorem record_step {k : Kernel} (hk : k.Conserved) (e : Event) {p : StatePtr}
    {s : ProcessState} (h : k.record p = some s) (hsaved : ∀ sw ∈ (k.step e).1, sw.saved ≠ p) :
    (k.step e).2.record p = some s := by
  cases e with
  | start a b =>
    -- the new task goes to the back of the queue, behind every box found before
    cases p with
    | void | idle => exact h
    | task id =>
      obtain ⟨t, ht, rfl⟩ := Option.map_eq_some_iff.mp h
      simp [record, RoundRobinScheduler.startProcess_tasks, ← List.append_assoc,
        List.find?_append, ht]
  | tick rsp i =>
    have hp : p ≠ k.current := fun hpc =>
      hsaved (k.timerTick rsp i).1 rfl (by rw [timerTick_saved, hpc])
    exact timerTick_record_of_ne rsp i hk hp h

/-- Along a run from a conserved state whose starts do not wrap `task_id`, a box that no switch
stores into is kept. -/
theorem record_run {p : StatePtr} {s : ProcessState} :
    ∀ (es : List Event) (k : Kernel), k.Conserved →
      k.scheduler.taskId.toNat + starts es < 2 ^ 64 → k.record p = some s →
      (∀ sw ∈ k.switches es, sw.saved ≠ p) → (k.run es).record p = some s := by
  intro es
  induction es with
  | nil => intro k _ _ h _; exact h
  | cons e es ih =>
    intro k hk hlt h hsw
    rw [switches_cons] at hsw
    have h₁ := record_step hk e h fun sw hsw' =>
      hsw sw (List.mem_append_left _ (Option.mem_toList.mpr hsw'))
    -- the invariant and the bound on `task_id` after the first event
    have hstarts : starts (e :: es) = starts [e] + starts es := by
      cases e <;> simp [Nat.add_comm]
    obtain ⟨hc, hid⟩ := conserved_run [e] k hk (by omega)
    rw [run_cons, run_nil] at hc hid
    rw [run_cons]
    exact ih _ hc (by omega) h₁ fun sw hsw' => hsw sw (List.mem_append_right _ hsw')

/-! ## The context a switch resumes -/

/-- The twenty words the restore path reads from `rsp`. -/
def frameWords (rsp : UInt64) : List UInt64 :=
  [rsp, rsp + 8, rsp + 16, rsp + 24, rsp + 32, rsp + 40, rsp + 48, rsp + 56, rsp + 64, rsp + 72,
    rsp + 80, rsp + 88, rsp + 96, rsp + 104, rsp + 112, rsp + 120, rsp + 128, rsp + 136,
    rsp + 144, rsp + 152]

/-- The restore path reads the twenty words from `rsp` and nothing else. -/
theorem restore_congr {m m' : Memory} {rsp : UInt64} (h : ∀ a ∈ frameWords rsp, m' a = m a) :
    restore m' rsp = restore m rsp := by
  simp only [frameWords, List.mem_cons, List.not_mem_nil, or_false, forall_eq_or_imp,
    forall_eq] at h
  rw [restore_eq, restore_eq]
  simp only [h]

/-- For every conserved state `k` and every timer interrupt from it: the interrupt left the
registers `r` and its frame at `top`, the save path pushed them down to `rsp`, and the switch
stored `rsp` into the current context. After any run of starts and interrupts none of which
stores into that context, and without wrapping `task_id`, a timer interrupt that resumes the
context without storing into it first loads `rsp`. If the words from `rsp` up are still the
ones the save path and the interrupt left, the restore path gives back `r` and `iretq` the
interrupt's frame: no saved context is lost or mixed up with another. -/
theorem resume_restores_context {k : Kernel} (hk : k.Conserved) {m m₀ m' : Memory}
    {top rsp rsp' : UInt64} {r : Regs} (hsave : save m top r = (m₀, rsp))
    {i i' : UInt64 × UInt64} {mid : List Event}
    (hlt : k.scheduler.taskId.toNat + starts mid < 2 ^ 64)
    (hmid : ∀ sw ∈ (k.timerTick rsp i).2.switches mid, sw.saved ≠ k.current)
    (hsaved : (((k.timerTick rsp i).2.run mid).timerTick rsp' i').1.saved ≠ k.current)
    (hres : (((k.timerTick rsp i).2.run mid).timerTick rsp' i').1.resumed = k.current)
    (hm' : ∀ a ∈ frameWords rsp, m' a = m₀ a) :
    (((k.timerTick rsp i).2.run mid).timerTick rsp' i').1.rsp = some rsp ∧
      restore m' rsp = (r, ⟨m top, m (top + 8), m (top + 16), m (top + 24), m (top + 32)⟩) := by
  set k₂ := (k.timerTick rsp i).2.run mid
  -- the box of the saved context holds `rsp` after the first switch and along the run
  obtain ⟨s, hs, hrsp⟩ := Option.map_eq_some_iff.mp (timerTick_record_saved rsp i hk)
  have hc₁ := conserved_timerTick hk rsp i
  have hs₂ : k₂.record k.current = some s :=
    record_run mid _ hc₁ (by rw [timerTick_taskId]; exact hlt) hs hmid
  have hc₂ : k₂.Conserved :=
    (conserved_run mid _ hc₁ (by rw [timerTick_taskId]; exact hlt)).1
  -- the resuming switch does not store into it, so it loads `rsp`
  have hne : k.current ≠ k₂.current := by
    rw [← timerTick_saved k₂ rsp' i']
    exact Ne.symm hsaved
  have hs₃ := timerTick_record_of_ne rsp' i' hc₂ hne hs₂
  refine ⟨?_, ?_⟩
  · rw [timerTick_rsp_record, hres, hs₃, Option.map_some, hrsp]
  · have hrestore := restore_save m top r
    rw [hsave] at hrestore
    exact (restore_congr hm').trans hrestore

/-- Two processes started and one interrupt taken, so process 2 runs: it is interrupted with the
registers `1` to `15`, and the next interrupt, storing into process 1, resumes it. -/
theorem resume_restores_context_two_tasks :
    let k := (boot (0x8000, 0x9000)).run
      [.start 0x1000 0x2000, .start 0x3000 0x4000, .tick 0x50000 (0x6000, 0x7000)]
    let r : Regs := ⟨1, 2, 3, 4, 5, 6, 7, 8, 9, 10, 11, 12, 13, 14, 15⟩
    let m : Memory := fun _ => 0
    let rsp := (save m 0x11000 r).2
    let k₂ := (k.timerTick rsp (0x6000, 0x7000)).2.run []
    k.Conserved ∧ k.scheduler.taskId.toNat + starts [] < 2 ^ 64 ∧
      (k₂.timerTick 0x60000 (0x6000, 0x7000)).1.saved ≠ k.current ∧
      (k₂.timerTick 0x60000 (0x6000, 0x7000)).1.resumed = k.current ∧
      ((k₂.timerTick 0x60000 (0x6000, 0x7000)).1.rsp = some rsp ∧
        restore (save m 0x11000 r).1 rsp =
          (r, ⟨m 0x11000, m (0x11000 + 8), m (0x11000 + 16), m (0x11000 + 24),
            m (0x11000 + 32)⟩)) := by
  intro k r m rsp k₂
  have hk : k.Conserved := (conserved_of_boot _ _ (by decide)).1
  have hsaved : (k₂.timerTick 0x60000 (0x6000, 0x7000)).1.saved ≠ k.current := by decide
  have hres : (k₂.timerTick 0x60000 (0x6000, 0x7000)).1.resumed = k.current := by decide
  exact ⟨hk, by decide, hsaved, hres,
    resume_restores_context hk rfl (by decide) (by simp) hsaved hres fun _ _ => rfl⟩

end LeafOS.Kernel
