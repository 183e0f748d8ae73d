import LeafOS.Scheduler.Conservation

/-!
# Which states the timer interrupts resume

On ids, a timer interrupt is `RoundRobin.rotate` (`timerTick_ids`), so a run of timer
interrupts resumes what `RoundRobin.emitted` takes out (`switches_ticks`).

1. With a process running and at least one waiting, or with none running, as many interrupts
   as there are processes resume each of them once (`window_resumes_each_process`).
2. Once two processes are started, no interrupt resumes the idle task
   (`idle_never_resumed_after_two_starts`).
3. With exactly one process, it is running after its first interrupt and the queue is empty;
   the next interrupt puts it back in the queue and resumes the idle task, so the process and
   the idle task alternate (`single_process_alternates_with_idle`).
-/

namespace LeafOS.Kernel

/-- The state resumed for the id `pick_next` found, if any. -/
def ptrOfId : Option UInt64 → StatePtr
  | none => .idle
  | some id => .task id

/-- The timer interrupts of a list of (stack pointer, idle stacks) pairs. -/
def ticks (ts : List (UInt64 × (UInt64 × UInt64))) : List Event :=
  ts.map fun t => .tick t.1 t.2

theorem resumedPtr_getLast (k : Kernel) :
    resumedPtr k.scheduler.tasks.getLast? = ptrOfId k.queueIds.getLast? := by
  rw [queueIds, List.getLast?_map]
  cases k.scheduler.tasks.getLast? <;> rfl

/-- A run of timer interrupts resumes, on ids, what the rotations take out. -/
theorem switches_ticks :
    ∀ (ts : List (UInt64 × (UInt64 × UInt64))) (k : Kernel),
      (k.switches (ticks ts)).map Switch.resumed =
        (RoundRobin.emitted ts.length k.runningId k.queueIds).map ptrOfId := by
  intro ts
  induction ts with
  | nil => intro k; rfl
  | cons t ts ih =>
    intro k
    obtain ⟨hr, hq⟩ := Prod.ext_iff.mp (timerTick_ids k t.1 t.2)
    dsimp only at hr hq
    simp only [ticks, List.map_cons, switches_cons, step_tick, Option.toList_some,
      List.singleton_append, List.map_cons, List.length_cons, RoundRobin.emitted_succ]
    rw [← ticks, ih, timerTick_resumed, resumedPtr_getLast, hr, hq]

/-- With a process running and one waiting, or none running, the next `n` timer interrupts
resume the `n` started processes, each once. -/
theorem window_of_conserved {k : Kernel} (hk : k.Conserved)
    (hn : 2 ≤ k.scheduler.taskId.toNat ∨ (k.task = none ∧ 1 ≤ k.scheduler.taskId.toNat))
    (ts : List (UInt64 × (UInt64 × UInt64))) (hts : ts.length = k.scheduler.taskId.toNat) :
    ∃ ids : List UInt64, (k.switches (ticks ts)).map Switch.resumed = ids.map .task ∧
      (ids.map UInt64.toNat).Perm (List.range' 1 k.scheduler.taskId.toNat) := by
  have hlen : (k.queueIds ++ k.runningId.toList).length = k.scheduler.taskId.toNat := by
    simpa [scheduledIds] using hk.length_eq
  rw [switches_ticks]
  cases hrun : k.runningId with
  | some t =>
    rw [hrun, Option.toList_some, List.length_append, List.length_singleton] at hlen
    have hq : k.queueIds ≠ [] := by
      intro hq
      have hsome : k.task ≠ none := fun h => by simp [runningId, h] at hrun
      rw [hq, List.length_nil] at hlen
      rcases hn with hn | ⟨hnone, -⟩
      · omega
      · exact hsome hnone
    refine ⟨RoundRobin.order (some t) k.queueIds, ?_, ?_⟩
    · rw [hts, ← hlen, RoundRobin.emitted_window_held t _ hq, List.map_map]
      rfl
    · refine List.Perm.trans ?_ hk
      rw [scheduledIds, hrun, Option.toList_some]
      exact ((List.reverse_perm _).append_right [t]).map _
  | none =>
    rw [hrun, Option.toList_none, List.append_nil] at hlen
    refine ⟨k.queueIds.reverse, ?_, ?_⟩
    · rw [hts, ← hlen, RoundRobin.emitted_window_empty, List.map_map]
      rfl
    · refine List.Perm.trans ?_ hk
      rw [scheduledIds, hrun, Option.toList_none, List.append_nil]
      exact (List.reverse_perm _).map _

/-- Once two processes are started, a timer interrupt resumes a task: the queue is never empty,
since the running task holds at most one of the ids. -/
theorem tick_resumes_task_of_conserved {k : Kernel} (hk : k.Conserved)
    (h2 : 2 ≤ k.scheduler.taskId.toNat) (rsp : UInt64) (i : UInt64 × UInt64) :
    ∃ id, (k.timerTick rsp i).1.resumed = .task id := by
  have hlen : k.queueIds.length + k.runningId.toList.length = k.scheduler.taskId.toNat := by
    simpa [scheduledIds] using hk.length_eq
  have hrun : k.runningId.toList.length ≤ 1 := by
    cases k.runningId <;> simp
  obtain ⟨id, hid⟩ : ∃ id, k.queueIds.getLast? = some id := by
    cases hq : k.queueIds.getLast? with
    | none =>
      rw [List.getLast?_eq_none_iff] at hq
      rw [hq, List.length_nil] at hlen
      omega
    | some id => exact ⟨id, rfl⟩
  exact ⟨id, by rw [timerTick_resumed, resumedPtr_getLast, hid]; rfl⟩

/-- From a conserved state with two processes started, no switch of any later run resumes the
idle task, as long as `task_id` does not wrap. -/
theorem switches_not_idle :
    ∀ (es : List Event) (k : Kernel), k.Conserved → 2 ≤ k.scheduler.taskId.toNat →
      k.scheduler.taskId.toNat + starts es < 2 ^ 64 →
      ∀ sw ∈ k.switches es, sw.resumed ≠ .idle := by
  intro es
  induction es with
  | nil => intro k _ _ _ sw hsw; simp at hsw
  | cons e es ih =>
    intro k hk h2 hlt sw hsw
    cases e with
    | start a b =>
      rw [starts_start] at hlt
      have hid : (k.step (.start a b)).2.scheduler.taskId.toNat =
          k.scheduler.taskId.toNat + 1 := by
        simp only [step_start, RoundRobinScheduler.startProcess_taskId]
        rw [UInt64.toNat_add, UInt64.toNat_one, Nat.mod_eq_of_lt (by omega)]
      have hsw' : sw ∈ (k.step (.start a b)).2.switches es := hsw
      exact ih _ (conserved_start hk a b (by omega)) (by omega) (by omega) sw hsw'
    | tick rsp i =>
      rw [starts_tick] at hlt
      rw [switches_cons, step_tick, Option.toList_some, List.singleton_append,
        List.mem_cons] at hsw
      rcases hsw with rfl | hsw
      · obtain ⟨id, hid⟩ := tick_resumes_task_of_conserved hk h2 rsp i
        rw [hid]
        exact StatePtr.noConfusion
      · exact ih _ (conserved_timerTick hk rsp i) (by rw [timerTick_taskId]; exact h2)
          (by rw [timerTick_taskId]; exact hlt) sw hsw

/-- From `scheduler::init`, once two processes are started, no later timer interrupt resumes the
idle task. -/
theorem idle_never_resumed_after_two_starts (v : UInt64 × UInt64) (es es' : List Event)
    (h2 : 2 ≤ starts es) (hes : starts (es ++ es') < 2 ^ 64 - 1) :
    ∀ sw ∈ ((boot v).run es).switches es', sw.resumed ≠ .idle := by
  have hsplit : starts (es ++ es') = starts es + starts es' := by
    simp [starts, List.filter_append]
  obtain ⟨hc, hid⟩ := conserved_of_boot v es (by omega)
  exact switches_not_idle es' _ hc (by omega) (by omega)

theorem idle_never_resumed_after_two_starts_example :
    2 ≤ starts [.start 0x1000 0x2000, .start 0x3000 0x4000] ∧
      starts ([.start 0x1000 0x2000, .start 0x3000 0x4000] ++
        [.tick 0x5000 (0x6000, 0x7000), .tick 0x5100 (0x6000, 0x7000)]) < 2 ^ 64 - 1 ∧
      ∀ sw ∈ ((boot (0x8000, 0x9000)).run [.start 0x1000 0x2000, .start 0x3000 0x4000]).switches
        [.tick 0x5000 (0x6000, 0x7000), .tick 0x5100 (0x6000, 0x7000)], sw.resumed ≠ .idle :=
  ⟨by decide, by decide, idle_never_resumed_after_two_starts _ _ _ (by decide) (by decide)⟩

/-- From `scheduler::init`, in a reachable state with `n` processes started where `n ≥ 2`, or
`n ≥ 1` with no task running, the next `n` timer interrupts resume the `n` started processes,
each once, and never the idle task. -/
theorem window_resumes_each_process (v : UInt64 × UInt64) (es : List Event)
    (hes : starts es < 2 ^ 64 - 1)
    (hn : 2 ≤ starts es ∨ (((boot v).run es).task = none ∧ 1 ≤ starts es))
    (ts : List (UInt64 × (UInt64 × UInt64))) (hts : ts.length = starts es) :
    ∃ ids : List UInt64,
      (((boot v).run es).switches (ticks ts)).map Switch.resumed = ids.map .task ∧
        (ids.map UInt64.toNat).Perm (List.range' 1 (starts es)) := by
  obtain ⟨hc, hid⟩ := conserved_of_boot v es (by omega)
  rw [← hid] at hn hts ⊢
  exact window_of_conserved hc hn ts hts

theorem window_resumes_each_process_two_starts :
    starts [.start 0x1000 0x2000, .start 0x3000 0x4000] < 2 ^ 64 - 1 ∧
      (2 ≤ starts [.start 0x1000 0x2000, .start 0x3000 0x4000] ∨
        (((boot (0x8000, 0x9000)).run [.start 0x1000 0x2000, .start 0x3000 0x4000]).task = none ∧
          1 ≤ starts [.start 0x1000 0x2000, .start 0x3000 0x4000])) ∧
      [(0x5000, (0x6000, 0x7000)), (0x5100, (0x6000, 0x7000))].length =
        starts [.start 0x1000 0x2000, .start 0x3000 0x4000] ∧
      ∃ ids : List UInt64,
        (((boot (0x8000, 0x9000)).run [.start 0x1000 0x2000, .start 0x3000 0x4000]).switches
          (ticks [(0x5000, (0x6000, 0x7000)), (0x5100, (0x6000, 0x7000))])).map Switch.resumed =
            ids.map .task ∧
          (ids.map UInt64.toNat).Perm
            (List.range' 1 (starts [.start 0x1000 0x2000, .start 0x3000 0x4000])) :=
  ⟨by decide, by decide, by decide,
    window_resumes_each_process _ _ (by decide) (by decide) _ (by decide)⟩

/-- With a single process started, the timer interrupts resume it and the idle task in turn:
after the first interrupt it runs with the queue empty, and the next one puts it back in the
queue and resumes the idle task. -/
theorem single_process_alternates_with_idle (v : UInt64 × UInt64) (a b : UInt64)
    (ts : List (UInt64 × (UInt64 × UInt64))) (m : ℕ) (hts : ts.length = 2 * m) :
    (((boot v).run [.start a b]).switches (ticks ts)).map Switch.resumed =
      (List.replicate m [.task 1, .idle]).flatten := by
  have hr : ((boot v).run [.start a b]).runningId = none := rfl
  have hq : ((boot v).run [.start a b]).queueIds = [1] := rfl
  rw [switches_ticks, hr, hq, hts, RoundRobin.emitted_single, List.map_flatten,
    List.map_replicate]
  rfl

theorem single_process_alternates_with_idle_two_ticks :
    [(0x3000, (0x4000, 0x5000)), (0x3100, (0x4000, 0x5000))].length = 2 * 1 ∧
      (((boot (0x8000, 0x9000)).run [.start 0x1000 0x2000]).switches
        (ticks [(0x3000, (0x4000, 0x5000)), (0x3100, (0x4000, 0x5000))])).map Switch.resumed =
          [.task 1, .idle] :=
  ⟨rfl, single_process_alternates_with_idle _ _ _ _ 1 rfl⟩

end LeafOS.Kernel
