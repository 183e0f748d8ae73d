import LeafOS.Scheduler.Basic

/-!
# No started process is lost or duplicated

`Conserved`: the ids of the queue and of the running task are `1, …, task_id`, each once.

1. `conserved_start`: `start_process` pushes the new id `task_id + 1`, as long as `task_id`
   does not wrap.
2. `conserved_timerTick`: a timer interrupt is a round-robin rotation on ids
   (`timerTick_ids`), which keeps them (`RoundRobin.rotate_perm`).
3. `conserved_run`: along a run from any conserved state whose starts do not wrap `task_id`.
-/

namespace LeafOS.Kernel

/-- The process ids of the queue and of the running task, as numbers. -/
def scheduledIds (k : Kernel) : List ℕ := (k.queueIds ++ k.runningId.toList).map UInt64.toNat

/-- Every process id `1, …, task_id` is in the queue or running, exactly once, and no other
id is. -/
def Conserved (k : Kernel) : Prop :=
  k.scheduledIds.Perm (List.range' 1 k.scheduler.taskId.toNat)

theorem conserved_boot (v : UInt64 × UInt64) : (boot v).Conserved := by
  simp [Conserved, scheduledIds, boot, queueIds, runningId, RoundRobinScheduler.new]

/-- No conserved state schedules process id 0, the idle task's. -/
theorem Conserved.ne_zero {k : Kernel} (hk : k.Conserved) :
    ∀ id ∈ k.queueIds ++ k.runningId.toList, id ≠ 0 := by
  intro id hid h0
  have hmem : id.toNat ∈ k.scheduledIds := List.mem_map_of_mem hid
  rw [hk.mem_iff, List.mem_range'] at hmem
  obtain ⟨j, -, hj⟩ := hmem
  rw [h0, UInt64.toNat_zero] at hj
  omega

/-- The ids of the running task and the queue, held first. -/
theorem scheduledIds_perm (k : Kernel) :
    k.scheduledIds.Perm ((k.runningId.toList ++ k.queueIds).map UInt64.toNat) := by
  unfold scheduledIds
  exact (List.perm_append_comm).map _

/-- `start_process` keeps the ids conserved while `task_id + 1` does not wrap. -/
theorem conserved_start {k : Kernel} (hk : k.Conserved) (a b : UInt64)
    (hlt : k.scheduler.taskId.toNat + 1 < 2 ^ 64) :
    (k.step (.start a b)).2.Conserved := by
  set n := k.scheduler.taskId.toNat
  have hid : (k.scheduler.taskId + 1).toNat = n + 1 := by
    rw [UInt64.toNat_add, UInt64.toNat_one, Nat.mod_eq_of_lt hlt]
  have hq : (k.step (.start a b)).2.queueIds = k.queueIds ++ [k.scheduler.taskId + 1] := by
    simp [queueIds]
  have hr : (k.step (.start a b)).2.runningId = k.runningId := rfl
  unfold Conserved
  calc List.Perm (k.step (.start a b)).2.scheduledIds (k.scheduledIds ++ [n + 1]) := by
        simp only [scheduledIds, hq, hr, List.map_append, List.map_cons, List.map_nil, hid,
          List.append_assoc]
        exact List.Perm.append_left _ List.perm_append_comm
    List.Perm _ (List.range' 1 n ++ [1 + n]) := by rw [Nat.add_comm]; exact hk.append_right _
    _ = List.range' 1 (k.step (.start a b)).2.scheduler.taskId.toNat := by
        simp only [step_start, RoundRobinScheduler.startProcess_taskId, hid]
        rw [List.range'_concat, Nat.one_mul]

/-- A timer interrupt keeps the ids conserved. -/
theorem conserved_timerTick {k : Kernel} (hk : k.Conserved) (rsp : UInt64)
    (i : UInt64 × UInt64) : (k.timerTick rsp i).2.Conserved := by
  obtain ⟨hr, hq⟩ := Prod.ext_iff.mp (timerTick_ids k rsp i)
  dsimp only at hr hq
  unfold Conserved
  rw [timerTick_taskId]
  calc List.Perm (k.timerTick rsp i).2.scheduledIds
        (((k.timerTick rsp i).2.runningId.toList ++ (k.timerTick rsp i).2.queueIds).map
          UInt64.toNat) := scheduledIds_perm _
    List.Perm _ ((k.runningId.toList ++ k.queueIds).map UInt64.toNat) := by
        rw [hr, hq]; exact (RoundRobin.rotate_perm _ _).map _
    List.Perm _ k.scheduledIds := (scheduledIds_perm k).symm
    List.Perm _ (List.range' 1 k.scheduler.taskId.toNat) := hk

/-- Along a run from a conserved state, while the starts do not wrap `task_id`: the state
stays conserved and `task_id` counts the starts. -/
theorem conserved_run :
    ∀ (es : List Event) (k : Kernel), k.Conserved →
      k.scheduler.taskId.toNat + starts es < 2 ^ 64 →
      (k.run es).Conserved ∧ (k.run es).scheduler.taskId.toNat =
        k.scheduler.taskId.toNat + starts es := by
  intro es
  induction es with
  | nil => intro k hk _; exact ⟨hk, rfl⟩
  | cons e es ih =>
    intro k hk hlt
    cases e with
    | start a b =>
      rw [starts_start] at hlt
      have hid : (k.step (.start a b)).2.scheduler.taskId.toNat =
          k.scheduler.taskId.toNat + 1 := by
        simp only [step_start, RoundRobinScheduler.startProcess_taskId]
        rw [UInt64.toNat_add, UInt64.toNat_one, Nat.mod_eq_of_lt (by omega)]
      obtain ⟨h1, h2⟩ := ih _ (conserved_start hk a b (by omega)) (by omega)
      rw [run_cons, starts_start]
      exact ⟨h1, by omega⟩
    | tick rsp i =>
      rw [starts_tick] at hlt
      have hid := timerTick_taskId k rsp i
      obtain ⟨h1, h2⟩ := ih _ (conserved_timerTick hk rsp i) (by rw [hid]; exact hlt)
      rw [run_cons, starts_tick, step_tick]
      exact ⟨h1, by rw [h2, hid]⟩

/-- Every state reachable from `scheduler::init` with fewer than `2^64` starts is conserved,
and its `task_id` is the number of starts. -/
theorem conserved_of_boot (v : UInt64 × UInt64) (es : List Event) (hes : starts es < 2 ^ 64) :
    ((boot v).run es).Conserved ∧ ((boot v).run es).scheduler.taskId.toNat = starts es := by
  have h0 : (boot v).scheduler.taskId.toNat = 0 := by
    simp [boot, RoundRobinScheduler.new]
  obtain ⟨hc, hid⟩ := conserved_run es (boot v) (conserved_boot v) (by omega)
  exact ⟨hc, by omega⟩

/-- From the state after `scheduler::init`, along any run of starts and timer interrupts with
fewer than `2^64 - 1` starts, every process id `1, …, task_id` is in the queue or running
exactly once, no other id is, the idle task's id 0 never is, and `task_id` is the number of
starts. -/
theorem run_conserves_processes (v : UInt64 × UInt64) (es : List Event)
    (hes : starts es < 2 ^ 64 - 1) :
    ((boot v).run es).Conserved ∧
      (∀ id ∈ ((boot v).run es).queueIds ++ ((boot v).run es).runningId.toList, id ≠ 0) ∧
      ((boot v).run es).scheduler.taskId.toNat = starts es := by
  obtain ⟨hc, hid⟩ := conserved_of_boot v es (by omega)
  exact ⟨hc, hc.ne_zero, hid⟩

theorem run_conserves_processes_three_events :
    starts [.start 0x1000 0x2000, .tick 0x3000 (0x4000, 0x5000), .start 0x6000 0x7000] <
        2 ^ 64 - 1 ∧
      let k := (boot (0x8000, 0x9000)).run
        [.start 0x1000 0x2000, .tick 0x3000 (0x4000, 0x5000), .start 0x6000 0x7000]
      k.Conserved ∧ (∀ id ∈ k.queueIds ++ k.runningId.toList, id ≠ 0) ∧
        k.scheduler.taskId.toNat =
          starts [.start 0x1000 0x2000, .tick 0x3000 (0x4000, 0x5000), .start 0x6000 0x7000] :=
  ⟨by decide, run_conserves_processes _ _ (by decide)⟩

end LeafOS.Kernel
