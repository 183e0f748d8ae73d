import LeafOS.Scheduler.Basic

/-!
# The state saved at a switch is the one resumed at the switch before

`apic_timer_handler` saves the interrupted `rsp` into the state `current_task_ptr` returns
and resumes the state `select_next_task` returns. The two functions agree only through `TASK`
and `INIT`: `Kernel.current` is what the next `current_task_ptr` returns.

1. `Switched`: `TASK` is set only after `INIT` is; it holds after `scheduler::init` and is
   kept by every event.
2. `handsOn_step`: in such a state a start keeps `current`, and a timer interrupt saves into
   `current` and leaves the state it resumed as the new `current`.
3. `Trace.outputs_handoff` then pairs every switch with the one before.
-/

namespace LeafOS.Kernel

/-- `TASK` is set only once `INIT` is. -/
def Switched (k : Kernel) : Prop := (k.init || k.task.isNone) = true

theorem switched_boot (v : UInt64 × UInt64) : (boot v).Switched := rfl

theorem switched_step {k : Kernel} (hk : k.Switched) (e : Event) : (k.step e).2.Switched := by
  cases e with
  | start a b => exact hk
  | tick rsp i =>
    unfold Switched
    rw [step_tick, timerTick_init, hk, Bool.true_or]

/-- Every event hands `current` on from one switch to the next. -/
theorem handsOn_step {k : Kernel} (hk : k.Switched) (e : Event) :
    Trace.HandsOn step current Switch.saved Switch.resumed k e := by
  cases e with
  | start a b =>
    show (k.step (.start a b)).2.current = k.current
    rfl
  | tick rsp i =>
    show (k.timerTick rsp i).1.saved = k.current ∧
      (k.timerTick rsp i).2.current = (k.timerTick rsp i).1.resumed
    exact ⟨timerTick_saved k rsp i, timerTick_current k rsp i hk⟩

/-- Along any run of starts and timer interrupts from `scheduler::init`, the state the
interrupted context is saved into at each switch is the one the switch before resumed, and at
the first switch it is `VOID_TASK`'s. -/
theorem switches_save_into_resumed (v : UInt64 × UInt64) (es : List Event) :
    ((boot v).switches es).IsChain (fun a b => b.saved = a.resumed) ∧
      ∀ sw ∈ ((boot v).switches es).head?, sw.saved = .void :=
  ⟨Trace.outputs_handoff (fun _ e hk => switched_step hk e) (fun _ e hk => handsOn_step hk e)
      (boot v) es (switched_boot v),
    Trace.outputs_head_src (fun _ e hk => switched_step hk e) (fun _ e hk => handsOn_step hk e)
      (boot v) es (switched_boot v)⟩

end LeafOS.Kernel
