import LeafOS.Drivers.Pit

/-!
# Calibrating the APIC timer

`init_apic` (`interrupts.rs`) measures the local APIC timer against the PIT. It starts the APIC
timer one-shot at `TIMER_DELAY = u16::MAX` with divide 64, loads the same count into PIT channel
0, waits for the APIC timer's interrupt and reads the PIT back. From the PIT ticks that passed,
`TIMER_DELAY - end`, it computes the APIC timer's frequency, and `start_timer_one_shot(us)`
later programs `us` microseconds' worth of ticks at that frequency.

1. `Lapic`, `State`, `initApic`, `startTimerOneShot`: the two functions as the source has them,
   with the value the PIT's counting element has reached when the wait ends as an input.
2. `initApic_frequency`: the frequency stored is `PIT_DIVIDEND` times the whole quotient
   `TIMER_DELAY / (TIMER_DELAY - end)`. The source divides before it multiplies, so the result
   lies up to one `PIT_DIVIDEND` below the measured rate; `end = TIMER_DELAY` divides by zero.
3. `schedulerTimer_initial`: the count `restart_apic` programs for a time slice wraps in the
   cast to `u32` exactly when fewer than 19 PIT ticks passed during the measurement.
-/

namespace LeafOS.ApicTimer

open Pit

/-- `x2apic::lapic::TimerDivide`. -/
inductive TimerDivide where
  | Div1 | Div2 | Div4 | Div8 | Div16 | Div32 | Div64 | Div128
  deriving DecidableEq, Repr

/-- `x2apic::lapic::TimerMode`. -/
inductive TimerMode where
  | OneShot | Periodic | TscDeadline
  deriving DecidableEq, Repr

/-- The timer registers of the local APIC that `init_apic` and `start_timer_one_shot` set. -/
structure Lapic where
  timerDivide : TimerDivide
  timerInitial : UInt32
  timerMode : TimerMode
  enabled : Bool
  deriving DecidableEq, Repr

/-- The handler in the IDT entry of `InterruptIndex::ApicTimer`. -/
inductive ApicTimerHandler where
  | apicTimerConfigHandler | apicTimerHandler
  deriving DecidableEq, Repr

/-- What `init_apic` and `start_timer_one_shot` read and write: the local APIC, the machine with
the PIT, `APIC_TIMER_FREQUENCY`, and the handler of the APIC timer's vector. -/
structure State where
  lapic : Lapic
  machine : Machine Pit8254
  apicTimerFrequency : ℕ
  apicTimerHandler : ApicTimerHandler

/-- `TIMER_DELAY`, `u16::MAX`. -/
def TIMER_DELAY : UInt16 := 0xFFFF

/-- `scheduler::SCHEDULER_TIMER_DELAY`, in microseconds. -/
def SCHEDULER_TIMER_DELAY : ℕ := 1000000

/-- `init_apic` from the programming of the timers on. `v` is the value of PIT channel 0's
counting element when the APIC timer's interrupt ends the wait; `none` where the division
panics. -/
def initApic (s : State) (v : UInt16) : Option State :=
  let lapic := { s.lapic with
    timerDivide := .Div64, timerInitial := TIMER_DELAY.toUInt32, timerMode := .OneShot }
  let ((), m) := writeChannel0Count Pit8254.bus TIMER_DELAY s.machine
  let lapic := { lapic with enabled := true }
  -- the wait: the PIT's input clock moves its counting element to `v`
  let m := { m with devices := m.devices.clockTo v }
  let (pitEnd, m) := readPitCount Pit8254.bus m
  if TIMER_DELAY.toNat - pitEnd.toNat = 0 then none
  else
    let frequency := TIMER_DELAY.toNat / (TIMER_DELAY.toNat - pitEnd.toNat) * PIT_DIVIDEND
    some {
      lapic := lapic, machine := m, apicTimerFrequency := frequency,
      apicTimerHandler := .apicTimerHandler }

/-- `start_timer_one_shot(us)`: `us` times the ticks per microsecond, cast to `u32`. -/
def startTimerOneShot (s : State) (us : ℕ) : State :=
  { s with lapic := { s.lapic with
    timerDivide := .Div64, timerMode := .OneShot,
    timerInitial := (us * (s.apicTimerFrequency / 1000000)).toUInt32 } }

/-- The machine at the end of the wait: the PIT programmed with `TIMER_DELAY`, its counting
element at `v`. -/
def waited (m : Machine Pit8254) (v : UInt16) : Machine Pit8254 :=
  let m := (writeChannel0Count Pit8254.bus TIMER_DELAY m).2
  { m with devices := m.devices.clockTo v }

/-- The PIT read at the end of the wait returns `v`, after `write_channel0_count` from any
machine. -/
theorem readPitCount_waited (m : Machine Pit8254) (v : UInt16) :
    readPitCount Pit8254.bus (waited m v) = (v, waited m v) :=
  (writeChannel0Count_readPitCount m TIMER_DELAY v).2.2

/-- `init_apic` as one step: it panics when the PIT read back `TIMER_DELAY`, and otherwise stores
`TIMER_DELAY / (TIMER_DELAY - v) * PIT_DIVIDEND` and installs the scheduler's handler. -/
theorem initApic_eq (s : State) (v : UInt16) :
    initApic s v = if 65535 - v.toNat = 0 then none
      else some {
        lapic := { s.lapic with
          timerDivide := .Div64, timerInitial := 0xFFFF, timerMode := .OneShot, enabled := true },
        machine := waited s.machine v,
        apicTimerFrequency := 65535 / (65535 - v.toNat) * PIT_DIVIDEND,
        apicTimerHandler := .apicTimerHandler } := by
  have h := readPitCount_waited s.machine v
  simp only [waited] at h
  simp only [initApic, h]
  rfl

/-- For every state and every value `v` the PIT has counted down to when the APIC timer fires:
`init_apic` panics if `v = TIMER_DELAY`, no PIT tick having passed. Otherwise it stores
`f = TIMER_DELAY / (TIMER_DELAY - v) * PIT_DIVIDEND` and installs the scheduler's handler. The
measured rate `TIMER_DELAY * PIT_DIVIDEND / (TIMER_DELAY - v)` is at least `f` and less than
`f + PIT_DIVIDEND`, since the quotient is taken before the product. -/
theorem initApic_frequency (s : State) (v : UInt16) :
    (v = TIMER_DELAY → initApic s v = none) ∧
      (v ≠ TIMER_DELAY → ∃ s', initApic s v = some s' ∧
        s'.apicTimerHandler = .apicTimerHandler ∧
        s'.apicTimerFrequency = 65535 / (65535 - v.toNat) * PIT_DIVIDEND ∧
        s'.apicTimerFrequency * (65535 - v.toNat) ≤ 65535 * PIT_DIVIDEND ∧
        65535 * PIT_DIVIDEND < (s'.apicTimerFrequency + PIT_DIVIDEND) * (65535 - v.toNat)) := by
  have hv := v.toNat_lt
  constructor
  · intro h
    subst h
    rw [initApic_eq]
    rfl
  · intro h
    have hn : 65535 - v.toNat ≠ 0 := by
      intro h0
      apply h
      apply UInt16.toNat_inj.mp
      show v.toNat = 65535
      omega
    rw [initApic_eq, if_neg hn]
    refine ⟨_, rfl, rfl, rfl, ?_, ?_⟩
    · -- the quotient times the divisor is at most the dividend
      rw [Nat.mul_right_comm]
      exact Nat.mul_le_mul_right _ (Nat.div_mul_le_self _ _)
    · -- and the next multiple is past it
      have hlt : 65535 < 65535 / (65535 - v.toNat) * (65535 - v.toNat) + (65535 - v.toNat) :=
        Nat.lt_div_mul_add (Nat.pos_of_ne_zero hn)
      have hD : 0 < PIT_DIVIDEND := by decide
      calc 65535 * PIT_DIVIDEND
          < (65535 / (65535 - v.toNat) * (65535 - v.toNat) + (65535 - v.toNat)) * PIT_DIVIDEND :=
            Nat.mul_lt_mul_of_pos_right hlt hD
        _ = (65535 / (65535 - v.toNat) * PIT_DIVIDEND + PIT_DIVIDEND) * (65535 - v.toNat) := by
            ring

/-- The whole quotient of the calibration against the PIT ticks `n` that passed: at most 3449
from 19 ticks on, at least 3640 below. -/
theorem quotient_bounds {n : ℕ} (hn : 0 < n) :
    (19 ≤ n → 65535 / n ≤ 3449) ∧ (n ≤ 18 → 3640 ≤ 65535 / n) := by
  constructor
  · intro h
    calc 65535 / n ≤ 65535 / 19 := Nat.div_le_div_left h (by norm_num)
      _ = 3449 := rfl
  · intro h
    calc 3640 = 65535 / 18 := rfl
      _ ≤ 65535 / n := Nat.div_le_div_left h hn

/-- For every state and every PIT value `v` at which the calibration does not panic, the count
`start_timer_one_shot(SCHEDULER_TIMER_DELAY)` then programs is `SCHEDULER_TIMER_DELAY` times the
whole megahertz of the stored frequency, cast to `u32`; the cast keeps it exactly when at least
19 PIT ticks passed during the measurement, `v < 65517`. -/
theorem schedulerTimer_initial (s : State) {v : UInt16} (hv : v ≠ TIMER_DELAY) :
    ∃ s', initApic s v = some s' ∧
      (startTimerOneShot s' SCHEDULER_TIMER_DELAY).lapic.timerInitial.toNat =
        SCHEDULER_TIMER_DELAY * (s'.apicTimerFrequency / 1000000) % 2 ^ 32 ∧
      (SCHEDULER_TIMER_DELAY * (s'.apicTimerFrequency / 1000000) < 2 ^ 32 ↔ v.toNat < 65517) := by
  have hlt := v.toNat_lt
  have hn : 0 < 65535 - v.toNat := by
    have : v.toNat ≠ 65535 := fun h => hv (UInt16.toNat_inj.mp h)
    omega
  rw [initApic_eq, if_neg (by omega)]
  refine ⟨_, rfl, UInt32.toNat_ofNat, ?_⟩
  obtain ⟨hbig, hsmall⟩ := quotient_bounds hn
  simp only [SCHEDULER_TIMER_DELAY, PIT_DIVIDEND]
  constructor
  · intro hfit
    by_contra hv'
    have := hsmall (by omega)
    omega
  · intro hv'
    have := hbig (by omega)
    omega

/-- A calibration in which 5005 PIT ticks pass, as with an APIC bus of about 1 GHz: the
time-slice count, 15,000,000 ticks, fits. -/
theorem schedulerTimer_initial_gigahertz_bus :
    (60530 : UInt16) ≠ TIMER_DELAY ∧ ∃ s', initApic ⟨⟨.Div1, 0, .OneShot, false⟩,
        ⟨⟨fun _ => ⟨.LoHiByte, .RateGenerator, .Binary, 0, none, none, false, 0⟩⟩, true⟩, 0,
        .apicTimerConfigHandler⟩ 60530 = some s' ∧
      (startTimerOneShot s' SCHEDULER_TIMER_DELAY).lapic.timerInitial.toNat =
        SCHEDULER_TIMER_DELAY * (s'.apicTimerFrequency / 1000000) % 2 ^ 32 ∧
      (SCHEDULER_TIMER_DELAY * (s'.apicTimerFrequency / 1000000) < 2 ^ 32 ↔
        (60530 : UInt16).toNat < 65517) :=
  ⟨by decide, schedulerTimer_initial _ (by decide)⟩

end LeafOS.ApicTimer
