import LeafOS.Interrupts.Vectors

/-!
# Interrupts of the 8259 PICs

`lib::init` starts the chained PICs of `interrupts::PICS` and enables interrupts; from then on
a device can interrupt kernel_main through a line of the PICs. A handler runs through an
interrupt gate, with interrupts off, so the next interrupt is taken after it returns. The
handlers a line reaches give the interrupt back through `end_of_interrupt`, to the local APIC
once `LAPIC` is set and to the PICs before; the handlers of the APIC's vectors unwrap `LAPIC`.
`init_apic` sets `LAPIC`, and masks every line with `pic::disable` a few steps later.

1. `Chip`, `Chips`: the registers of the two 8259s in fully nested mode, the mode
   `ChainedPics::initialize` sets. `Pic`, `ChainedPics`: the driver of the `pic8259` crate;
   `Pic8259`: its `notify_end_of_interrupt`, with the behaviour the crate documents.
2. `Machine`, `runHandler`, `take`, `raise`, `raiseAll`: a line raised by its device, and runs
   of such interrupts between kernel_main's steps; `none` when the kernel panics.
3. `Pic8259.notifyEndOfInterrupt_ack`: the end of interrupt for the vector of the line taken leaves
   the chips as they were.
4. `raiseAll_preApic`: before `LAPIC` is set, a run of interrupts leaves the machine as it was,
   unless the chips pass on a line other than 0 (the PIT) and 4; then the kernel panics.
5. `raiseAll_pit_lapic`: once `LAPIC` is set, the PIT's interrupt stays in service at the
   primary PIC, which passes on no interrupt after it.

A request the chips do not pass on is dropped: the model leaves out the request register,
which would keep it until the line is unmasked or the lines in service leave service, and
neither happens in the runs the results are about.
-/

namespace LeafOS.Dispatch

open Vectors

/-- The registers of one 8259 that interrupts change, a bit for each of its lines: the
interrupt mask register and the in-service register. -/
structure Chip where
  imr : UInt8
  isr : UInt8
  deriving DecidableEq, Repr

namespace Chip

/-- The bit of line `i`. -/
def bit (i : Fin 8) : UInt8 := 1 <<< i.val.toUInt8

/-- The bits of line `i` and of the lines of a higher priority, which have lower numbers. -/
def upTo (i : Fin 8) : UInt8 := (bit i <<< 1) - 1

/-- In fully nested mode a request of line `i` is passed on to the CPU when the line is not
masked and no line of the same or a higher priority is in service. -/
def passes (c : Chip) (i : Fin 8) : Bool := c.imr &&& bit i == 0 && c.isr &&& upTo i == 0

/-- The CPU acknowledges line `i`, which goes in service. -/
def ack (c : Chip) (i : Fin 8) : Chip := { c with isr := c.isr ||| bit i }

/-- `CMD_END_OF_INTERRUPT`, a non-specific end of interrupt: the line in service of the
highest priority, the lowest bit set, leaves service. -/
def eoi (c : Chip) : Chip := { c with isr := c.isr &&& (c.isr - 1) }

theorem eoi_ack {c : Chip} (hc : c.isr = 0) (i : Fin 8) : (c.ack i).eoi = c := by
  have hbit : ∀ i : Fin 8, bit i &&& (bit i - 1) = 0 := by decide
  obtain ⟨imr, isr⟩ := c
  simp only at hc
  subst hc
  simp [ack, eoi, hbit]

/-- Line 0 in service holds back every line, since it has the highest priority. -/
theorem passes_ack_zero (c : Chip) (i : Fin 8) : (c.ack 0).passes i = false := by
  have hlow : upTo i &&& 1 = 1 := by revert i; decide
  have hne : (c.isr ||| 1) &&& upTo i ≠ 0 := by
    intro h0
    have h := congrArg (fun z : UInt8 => z.toNat.testBit 0) h0
    have hl := congrArg (fun z : UInt8 => z.toNat.testBit 0) hlow
    simp [UInt8.toNat_and, UInt8.toNat_or] at h hl
    simp [hl] at h
  simp [passes, ack, bit, hne]

end Chip

/-- The chained 8259s: the primary, and the secondary on line 2 of the primary. -/
structure Chips where
  primary : Chip
  secondary : Chip
  deriving DecidableEq, Repr

namespace Chips

/-- The line of its own chip that line `line` of the pair is. -/
def pin (line : Fin 16) : Fin 8 := ⟨line.val % 8, Nat.mod_lt _ (by decide)⟩

/-- Whether the chips pass a request of line `line` on to the CPU. A request of the secondary
goes through line 2 of the primary, which no device raises itself. -/
def passes (c : Chips) (line : Fin 16) : Bool :=
  if line.val < 8 then line.val != 2 && c.primary.passes (pin line)
  else c.secondary.passes (pin line) && c.primary.passes 2

/-- The CPU acknowledges line `line`; for a line of the secondary the primary puts its line 2
in service as well. -/
def ack (c : Chips) (line : Fin 16) : Chips :=
  if line.val < 8 then { c with primary := c.primary.ack (pin line) }
  else ⟨c.primary.ack 2, c.secondary.ack (pin line)⟩

/-- `pic::disable`: the mask `0xff` written to the data ports of the secondary and the
primary. -/
def disable (c : Chips) : Chips :=
  ⟨{ c.primary with imr := 0xff }, { c.secondary with imr := 0xff }⟩

/-- No line in service. -/
def Idle (c : Chips) : Prop := c.primary.isr = 0 ∧ c.secondary.isr = 0

theorem passes_ack_zero (c : Chips) (line : Fin 16) : (c.ack 0).passes line = false := by
  simp [passes, ack, pin, Chip.passes_ack_zero]


end Chips

/-- `pic8259::Pic`, of which the model keeps the offset; its ports are those of its chip. -/
structure Pic where
  offset : UInt8

/-- The interrupts the crate documents a PIC to handle: the eight from its offset. -/
def Pic.Handles (p : Pic) (interruptId : UInt8) : Prop :=
  p.offset.toNat ≤ interruptId.toNat ∧ interruptId.toNat < p.offset.toNat + 8

instance (p : Pic) (interruptId : UInt8) : Decidable (p.Handles interruptId) :=
  inferInstanceAs (Decidable (_ ∧ _))

/-- `ChainedPics`: `pics[0]` drives the primary, `pics[1]` the secondary. -/
structure ChainedPics where
  pics : Pic × Pic

/-- `ChainedPics::new`. -/
def ChainedPics.new (offset1 offset2 : UInt8) : ChainedPics := ⟨(⟨offset1⟩, ⟨offset2⟩)⟩

/-- `interrupts::PICS`. -/
def PICS : ChainedPics := .new PIC_1_OFFSET PIC_2_OFFSET

/-- What the kernel calls of the `pic8259` crate after `ChainedPics::new` and `initialize`:
`ChainedPics::notify_end_of_interrupt`, over the chips it drives, with the behaviour the crate
documents. The interrupts of the secondary are chained through the primary, so one of the
secondary ends at both chips, one of the primary at the primary alone, and any other at
neither. Ending an interrupt at a chip is the command `0x20`, whose effect `Chip.eoi` models. -/
structure Pic8259 where
  /-- `ChainedPics::notify_end_of_interrupt`. -/
  notifyEndOfInterrupt : ChainedPics → Chips → UInt8 → Chips
  notifyEndOfInterrupt_secondary : ∀ p c interruptId, p.pics.2.Handles interruptId →
    notifyEndOfInterrupt p c interruptId = ⟨c.primary.eoi, c.secondary.eoi⟩
  notifyEndOfInterrupt_primary : ∀ p c interruptId, p.pics.1.Handles interruptId →
    ¬p.pics.2.Handles interruptId →
      notifyEndOfInterrupt p c interruptId = ⟨c.primary.eoi, c.secondary⟩
  notifyEndOfInterrupt_other : ∀ p c interruptId, ¬p.pics.1.Handles interruptId →
    ¬p.pics.2.Handles interruptId → notifyEndOfInterrupt p c interruptId = c

/-- Ending the interrupt of the line taken returns the chips to the state before it. -/
theorem Pic8259.notifyEndOfInterrupt_ack (pic : Pic8259) {c : Chips} (hc : c.Idle)
    (line : Fin 16) : pic.notifyEndOfInterrupt PICS (c.ack line) (picVector line) = c := by
  -- the primary handles vectors `32` to `39`, the secondary `40` to `47`
  have hprim : PICS.pics.1.Handles (picVector line) ↔ line.val < 8 := by
    simp only [Pic.Handles, PICS, ChainedPics.new, PIC_1_OFFSET, UInt8.reduceToNat,
      picVector_toNat]
    omega
  have hsec : PICS.pics.2.Handles (picVector line) ↔ 8 ≤ line.val := by
    simp only [Pic.Handles, PICS, ChainedPics.new, PIC_2_OFFSET, PIC_1_OFFSET, UInt8.reduceAdd,
      UInt8.reduceToNat, picVector_toNat]
    omega
  obtain ⟨hp, hs⟩ := hc
  obtain ⟨primary, secondary⟩ := c
  by_cases hl : line.val < 8
  · rw [pic.notifyEndOfInterrupt_primary _ _ _ (hprim.mpr hl) (fun h => absurd (hsec.mp h) (by omega))]
    simp [Chips.ack, hl, Chip.eoi_ack hp]
  · rw [pic.notifyEndOfInterrupt_secondary _ _ _ (hsec.mpr (by omega))]
    simp [Chips.ack, hl, Chip.eoi_ack hp, Chip.eoi_ack hs]

/-- The crate's `notify_end_of_interrupt`, as `pic8259` 0.10 computes it; it keeps the
contract. -/
def Pic8259.crate : Pic8259 where
  notifyEndOfInterrupt p c interruptId :=
    if p.pics.1.Handles interruptId ∨ p.pics.2.Handles interruptId then
      ⟨c.primary.eoi,
        if p.pics.2.Handles interruptId then c.secondary.eoi else c.secondary⟩
    else c
  notifyEndOfInterrupt_secondary _ _ _ h := by simp [h]
  notifyEndOfInterrupt_primary _ _ _ h1 h2 := by simp [h1, h2]
  notifyEndOfInterrupt_other _ _ _ h1 h2 := by simp [h1, h2]

/-! ## Interrupts between kernel_main's steps -/

/-- What the interrupts of the PICs read and write. -/
structure Machine where
  /-- The two 8259s. -/
  chips : Chips
  /-- `has_lapic()`: whether `LAPIC` is `Some`. -/
  lapic : Bool
  /-- `TRIGGERED_ONCE`. -/
  triggeredOnce : Bool
  /-- The IDT. -/
  idt : Idt

namespace Machine

variable (pic : Pic8259)

/-- `end_of_interrupt(interrupt_id)`: to the local APIC when `has_lapic()`, a write of a
register of the local APIC that the model leaves out, else
`PICS.lock().notify_end_of_interrupt(interrupt_id)`. -/
def endOfInterrupt (m : Machine) (interruptId : UInt8) : Machine :=
  if m.lapic then m else { m with chips := pic.notifyEndOfInterrupt PICS m.chips interruptId }

/-- `LAPIC.as_mut().unwrap().end_of_interrupt()`, which panics while `LAPIC` is `None`. -/
def lapicEndOfInterrupt (m : Machine) : Option Machine := if m.lapic then some m else none

/-- The handler `h`; `none` when it panics or never returns. The exception handlers panic and
`page_fault_handler` ends in `hlt_loop`. The keyboard handler's decoding and its call into
`EVENT_HANDLERS`, the system call and the scheduler's switch are modelled in their own
modules and change nothing here. -/
def runHandler (m : Machine) : Handler → Option Machine
  | .timerInterruptHandler => some (m.endOfInterrupt pic InterruptIndex.Timer.asU8)
  | .keyboardInterruptHandler => some (m.endOfInterrupt pic InterruptIndex.Keyboard.asU8)
  | .apicTimerConfigHandler => lapicEndOfInterrupt { m with triggeredOnce := true }
  | .apicTimerHandler | .apicErrorHandler | .apicSpuriousHandler => lapicEndOfInterrupt m
  | .syscallHandler => some (m.endOfInterrupt pic InterruptIndex.Syscall.asU8)
  | _ => none

/-- The CPU takes the interrupt of line `line`: the chips put it in service and the handler of
its vector runs. A vector with no handler has a gate that is not present, so the CPU raises a
segment-not-present fault instead, whose handler panics. -/
def take (m : Machine) (line : Fin 16) : Option Machine :=
  (m.idt (picVector line)).bind (({ m with chips := m.chips.ack line } : Machine).runHandler pic)

/-- The device of line `line` raises it: the interrupt is taken when the chips pass it on. -/
def raise (m : Machine) (line : Fin 16) : Option Machine :=
  if m.chips.passes line then m.take pic line else some m

/-- The machine after the lines `lines` are raised one after another. -/
def raiseAll (m : Machine) : List (Fin 16) → Option Machine
  | [] => some m
  | line :: lines => (m.raise pic line).bind fun m' => m'.raiseAll lines

@[simp] theorem raiseAll_nil (m : Machine) : m.raiseAll pic [] = some m := rfl

@[simp] theorem raiseAll_cons (m : Machine) (line : Fin 16) (lines : List (Fin 16)) :
    m.raiseAll pic (line :: lines) = (m.raise pic line).bind fun m' => m'.raiseAll pic lines :=
  rfl

/-- A run of lines the chips never pass on changes nothing. -/
theorem raiseAll_of_passes_false {m : Machine} (h : ∀ line, m.chips.passes line = false)
    (lines : List (Fin 16)) : m.raiseAll pic lines = some m := by
  induction lines with
  | nil => rfl
  | cons line lines ih => rw [raiseAll_cons, raise, if_neg (by simp [h]), Option.bind_some, ih]

/-- What the handler of each line does with the IDT of `interrupts::init`. -/
theorem bind_runHandler_init (m : Machine) (line : Fin 16) :
    (init (picVector line)).bind (m.runHandler pic) =
      if line.val = 0 then some (m.endOfInterrupt pic InterruptIndex.Timer.asU8)
      else if line.val = 4 then some (m.endOfInterrupt pic InterruptIndex.Keyboard.asU8)
      else if line.val = 1 then lapicEndOfInterrupt { m with triggeredOnce := true }
      else if line.val < 4 then lapicEndOfInterrupt m
      else none := by
  fin_cases line <;> rfl

/-! ## Before `init_apic` -/

/-- The machine from `lib::init` until `init_apic` sets `LAPIC`, between two interrupts: the
IDT of `interrupts::init`, and no line in service. -/
structure PreApic (m : Machine) : Prop where
  lapic : m.lapic = false
  idt : m.idt = init
  idle : m.chips.Idle

/-- Before `LAPIC` is set, a line the chips pass on leaves the machine as it was when its
handler gives the interrupt back to the PICs, which the handlers of lines 0 and 4 do; every
other line panics: lines 1 and 3 in the unwrap of `LAPIC`, lines 5 to 15 for want of a handler.
Line 2 is never passed on. -/
theorem raise_preApic {m : Machine} (hm : m.PreApic) (line : Fin 16) :
    m.raise pic line =
      if m.chips.passes line ∧ line.val ≠ 0 ∧ line.val ≠ 4 then none else some m := by
  have hend : ({ m with chips := m.chips.ack line } : Machine).endOfInterrupt pic
      (picVector line) = m := by
    rw [endOfInterrupt, if_neg (by simp [hm.lapic]), pic.notifyEndOfInterrupt_ack hm.idle]
  unfold raise
  by_cases hp : m.chips.passes line
  · rw [if_pos hp, take, congrFun hm.idt, bind_runHandler_init]
    by_cases h0 : line.val = 0
    · obtain rfl : line = 0 := Fin.ext h0
      rw [if_pos h0, if_neg (by simp)]
      exact congrArg some hend
    by_cases h4 : line.val = 4
    · obtain rfl : line = 4 := Fin.ext h4
      rw [if_neg h0, if_pos h4, if_neg (by simp)]
      exact congrArg some hend
    -- the other handlers unwrap `LAPIC`, or there is none
    have hpanic : m.chips.passes line ∧ line.val ≠ 0 ∧ line.val ≠ 4 := ⟨hp, h0, h4⟩
    rw [if_neg h0, if_neg h4, if_pos hpanic]
    simp only [lapicEndOfInterrupt, hm.lapic, Bool.false_eq_true, if_false, ite_self]
  · simp [hp]

theorem raiseAll_preApic (pic : Pic8259) (m : Machine) (hm : m.PreApic)
    (lines : List (Fin 16)) :
    m.raiseAll pic lines =
      if ∃ line ∈ lines, m.chips.passes line ∧ line.val ≠ 0 ∧ line.val ≠ 4 then none
      else some m := by
  induction lines with
  | nil => simp
  | cons line lines ih =>
    rw [raiseAll_cons, raise_preApic pic hm]
    by_cases h : m.chips.passes line ∧ line.val ≠ 0 ∧ line.val ≠ 4
    · rw [if_pos h, Option.bind_none, if_pos ⟨line, List.mem_cons_self, h⟩]
    · rw [if_neg h, Option.bind_some, ih]
      simp only [List.mem_cons, exists_eq_or_imp, h, false_or]

/-- Before `init_apic`, with the keyboard's line and the PIT's unmasked: a run of PIT
interrupts changes nothing, and a key press panics the kernel. -/
theorem raiseAll_preApic_key_press :
    let m : Machine := ⟨⟨⟨0, 0⟩, ⟨0, 0⟩⟩, false, false, init⟩
    m.PreApic ∧ m.raiseAll Pic8259.crate [0, 0, 1] = none ∧
      m.raiseAll Pic8259.crate [0, 0] = some m :=
  let m : Machine := ⟨⟨⟨0, 0⟩, ⟨0, 0⟩⟩, false, false, init⟩
  have hm : m.PreApic := ⟨rfl, rfl, rfl, rfl⟩
  ⟨hm, by rw [raiseAll_preApic Pic8259.crate m hm, if_pos (by decide)],
    by rw [raiseAll_preApic Pic8259.crate m hm, if_neg (by decide)]⟩

/-! ## Once `LAPIC` is set -/

/-- Once `LAPIC` is set, `timer_interrupt_handler` gives the PIT's interrupt to the local APIC,
so line 0 stays in service at the primary, and the chips pass no line on after it: every
later run of interrupts changes nothing. -/
theorem raiseAll_pit_lapic (pic : Pic8259) (m : Machine) (hl : m.lapic = true)
    (hidt : m.idt = init) (hp : m.chips.passes 0) (lines : List (Fin 16)) :
    m.raiseAll pic (0 :: lines) = some { m with chips := m.chips.ack 0 } := by
  have htake : m.raise pic 0 = some { m with chips := m.chips.ack 0 } := by
    rw [raise, if_pos hp, take, congrFun hidt, bind_runHandler_init]
    simp [endOfInterrupt, hl]
  rw [raiseAll_cons, htake, Option.bind_some]
  exact raiseAll_of_passes_false pic (Chips.passes_ack_zero m.chips) lines

theorem raiseAll_pit_lapic_in_init_apic :
    let m : Machine := ⟨⟨⟨0, 0⟩, ⟨0, 0⟩⟩, true, false, init⟩
    m.lapic = true ∧ m.idt = init ∧ m.chips.passes 0 = true ∧
      m.raiseAll Pic8259.crate [0, 1, 4, 0] = some { m with chips := m.chips.ack 0 } :=
  ⟨rfl, rfl, by decide, raiseAll_pit_lapic Pic8259.crate _ rfl rfl (by decide) [1, 4, 0]⟩

end Machine

end LeafOS.Dispatch
