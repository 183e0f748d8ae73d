import Mathlib

/-!
# Interrupt vectors and the lines that reach them

`interrupts::init` fills the IDT: the architecture's exception vectors, and one vector for each
`InterruptIndex`. `lib::init` then starts the two 8259 PICs at offsets `PIC_1_OFFSET = 32` and
`PIC_2_OFFSET = 40`, so line `i` of the pair raises vector `32 + i`. `init_apic` builds the
local APIC with the timer, error and spurious vectors of `InterruptIndex`, and later puts the
scheduler's handler on the timer's vector.

1. `InterruptIndex.asU8`, `Handler`, `Idt`, `init`, `initApicIdt`: the table as the source
   fills it.
2. `picVector`, `picVector_toNat`: the vector each of the sixteen PIC lines raises. `ApicTimer = 33` and the
   following indices were placed between `Timer` and `Keyboard`, so `Keyboard`, which has no
   discriminant of its own, became `36`, the vector of line 4, and the keyboard's line 1
   raises the vector of `apic_timer_config_handler`; `Dispatch` follows each line to its
   handler.
-/

namespace LeafOS.Vectors

/-- `PIC_1_OFFSET`. -/
def PIC_1_OFFSET : UInt8 := 32

/-- `PIC_2_OFFSET`. -/
def PIC_2_OFFSET : UInt8 := PIC_1_OFFSET + 8

/-- `InterruptIndex`. -/
inductive InterruptIndex where
  | Timer | ApicTimer | ApicError | ApicSpurious | Keyboard | Syscall | Invalid
  deriving DecidableEq, Repr

/-- `InterruptIndex::as_u8`, the discriminants. `Keyboard` has none written, so it is the one
after `ApicSpurious`. -/
def InterruptIndex.asU8 : InterruptIndex → UInt8
  | .Timer => PIC_1_OFFSET
  | .ApicTimer => 33
  | .ApicError => 34
  | .ApicSpurious => 35
  | .Keyboard => 35 + 1
  | .Syscall => 128
  | .Invalid => 255

/-- The handlers of `interrupts.rs`. -/
inductive Handler where
  | breakpointHandler | overflowHandler | boundRangeExceededHandler
  | generalProtectionFaultHandler | alignmentCheckHandler | divideErrorHandler
  | nonMaskableInterruptHandler | invalidOpcodeHandler | deviceUnavailableHandler
  | segmentNotPresentHandler | stackSegmentationFaultHandler | securityHandler
  | simdFloatingPointHandler | x87FloatingPointHandler | vmmCommunicationHandler
  | virtualizationHandler | debugHandler | invalidTssHandler | pageFaultHandler
  | doubleFaultHandler | timerInterruptHandler | keyboardInterruptHandler
  | apicTimerConfigHandler | apicTimerHandler | apicErrorHandler | apicSpuriousHandler
  | syscallHandler
  deriving DecidableEq, Repr

/-- The IDT: the handler of each vector, if one is set. -/
def Idt : Type := UInt8 → Option Handler

/-- `set_handler_fn` on the entry of vector `v`. -/
def Idt.setHandlerFn (idt : Idt) (v : UInt8) (h : Handler) : Idt :=
  Function.update idt v (some h)

/-- `InterruptDescriptorTable::new()`: no entry set. -/
def Idt.new : Idt := fun _ => none

/-- The entries `interrupts::init` sets, in order: the exceptions at the vectors the
architecture gives them, then the entries of `InterruptIndex`. -/
def initEntries : List (UInt8 × Handler) :=
  [(3, .breakpointHandler), (4, .overflowHandler), (5, .boundRangeExceededHandler),
    (13, .generalProtectionFaultHandler), (17, .alignmentCheckHandler),
    (0, .divideErrorHandler), (2, .nonMaskableInterruptHandler), (6, .invalidOpcodeHandler),
    (7, .deviceUnavailableHandler), (11, .segmentNotPresentHandler),
    (12, .stackSegmentationFaultHandler), (30, .securityHandler),
    (19, .simdFloatingPointHandler), (16, .x87FloatingPointHandler),
    (29, .vmmCommunicationHandler), (20, .virtualizationHandler), (1, .debugHandler),
    (10, .invalidTssHandler), (14, .pageFaultHandler), (8, .doubleFaultHandler),
    (InterruptIndex.Timer.asU8, .timerInterruptHandler),
    (InterruptIndex.Keyboard.asU8, .keyboardInterruptHandler),
    (InterruptIndex.ApicTimer.asU8, .apicTimerConfigHandler),
    (InterruptIndex.ApicError.asU8, .apicErrorHandler),
    (InterruptIndex.ApicSpurious.asU8, .apicSpuriousHandler),
    (InterruptIndex.Syscall.asU8, .syscallHandler)]

/-- `interrupts::init`: the entries set one after another into the empty table. -/
def init : Idt :=
  initEntries.foldl (fun idt e => idt.setHandlerFn e.1 e.2) Idt.new

/-- `init_apic`'s last step: the scheduler's handler on the APIC timer's vector. -/
def initApicIdt (idt : Idt) : Idt :=
  idt.setHandlerFn InterruptIndex.ApicTimer.asU8 .apicTimerHandler

/-- The vector line `line` of the chained PICs raises: `PIC_1_OFFSET + line` on the first,
`PIC_2_OFFSET + line - 8` on the second. -/
def picVector (line : Fin 16) : UInt8 :=
  if line.val < 8 then PIC_1_OFFSET + line.val.toUInt8 else PIC_2_OFFSET + (line.val - 8).toUInt8

/-- Line `i` of the pair raises vector `32 + i`. -/
theorem picVector_toNat (line : Fin 16) : (picVector line).toNat = 32 + line.val := by
  have hl := line.isLt
  unfold picVector
  split
  · simp only [PIC_1_OFFSET, UInt8.toNat_add, UInt8.reduceToNat, Nat.toUInt8_eq,
      UInt8.toNat_ofNat']
    omega
  · simp only [PIC_2_OFFSET, PIC_1_OFFSET, UInt8.reduceAdd, UInt8.toNat_add, UInt8.reduceToNat,
      Nat.toUInt8_eq, UInt8.toNat_ofNat']
    omega

end LeafOS.Vectors
