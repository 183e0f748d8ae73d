import Mathlib

/-!
# The PIT driver and the 8254 it programs

`drivers/pit.rs` programs channel 0 of the programmable interval timer through two I/O ports:
a command byte to `COMMAND_REG`, then the 16-bit count to `CHANNEL0` low byte first; to read the
count it latches it with the command `0` and reads it back low byte first. Each access runs
inside `arch::without_interrupts`.

1. `Machine`, `withoutInterrupts`: the I/O ports of a machine with the interrupt flag;
   `without_interrupts` gives the flag back as it found it (`withoutInterrupts_eq`).
2. `writeMode`, `readPitCount`, `setPitCount`, `setFrequency`, `writeChannel0Count`: the
   driver as the source has it, over any device behind the ports.
3. `Pit8254`: the timer as the driver uses it, after the command register layout given in
   `pit.rs`: three counters, each with its mode, its count register, the byte order of a
   16-bit access and a latch.
4. `writeCommand_commandByte`, `writeChannel0Count_readPitCount`: the driver's bytes do what
   the timer expects. The timer decodes every command `write_mode` encodes; writing a count
   programs channel 0 in rate-generator mode with exactly that count, and reading returns the
   counting element and leaves the timer as it was.
5. `setFrequency_divisor`: `set_frequency` rounds the divisor to the nearest integer, ties
   down; the `as u16` cast keeps it from 19 Hz up and wraps it below.
-/

namespace LeafOS.Pit

/-! ## Ports and the interrupt flag -/

/-- What the devices behind the I/O ports do with an `out` and an `in` of a byte. -/
structure PortBus (σ : Type) where
  outb : σ → UInt16 → UInt8 → σ
  inb : σ → UInt16 → UInt8 × σ

/-- The devices' state and the interrupt flag. -/
structure Machine (σ : Type) where
  devices : σ
  interruptsEnabled : Bool

section Driver

variable {σ : Type} (bus : PortBus σ)

/-- `arch::without_interrupts`: when interrupts are enabled, disable them around `f` and
enable them after it. -/
def withoutInterrupts {α : Type} (f : Machine σ → α × Machine σ) (s : Machine σ) :
    α × Machine σ :=
  if s.interruptsEnabled then
    let (result, s) := f { s with interruptsEnabled := false }
    (result, { s with interruptsEnabled := true })
  else f s

/-- `Port::write`. -/
def portWrite (port : UInt16) (v : UInt8) (s : Machine σ) : Unit × Machine σ :=
  ((), { s with devices := bus.outb s.devices port v })

/-- `Port::read`. -/
def portRead (port : UInt16) (s : Machine σ) : UInt8 × Machine σ :=
  let (v, d) := bus.inb s.devices port
  (v, { s with devices := d })

/-- A function that neither reads nor changes the interrupt flag. -/
def FlagFree {α : Type} (f : Machine σ → α × Machine σ) : Prop :=
  ∀ s b, f { s with interruptsEnabled := b } = ((f s).1, { (f s).2 with interruptsEnabled := b })

/-- `without_interrupts` around a function that leaves the flag alone is the function: it
runs with interrupts disabled, and the flag comes back as it was. -/
theorem withoutInterrupts_eq {α : Type} {f : Machine σ → α × Machine σ} (hf : FlagFree f)
    (s : Machine σ) : withoutInterrupts f s = f s := by
  have hs : f s = ((f s).1, { (f s).2 with interruptsEnabled := s.interruptsEnabled }) := hf s _
  unfold withoutInterrupts
  split
  · next hon =>
    rw [hf s false, hs, hon]
  · rfl

end Driver

/-! ## The driver -/

/-- `CHANNEL0`. -/
def CHANNEL0 : UInt16 := 0x40

/-- `CHANNEL1`. -/
def CHANNEL1 : UInt16 := 0x41

/-- `CHANNEL2`. -/
def CHANNEL2 : UInt16 := 0x42

/-- `COMMAND_REG`. -/
def COMMAND_REG : UInt16 := 0x43

/-- `Channel`. -/
inductive Channel where
  | Channel0 | Channel1 | Channel2 | ReadBackCommand
  deriving DecidableEq, Repr

/-- `AccessMode`. -/
inductive AccessMode where
  | LatchCountDownValueCommand | LoByteOnly | HiByteOnly | LoHiByte
  deriving DecidableEq, Repr

/-- `OperatingMode`. -/
inductive OperatingMode where
  | InterruptOnTerminalCount | HardwareReTriggerableOneShot | RateGenerator
  | SquareWaveGenerator | SoftwareTriggeredStrobe | HardwareTriggeredStrobe
  deriving DecidableEq, Repr

/-- `DataMode`. -/
inductive DataMode where
  | Binary | BCD
  deriving DecidableEq, Repr

/-- `channel as u8`. -/
def Channel.toUInt8 : Channel → UInt8
  | .Channel0 => 0b00 | .Channel1 => 0b01 | .Channel2 => 0b10 | .ReadBackCommand => 0b11

/-- `access_mode as u8`. -/
def AccessMode.toUInt8 : AccessMode → UInt8
  | .LatchCountDownValueCommand => 0b00 | .LoByteOnly => 0b01 | .HiByteOnly => 0b10
  | .LoHiByte => 0b11

/-- `operating_mode as u8`. -/
def OperatingMode.toUInt8 : OperatingMode → UInt8
  | .InterruptOnTerminalCount => 0b000 | .HardwareReTriggerableOneShot => 0b001
  | .RateGenerator => 0b010 | .SquareWaveGenerator => 0b011
  | .SoftwareTriggeredStrobe => 0b100 | .HardwareTriggeredStrobe => 0b101

/-- `data_mode as u8`. -/
def DataMode.toUInt8 : DataMode → UInt8
  | .Binary => 0 | .BCD => 1

/-- The command byte of `write_mode`. -/
def commandByte (channel : Channel) (accessMode : AccessMode) (operatingMode : OperatingMode)
    (dataMode : DataMode) : UInt8 :=
  dataMode.toUInt8 ||| (operatingMode.toUInt8 <<< 1) ||| (accessMode.toUInt8 <<< 4) |||
    (channel.toUInt8 <<< 6)

section Driver

variable {σ : Type} (bus : PortBus σ)

/-- `write_mode`. -/
def writeMode (channel : Channel) (accessMode : AccessMode) (operatingMode : OperatingMode)
    (dataMode : DataMode) : Machine σ → Unit × Machine σ :=
  withoutInterrupts fun s =>
    portWrite bus COMMAND_REG (commandByte channel accessMode operatingMode dataMode) s

/-- `read_pit_count`: the latch command `0`, then the low and the high byte. -/
def readPitCount : Machine σ → UInt16 × Machine σ :=
  withoutInterrupts fun s =>
    let ((), s) := portWrite bus COMMAND_REG 0 s
    let (countLow, s) := portRead bus CHANNEL0 s
    let (countHigh, s) := portRead bus CHANNEL0 s
    (countLow.toUInt16 ||| (countHigh.toUInt16 <<< 8), s)

/-- `set_pit_count`: the low byte, then the high byte. -/
def setPitCount (count : UInt16) : Machine σ → Unit × Machine σ :=
  withoutInterrupts fun s =>
    let ((), s) := portWrite bus CHANNEL0 (count &&& 0xff).toUInt8 s
    portWrite bus CHANNEL0 ((count &&& 0xff00) >>> 8).toUInt8 s

/-- `PIT_FREQUENCY_HZ`. -/
def PIT_FREQUENCY_HZ : ℕ := 1000

/-- `PIT_DIVIDEND`, the input clock of the timer in Hz. -/
def PIT_DIVIDEND : ℕ := 1193182

/-- The divisor `set_frequency` computes, before the cast to `u16`. -/
def divisor (frequency : ℕ) : ℕ :=
  let newDivisor := PIT_DIVIDEND / frequency
  if PIT_DIVIDEND % frequency > frequency / 2 then newDivisor + 1 else newDivisor

/-- `set_frequency`; `none` where the division by a zero frequency panics. -/
def setFrequency (frequency : ℕ) (s : Machine σ) : Option (Unit × Machine σ) :=
  if frequency = 0 then none
  else
    let ((), s) := writeMode bus .Channel0 .LoHiByte .RateGenerator .Binary s
    some (setPitCount bus (divisor frequency).toUInt16 s)

/-- `pit::init`. -/
def init (s : Machine σ) : Option (Unit × Machine σ) := setFrequency bus PIT_FREQUENCY_HZ s

/-- `write_channel0_count`. -/
def writeChannel0Count (count : UInt16) (s : Machine σ) : Unit × Machine σ :=
  let ((), s) := writeMode bus .Channel0 .LoHiByte .RateGenerator .Binary s
  setPitCount bus count s

end Driver

/-! ## Bytes of a count -/

theorem lowByte_toNat (c : UInt16) : (c &&& 0xff).toUInt8.toNat = c.toNat % 256 := by
  have h : (0xff : UInt16).toNat = 2 ^ 8 - 1 := rfl
  rw [UInt16.toNat_toUInt8, UInt16.toNat_and, h, Nat.and_two_pow_sub_one_eq_mod]
  omega

theorem highByte_toNat (c : UInt16) : ((c &&& 0xff00) >>> 8).toUInt8.toNat = c.toNat / 256 := by
  have hc := c.toNat_lt
  have h : (0xff00 : UInt16).toNat = 2 ^ 8 * (2 ^ 8 - 1) := rfl
  rw [UInt16.toNat_toUInt8, UInt16.toNat_shiftRight, UInt16.toNat_and, h,
    show (8 : UInt16).toNat % 16 = 8 from rfl, Nat.shiftRight_eq_div_pow, Nat.and_div_two_pow,
    Nat.mul_div_cancel_left _ (by norm_num), Nat.and_two_pow_sub_one_eq_mod]
  omega

/-- The word `read_pit_count` assembles from a low and a high byte. -/
theorem joinBytes_toNat (lo hi : UInt8) :
    (lo.toUInt16 ||| (hi.toUInt16 <<< 8)).toNat = hi.toNat * 256 + lo.toNat := by
  have hl := lo.toNat_lt
  have hh := hi.toNat_lt
  rw [UInt16.toNat_or, UInt16.toNat_shiftLeft, UInt8.toNat_toUInt16, UInt8.toNat_toUInt16,
    show (8 : UInt16).toNat % 16 = 8 from rfl, Nat.shiftLeft_eq, Nat.mod_eq_of_lt (by omega),
    Nat.or_comm, Nat.mul_comm, ← Nat.two_pow_add_eq_or_of_lt hl]

/-! ## The 8254 -/

/-- The access mode of bits 4 and 5 of a command, `0` to `3`. -/
def AccessMode.ofBits (n : ℕ) : AccessMode :=
  match n with
  | 0 => .LatchCountDownValueCommand
  | 1 => .LoByteOnly
  | 2 => .HiByteOnly
  | _ => .LoHiByte

/-- The operating mode of bits 1 to 3 of a command; `6` and `7` are modes 2 and 3 again. -/
def OperatingMode.ofBits (n : ℕ) : OperatingMode :=
  match n with
  | 0 => .InterruptOnTerminalCount
  | 1 => .HardwareReTriggerableOneShot
  | 2 => .RateGenerator
  | 3 => .SquareWaveGenerator
  | 4 => .SoftwareTriggeredStrobe
  | 5 => .HardwareTriggeredStrobe
  | 6 => .RateGenerator
  | _ => .SquareWaveGenerator

/-- The data mode of bit 0 of a command. -/
def DataMode.ofBits (n : ℕ) : DataMode := if n = 0 then .Binary else .BCD

/-- A counter of the 8254: its mode, the count register a new count goes to, the low byte of
a 16-bit count while the high byte is awaited, the latched value until it is read, whether the
next read is the high byte, and the counting element, which the input clock moves. -/
structure Counter where
  accessMode : AccessMode
  operatingMode : OperatingMode
  dataMode : DataMode
  count : UInt16
  lowWritten : Option UInt8
  latch : Option UInt16
  readHigh : Bool
  counter : UInt16
  deriving DecidableEq, Repr

namespace Counter

/-- A control word: the new mode, and the byte order of both directions starts over. -/
def program (c : Counter) (a : AccessMode) (m : OperatingMode) (d : DataMode) : Counter :=
  { c with
    accessMode := a, operatingMode := m, dataMode := d, lowWritten := none, latch := none,
    readHigh := false }

/-- The latch command: the counting element is held until it is read; a second latch before
that read is ignored. -/
def latchCount (c : Counter) : Counter :=
  match c.latch with
  | some _ => c
  | none => { c with latch := some c.counter }

/-- A byte written to the counter's port. -/
def writeByte (c : Counter) (b : UInt8) : Counter :=
  match c.accessMode with
  | .LoByteOnly => { c with count := b.toUInt16 }
  | .HiByteOnly => { c with count := b.toUInt16 * 256 }
  | .LoHiByte =>
    match c.lowWritten with
    | none => { c with lowWritten := some b }
    | some lo => { c with count := b.toUInt16 * 256 + lo.toUInt16, lowWritten := none }
  | .LatchCountDownValueCommand => c

/-- A byte read from the counter's port: of the latched value if there is one, else of the
counting element. -/
def readByte (c : Counter) : UInt8 × Counter :=
  let v := c.latch.getD c.counter
  match c.accessMode with
  | .LoByteOnly => ((v % 256).toUInt8, { c with latch := none })
  | .HiByteOnly => ((v / 256).toUInt8, { c with latch := none })
  | .LoHiByte =>
    if c.readHigh then ((v / 256).toUInt8, { c with readHigh := false, latch := none })
    else ((v % 256).toUInt8, { c with readHigh := true })
  | .LatchCountDownValueCommand => ((v % 256).toUInt8, c)

end Counter

/-- The 8254: three counters. -/
structure Pit8254 where
  counters : Fin 3 → Counter

namespace Pit8254

/-- The state with counter `i` replaced. -/
def set (p : Pit8254) (i : Fin 3) (c : Counter) : Pit8254 :=
  ⟨Function.update p.counters i c⟩

/-- A byte to the command register: bits 6 and 7 select the counter (`3` is the read-back
command, which this model leaves out), bits 4 and 5 the access mode (`0` latches), bits 1 to 3
the operating mode and bit 0 the data mode. -/
def writeCommand (p : Pit8254) (data : UInt8) : Pit8254 :=
  if h : data.toNat / 64 < 3 then
    let i : Fin 3 := ⟨data.toNat / 64, h⟩
    let rw := data.toNat / 16 % 4
    if rw = 0 then p.set i (p.counters i).latchCount
    else p.set i ((p.counters i).program (AccessMode.ofBits rw)
      (OperatingMode.ofBits (data.toNat / 2 % 8)) (DataMode.ofBits (data.toNat % 2)))
  else p

/-- The counter of ports `0x40` to `0x42`. -/
def counterOf (port : UInt16) : Option (Fin 3) :=
  if h : 0x40 ≤ port.toNat ∧ port.toNat < 0x43 then some ⟨port.toNat - 0x40, by omega⟩
  else none

/-- `out` to the timer's ports; other ports reach other devices. -/
def outb (p : Pit8254) (port : UInt16) (b : UInt8) : Pit8254 :=
  if port = 0x43 then p.writeCommand b
  else
    match counterOf port with
    | some i => p.set i ((p.counters i).writeByte b)
    | none => p

/-- `in` from the timer's ports. -/
def inb (p : Pit8254) (port : UInt16) : UInt8 × Pit8254 :=
  match counterOf port with
  | some i =>
    let (b, c) := (p.counters i).readByte
    (b, p.set i c)
  | none => (0xff, p)

/-- Channel 0's counting element, moved to `v` by the input clock. -/
def clockTo (p : Pit8254) (v : UInt16) : Pit8254 :=
  p.set 0 { p.counters 0 with counter := v }

/-- The timer behind the I/O ports. -/
def bus : PortBus Pit8254 := ⟨outb, inb⟩

@[simp] theorem set_counters_self (p : Pit8254) (i : Fin 3) (c : Counter) :
    (p.set i c).counters i = c := by
  simp [set]

@[simp] theorem set_set (p : Pit8254) (i : Fin 3) (c c' : Counter) :
    (p.set i c).set i c' = p.set i c' := by
  simp [set]

@[simp] theorem set_self (p : Pit8254) (i : Fin 3) : p.set i (p.counters i) = p := by
  simp [set]

end Pit8254

/-! ## The driver against the 8254 -/

/-- The command byte `write_mode` writes puts each field where the timer reads it. -/
theorem commandByte_fields (channel : Channel) (accessMode : AccessMode)
    (operatingMode : OperatingMode) (dataMode : DataMode) :
    let data := (commandByte channel accessMode operatingMode dataMode).toNat
    data / 64 = channel.toUInt8.toNat ∧ data / 16 % 4 = accessMode.toUInt8.toNat ∧
      data / 2 % 8 = operatingMode.toUInt8.toNat ∧ data % 2 = dataMode.toUInt8.toNat := by
  cases channel <;> cases accessMode <;> cases operatingMode <;> cases dataMode <;> decide

/-- The counter a channel selects; `ReadBackCommand` selects none. -/
def Channel.index : Channel → Option (Fin 3)
  | .Channel0 => some 0 | .Channel1 => some 1 | .Channel2 => some 2 | .ReadBackCommand => none

@[simp] theorem AccessMode.ofBits_toUInt8 (a : AccessMode) :
    AccessMode.ofBits a.toUInt8.toNat = a := by
  cases a <;> rfl

@[simp] theorem OperatingMode.ofBits_toUInt8 (m : OperatingMode) :
    OperatingMode.ofBits m.toUInt8.toNat = m := by
  cases m <;> rfl

@[simp] theorem DataMode.ofBits_toUInt8 (d : DataMode) : DataMode.ofBits d.toUInt8.toNat = d := by
  cases d <;> rfl

theorem Channel.toUInt8_of_index {channel : Channel} {i : Fin 3} (hi : channel.index = some i) :
    channel.toUInt8.toNat = i.val := by
  cases channel <;> cases hi <;> rfl

/-- The timer decodes what `write_mode` encodes: a control word for a counter programs that
counter with the access, operating and data modes given. -/
theorem writeCommand_commandByte (p : Pit8254) {channel : Channel} {i : Fin 3}
    (hi : channel.index = some i) {accessMode : AccessMode}
    (ha : accessMode ≠ .LatchCountDownValueCommand) (operatingMode : OperatingMode)
    (dataMode : DataMode) :
    p.writeCommand (commandByte channel accessMode operatingMode dataMode) =
      p.set i ((p.counters i).program accessMode operatingMode dataMode) := by
  obtain ⟨h64, h16, h2, h1⟩ := commandByte_fields channel accessMode operatingMode dataMode
  have hch := Channel.toUInt8_of_index hi
  have hrw : accessMode.toUInt8.toNat ≠ 0 := by
    cases accessMode
    · exact absurd rfl ha
    all_goals decide
  unfold Pit8254.writeCommand
  rw [dif_pos (by omega)]
  simp only [h16, h2, h1, hrw, if_false, AccessMode.ofBits_toUInt8,
    OperatingMode.ofBits_toUInt8, DataMode.ofBits_toUInt8]
  have hidx : ∀ h, (⟨_, h⟩ : Fin 3) = i := fun _ => Fin.ext (h64.trans hch)
  simp only [hidx]

/-- The command `write_channel0_count` and `set_frequency` write programs channel 0. -/
theorem writeCommand_rateGenerator (p : Pit8254) :
    p.writeCommand (commandByte .Channel0 .LoHiByte .RateGenerator .Binary) =
      p.set 0 ((p.counters 0).program .LoHiByte .RateGenerator .Binary) :=
  writeCommand_commandByte p rfl (by decide) _ _

/-- The two bytes of `set_pit_count` load the count into a counter waiting for a low byte. -/
theorem writeByte_setPitCount (c : Counter) (hc : c.accessMode = .LoHiByte)
    (hw : c.lowWritten = none) (count : UInt16) :
    (c.writeByte (count &&& 0xff).toUInt8).writeByte ((count &&& 0xff00) >>> 8).toUInt8 =
      { c with count := count } := by
  have hcount : ((count &&& 0xff00) >>> 8).toUInt8.toUInt16 * 256 +
      (count &&& 0xff).toUInt8.toUInt16 = count := by
    apply UInt16.toNat_inj.mp
    have := count.toNat_lt
    have h256 : (256 : UInt16).toNat = 256 := rfl
    simp only [UInt16.toNat_add, UInt16.toNat_mul, UInt8.toNat_toUInt16, highByte_toNat,
      lowByte_toNat, h256]
    omega
  simp only [Counter.writeByte, hc, hw]
  rw [hcount]

/-- `write_channel0_count`, from every machine: channel 0 counts in rate-generator mode, binary,
with lo/hi access and the count given; nothing is latched or half written; the other counters
and the interrupt flag are as before. -/
theorem writeChannel0Count_programs (s : Machine Pit8254) (count : UInt16) :
    (writeChannel0Count Pit8254.bus count s).2 =
      { s with devices := s.devices.set 0 { s.devices.counters 0 with
          accessMode := .LoHiByte, operatingMode := .RateGenerator, dataMode := .Binary,
          count := count, lowWritten := none, latch := none, readHigh := false } } := by
  simp only [writeChannel0Count, writeMode, setPitCount]
  rw [withoutInterrupts_eq (fun _ _ => rfl), withoutInterrupts_eq (fun _ _ => rfl)]
  simp only [portWrite, Pit8254.bus, Pit8254.outb, COMMAND_REG, CHANNEL0, if_true,
    writeCommand_rateGenerator]
  have hport : Pit8254.counterOf 0x40 = some 0 := rfl
  simp only [show ((0x40 : UInt16) = 0x43) = False by decide, if_false, hport,
    Pit8254.set_counters_self, Pit8254.set_set]
  rw [writeByte_setPitCount _ rfl rfl]
  rfl

/-- The bytes of a value, low then high, joined as `read_pit_count` joins them. -/
theorem joinBytes_split (v : UInt16) :
    (v % 256).toUInt8.toUInt16 ||| ((v / 256).toUInt8.toUInt16 <<< 8) = v := by
  apply UInt16.toNat_inj.mp
  have := v.toNat_lt
  rw [joinBytes_toNat, UInt16.toNat_toUInt8, UInt16.toNat_toUInt8, UInt16.toNat_mod,
    UInt16.toNat_div]
  have h256 : (256 : UInt16).toNat = 256 := rfl
  rw [h256]
  omega

/-- A latch and two reads of a counter in lo/hi access, with nothing latched and the byte
order at the low byte: the low and the high byte of the counting element, and the counter as
it was. -/
theorem readByte_readByte_latchCount (c : Counter) (hc : c.accessMode = .LoHiByte)
    (hl : c.latch = none) (hr : c.readHigh = false) :
    c.latchCount.readByte.1 = (c.counter % 256).toUInt8 ∧
      c.latchCount.readByte.2.readByte.1 = (c.counter / 256).toUInt8 ∧
      c.latchCount.readByte.2.readByte.2 = c := by
  obtain ⟨a, m, d, count, w, l, r, v⟩ := c
  simp only at hc hl hr
  subst hc hl hr
  simp [Counter.latchCount, Counter.readByte]

/-- `read_pit_count` on channel 0 in lo/hi access, with nothing latched and the byte order at
the low byte: it returns the counting element and leaves the machine as it was. -/
theorem readPitCount_latched (s : Machine Pit8254)
    (hc : (s.devices.counters 0).accessMode = .LoHiByte)
    (hl : (s.devices.counters 0).latch = none) (hr : (s.devices.counters 0).readHigh = false) :
    readPitCount Pit8254.bus s = ((s.devices.counters 0).counter, s) := by
  obtain ⟨hlo, hhi, hback⟩ := readByte_readByte_latchCount _ hc hl hr
  unfold readPitCount
  rw [withoutInterrupts_eq (fun _ _ => rfl)]
  have hcmd : Pit8254.outb s.devices COMMAND_REG 0 =
      s.devices.set 0 (s.devices.counters 0).latchCount := rfl
  have hport : Pit8254.counterOf CHANNEL0 = some 0 := rfl
  simp only [portWrite, portRead, Pit8254.bus, hcmd, Pit8254.inb, hport,
    Pit8254.set_counters_self, Pit8254.set_set]
  rw [hlo, hhi, hback, joinBytes_split, Pit8254.set_self]

/-- The PIT protocol of the driver, from every machine: after `write_channel0_count(count)`
channel 0 runs in rate-generator mode with `count` in its count register, and whatever value
`v` the input clock has brought its counting element to, `read_pit_count` returns `v` and
leaves the machine as it was. -/
theorem writeChannel0Count_readPitCount (s : Machine Pit8254) (count v : UInt16) :
    let s' := (writeChannel0Count Pit8254.bus count s).2
    let s'' := { s' with devices := s'.devices.set 0 { s'.devices.counters 0 with counter := v } }
    (s'.devices.counters 0).operatingMode = .RateGenerator ∧
      (s'.devices.counters 0).count = count ∧ readPitCount Pit8254.bus s'' = (v, s'') := by
  intro s' s''
  have hs' : s' = _ := writeChannel0Count_programs s count
  have hc : s''.devices.counters 0 = { s'.devices.counters 0 with counter := v } :=
    Pit8254.set_counters_self _ _ _
  refine ⟨by simp [hs'], by simp [hs'], ?_⟩
  rw [readPitCount_latched s'' (by simp [hc, hs']) (by simp [hc, hs']) (by simp [hc, hs']), hc]

/-! ## The divisor of `set_frequency` -/

/-- The divisor is the nearest integer to `PIT_DIVIDEND / frequency`, a tie rounded down: it
lies in `[PIT_DIVIDEND / frequency - 1/2, PIT_DIVIDEND / frequency + 1/2)`. -/
theorem divisor_nearest {frequency : ℕ} (hf : 0 < frequency) :
    2 * PIT_DIVIDEND ≤ 2 * (divisor frequency * frequency) + frequency ∧
      2 * (divisor frequency * frequency) < 2 * PIT_DIVIDEND + frequency := by
  have hdm := Nat.div_add_mod' PIT_DIVIDEND frequency
  have hr := Nat.mod_lt PIT_DIVIDEND hf
  dsimp only [divisor]
  split
  · -- the remainder is past half the frequency: rounded up
    rw [Nat.add_mul, Nat.one_mul]
    omega
  · omega

/-- The divisor is the whole quotient or one more. -/
theorem divisor_bounds (frequency : ℕ) :
    PIT_DIVIDEND / frequency ≤ divisor frequency ∧
      divisor frequency ≤ PIT_DIVIDEND / frequency + 1 := by
  dsimp only [divisor]
  split <;> omega

/-- The divisor fits the 16-bit count register exactly from 19 Hz up. -/
theorem divisor_lt_iff {frequency : ℕ} (hf : 0 < frequency) :
    divisor frequency < 65536 ↔ 19 ≤ frequency := by
  obtain ⟨hle, hup⟩ := divisor_bounds frequency
  constructor
  · intro h
    by_contra hlt
    have : PIT_DIVIDEND / 18 ≤ PIT_DIVIDEND / frequency := Nat.div_le_div_left (by omega) hf
    have h18 : PIT_DIVIDEND / 18 = 66287 := rfl
    omega
  · intro h
    have : PIT_DIVIDEND / frequency ≤ PIT_DIVIDEND / 19 := Nat.div_le_div_left h (by norm_num)
    have h19 : PIT_DIVIDEND / 19 = 62799 := rfl
    omega

example : divisor PIT_FREQUENCY_HZ = 1193 := by decide

/-- `set_frequency`, from every machine: a zero frequency panics in the division. Any other
programs channel 0 as `write_channel0_count` does, with the divisor cast to `u16`. The divisor
is the nearest integer to `PIT_DIVIDEND / frequency`, a tie rounded down, and the cast keeps it
exactly when the frequency is at least 19 Hz. -/
theorem setFrequency_divisor (s : Machine Pit8254) (frequency : ℕ) :
    (frequency = 0 → setFrequency Pit8254.bus frequency s = none) ∧
      (0 < frequency →
        setFrequency Pit8254.bus frequency s = some ((), { s with
          devices := s.devices.set 0 { s.devices.counters 0 with
            accessMode := .LoHiByte, operatingMode := .RateGenerator, dataMode := .Binary,
            count := (divisor frequency).toUInt16, lowWritten := none, latch := none,
            readHigh := false } }) ∧
        2 * PIT_DIVIDEND ≤ 2 * (divisor frequency * frequency) + frequency ∧
        2 * (divisor frequency * frequency) < 2 * PIT_DIVIDEND + frequency ∧
        ((divisor frequency).toUInt16.toNat = divisor frequency ↔ 19 ≤ frequency)) := by
  constructor
  · intro h0
    simp [setFrequency, h0]
  · intro hf
    have hset : setFrequency Pit8254.bus frequency s =
        some (writeChannel0Count Pit8254.bus (divisor frequency).toUInt16 s) := by
      simp [setFrequency, writeChannel0Count, Nat.pos_iff_ne_zero.mp hf]
    have hcast : (divisor frequency).toUInt16.toNat = divisor frequency % 65536 :=
      UInt16.toNat_ofNat
    obtain ⟨hlo, hhi⟩ := divisor_nearest hf
    refine ⟨?_, hlo, hhi, ?_⟩
    · rw [hset, ← writeChannel0Count_programs]
    · rw [hcast, Nat.mod_eq_iff_lt (by norm_num), divisor_lt_iff hf]

end LeafOS.Pit
