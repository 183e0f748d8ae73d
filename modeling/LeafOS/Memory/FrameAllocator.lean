import Mathlib
import LeafOS.Lib.Footprint

/-!
# The boot-info frame allocator

`memory.rs` hands out the usable frames of the bootloader's memory map one by one: each call
of `allocate_frame` rebuilds the iterator of usable frames and takes its `next`-th element,
then advances `next`, whatever it found.

1. `FrameRange`, `MemoryRegion`, `MemoryMap`: the bootloader 0.9 types. `PhysFrame`, `Page`,
   `X86_64`: the `x86_64` crate's frame and page types, and the functions of the crate the
   kernel calls on them, with the behaviour the crate documents; `PhysAddr::new` panics on an
   address of more than 52 bits.
2. `usableFrames`, `allocateFrame`, `allocateFrames`: the iterator pipeline and the calls, as
   the source has them.
3. `frames`: the usable frames in map order, by frame number; `usableFrames_eq` shows the
   pipeline computes them on a map of physical addresses.
4. `allocateFrames_eq`: the `k`-th call returns the `k`-th frame; `frames_nodup`,
   `frames_inside`: on a map of disjoint regions no frame comes twice, and each lies inside a
   usable region.
5. `allocateFrame_kth_frame`: the same from `init`, for a map whose usable regions end within
   52 bits. `allocateFrame_high_map_panics`: on a usable region above them the first call
   panics instead.
-/

namespace LeafOS.Memory

open Footprint

/-- The frame size of bootloader 0.9, `PAGE_SIZE`. -/
def PAGE_SIZE : ℕ := 4096

/-- `bootloader::bootinfo::FrameRange`: the frames from `start_frame_number` up to
`end_frame_number`, exclusive. -/
structure FrameRange where
  startFrameNumber : ℕ
  endFrameNumber : ℕ
  deriving DecidableEq

/-- `FrameRange::start_addr`. -/
def FrameRange.startAddr (r : FrameRange) : ℕ := r.startFrameNumber * PAGE_SIZE

/-- `FrameRange::end_addr`. -/
def FrameRange.endAddr (r : FrameRange) : ℕ := r.endFrameNumber * PAGE_SIZE

/-- `bootloader::bootinfo::MemoryRegionType`. -/
inductive MemoryRegionType where
  | Usable | InUse | Reserved | AcpiReclaimable | AcpiNvs | BadMemory | Kernel | KernelStack
  | PageTable | Bootloader | FrameZero | Empty | BootInfo | Package
  | UnknownUefi (n : ℕ) | UnknownBios (n : ℕ)
  deriving DecidableEq

/-- `bootloader::bootinfo::MemoryRegion`. -/
structure MemoryRegion where
  range : FrameRange
  regionType : MemoryRegionType
  deriving DecidableEq

/-- `MemoryMap`, as the regions its `iter` yields, in order. -/
abbrev MemoryMap := List MemoryRegion

/-- `x86_64::PhysFrame`: a 4 KiB frame by its start address. -/
structure PhysFrame where
  startAddress : ℕ
  deriving DecidableEq

/-- `x86_64::structures::paging::Page<Size4KiB>`, by its start address. -/
structure Page where
  startAddress : ℕ
  deriving DecidableEq, Repr

/-- What the kernel calls of the `x86_64` crate on addresses, frames and pages, with the
behaviour the crate documents for them; the model takes nothing else from the crate. -/
structure X86_64 where
  /-- `PhysAddr::new`: `none` where it panics. -/
  physAddrNew : ℕ → Option ℕ
  /-- `PhysFrame::containing_address`. -/
  physFrameContainingAddress : ℕ → PhysFrame
  /-- `Page::containing_address`. -/
  pageContainingAddress : ℕ → Page
  /-- `Page::range_inclusive`, as the pages its iterator yields. -/
  pageRangeInclusive : Page → Page → List Page
  /-- `PhysAddr::new` keeps an address that fits in 52 bits ... -/
  physAddrNew_of_lt : ∀ addr, addr < 2 ^ 52 → physAddrNew addr = some addr
  /-- ... and panics "if a bit in the range 52 to 64 is set". -/
  physAddrNew_of_ge : ∀ addr, 2 ^ 52 ≤ addr → physAddrNew addr = none
  /-- "Returns the frame that contains the given physical address." -/
  physFrameContainingAddress_contains : ∀ addr,
    (physFrameContainingAddress addr).startAddress % PAGE_SIZE = 0 ∧
      (physFrameContainingAddress addr).startAddress ≤ addr ∧
        addr < (physFrameContainingAddress addr).startAddress + PAGE_SIZE
  /-- "Returns the page that contains the given virtual address." -/
  pageContainingAddress_contains : ∀ addr,
    (pageContainingAddress addr).startAddress % PAGE_SIZE = 0 ∧
      (pageContainingAddress addr).startAddress ≤ addr ∧
        addr < (pageContainingAddress addr).startAddress + PAGE_SIZE
  /-- "Returns a range of pages, inclusive `end`": from page `start` one page after another up
  to page `end`, none if `end` comes before `start`. -/
  pageRangeInclusive_eq : ∀ start stop, start.startAddress % PAGE_SIZE = 0 →
    stop.startAddress % PAGE_SIZE = 0 →
    pageRangeInclusive start stop =
      (List.range' (start.startAddress / PAGE_SIZE)
        (stop.startAddress / PAGE_SIZE + 1 - start.startAddress / PAGE_SIZE)).map
          fun n => ⟨n * PAGE_SIZE⟩

/-- An aligned start below an address and less than a page from it is the address aligned
down. -/
theorem aligned_start_eq {start addr : ℕ} (h : start % PAGE_SIZE = 0 ∧ start ≤ addr ∧
    addr < start + PAGE_SIZE) : start = addr / PAGE_SIZE * PAGE_SIZE := by
  simp only [PAGE_SIZE] at h ⊢
  omega

namespace X86_64

variable (x : X86_64)

theorem physFrameContainingAddress_startAddress (addr : ℕ) :
    (x.physFrameContainingAddress addr).startAddress = addr / PAGE_SIZE * PAGE_SIZE :=
  aligned_start_eq (x.physFrameContainingAddress_contains addr)

theorem pageContainingAddress_startAddress (addr : ℕ) :
    (x.pageContainingAddress addr).startAddress = addr / PAGE_SIZE * PAGE_SIZE :=
  aligned_start_eq (x.pageContainingAddress_contains addr)

end X86_64

/-- `(start..end).step_by(step)` for a positive step. -/
def stepBy (start stop step : ℕ) : List ℕ :=
  List.range' start ((stop - start + step - 1) / step) step

/-- `Iterator::nth` over an iterator whose elements may panic when computed (`none`): the
elements before the `n`-th are computed too, and the first panic ends the call (outer `none`);
an exhausted iterator gives `some none`. -/
def nthOrPanic {α : Type} : List (Option α) → ℕ → Option (Option α)
  | [], _ => some none
  | x :: _, 0 => x.map some
  | x :: xs, n + 1 => x.bind fun _ => nthOrPanic xs n

/-- `BootInfoFrameAllocator`. -/
structure BootInfoFrameAllocator where
  memoryMap : MemoryMap
  next : ℕ

namespace BootInfoFrameAllocator

variable (x : X86_64)

/-- `BootInfoFrameAllocator::init`. -/
def init (memoryMap : MemoryMap) : BootInfoFrameAllocator := ⟨memoryMap, 0⟩

/-- `usable_frames`: the usable regions, their address ranges, every 4096th address of each,
and the frame of each address. -/
def usableFrames (a : BootInfoFrameAllocator) : List (Option PhysFrame) :=
  let usableRegions := a.memoryMap.filter fun r => r.regionType = .Usable
  let addrRanges := usableRegions.map fun r => (r.range.startAddr, r.range.endAddr)
  let frameAddresses := addrRanges.flatMap fun r => stepBy r.1 r.2 4096
  frameAddresses.map fun addr => (x.physAddrNew addr).map x.physFrameContainingAddress

/-- `allocate_frame`: the `next`-th usable frame, and `next` advances; `none` if it panics. -/
def allocateFrame (a : BootInfoFrameAllocator) :
    Option (Option PhysFrame × BootInfoFrameAllocator) := do
  let frame ← nthOrPanic (a.usableFrames x) a.next
  pure (frame, { a with next := a.next + 1 })

/-- `n` calls of `allocate_frame`: what each returns, in order; `none` if one panics. -/
def allocateFrames (a : BootInfoFrameAllocator) :
    ℕ → Option (List (Option PhysFrame) × BootInfoFrameAllocator)
  | 0 => some ([], a)
  | n + 1 => do
    let (frame, a) ← a.allocateFrame x
    let (frames, a) ← a.allocateFrames n
    pure (frame :: frames, a)

end BootInfoFrameAllocator

/-! ## The usable frames -/

/-- The frames of the usable regions in map order: region by region, frame by frame. -/
def frames (map : MemoryMap) : List PhysFrame :=
  (map.filter fun r => r.regionType = .Usable).flatMap fun r =>
    (List.range' r.range.startFrameNumber
      (r.range.endFrameNumber - r.range.startFrameNumber)).map fun n => ⟨n * PAGE_SIZE⟩

theorem range'_mul (s n step : ℕ) :
    List.range' (s * step) n step = (List.range' s n).map (· * step) := by
  induction n generalizing s with
  | zero => rfl
  | succ n ih =>
    rw [List.range'_succ, List.range'_succ, List.map_cons, ← ih, Nat.succ_mul]

/-- The addresses `step_by` yields over a range of frames are the frames' start addresses. -/
theorem stepBy_frameRange (r : FrameRange) :
    stepBy r.startAddr r.endAddr 4096 =
      (List.range' r.startFrameNumber (r.endFrameNumber - r.startFrameNumber)).map (· * 4096) := by
  have hcount : (r.endAddr - r.startAddr + 4096 - 1) / 4096 =
      r.endFrameNumber - r.startFrameNumber := by
    simp only [FrameRange.endAddr, FrameRange.startAddr, PAGE_SIZE, ← Nat.sub_mul]
    omega
  rw [stepBy, hcount, FrameRange.startAddr, PAGE_SIZE, range'_mul]

/-- On a map whose usable regions end within 52 bits, no step of the pipeline panics and it
yields exactly the usable frames. -/
theorem usableFrames_eq (x : X86_64) (a : BootInfoFrameAllocator)
    (hphys : ∀ r ∈ a.memoryMap, r.regionType = .Usable → r.range.endAddr ≤ 2 ^ 52) :
    a.usableFrames x = (frames a.memoryMap).map some := by
  simp only [BootInfoFrameAllocator.usableFrames, frames, List.flatMap_map, List.map_flatMap]
  refine List.flatMap_congr fun r hr => ?_
  obtain ⟨hmem, husable⟩ := List.mem_filter.mp hr
  have hend := hphys r hmem (by simpa using husable)
  rw [stepBy_frameRange, List.map_map, List.map_map]
  refine List.map_congr_left fun n hn => ?_
  have hlt : n * 4096 < 2 ^ 52 := by
    have := List.mem_range'_1.mp hn
    simp only [FrameRange.endAddr, PAGE_SIZE] at hend
    omega
  have hframe : (x.physFrameContainingAddress (n * 4096)).startAddress = n * PAGE_SIZE := by
    rw [x.physFrameContainingAddress_startAddress, PAGE_SIZE, Nat.mul_div_cancel _ (by norm_num)]
  show (x.physAddrNew (n * 4096)).map x.physFrameContainingAddress = some ⟨n * PAGE_SIZE⟩
  rw [x.physAddrNew_of_lt _ hlt, Option.map_some, ← hframe]

theorem nthOrPanic_map_some {α : Type} (l : List α) (n : ℕ) :
    nthOrPanic (l.map some) n = some l[n]? := by
  induction l generalizing n with
  | nil => rfl
  | cons x xs ih =>
    cases n with
    | zero => rfl
    | succ n => simp [nthOrPanic, ih]

/-- The `k`-th call returns the `k`-th frame, or `none` past the last, and advances `next`. -/
theorem allocateFrame_eq (x : X86_64) (map : MemoryMap)
    (hphys : ∀ r ∈ map, r.regionType = .Usable → r.range.endAddr ≤ 2 ^ 52) (k : ℕ) :
    BootInfoFrameAllocator.allocateFrame x ⟨map, k⟩ = some ((frames map)[k]?, ⟨map, k + 1⟩) := by
  simp [BootInfoFrameAllocator.allocateFrame, usableFrames_eq x ⟨map, k⟩ hphys,
    nthOrPanic_map_some]

/-- From the `k`-th call on, `n` calls return the frames `k` to `k + n - 1`, or `none` past
the last, and leave `next` at `k + n`. -/
theorem allocateFrames_eq (x : X86_64) (map : MemoryMap)
    (hphys : ∀ r ∈ map, r.regionType = .Usable → r.range.endAddr ≤ 2 ^ 52) (k n : ℕ) :
    BootInfoFrameAllocator.allocateFrames x ⟨map, k⟩ n =
      some ((List.range' k n).map fun j => (frames map)[j]?, ⟨map, k + n⟩) := by
  induction n generalizing k with
  | zero => rfl
  | succ n ih =>
    have hnext : k + 1 + n = k + (n + 1) := by omega
    simp [BootInfoFrameAllocator.allocateFrames, allocateFrame_eq x map hphys, ih,
      List.range'_succ, hnext]

/-! ## No frame twice, each inside a usable region -/

/-- The addresses of a region. -/
def regionSpan (r : MemoryRegion) : Set ℕ := Set.Ico r.range.startAddr r.range.endAddr

theorem frame_mem_regionSpan {r : MemoryRegion} {n : ℕ}
    (hn : n ∈ List.range' r.range.startFrameNumber
      (r.range.endFrameNumber - r.range.startFrameNumber)) :
    r.range.startAddr ≤ n * PAGE_SIZE ∧ n * PAGE_SIZE + PAGE_SIZE ≤ r.range.endAddr := by
  have := List.mem_range'_1.mp hn
  simp only [FrameRange.startAddr, FrameRange.endAddr, PAGE_SIZE]
  omega

/-- Every usable frame lies inside a usable region. -/
theorem frames_inside (map : MemoryMap) {f : PhysFrame} (hf : f ∈ frames map) :
    ∃ r ∈ map, r.regionType = .Usable ∧ r.range.startAddr ≤ f.startAddress ∧
      f.startAddress + PAGE_SIZE ≤ r.range.endAddr := by
  obtain ⟨r, hr, hfr⟩ := List.mem_flatMap.mp hf
  obtain ⟨hmem, husable⟩ := List.mem_filter.mp hr
  obtain ⟨n, hn, rfl⟩ := List.mem_map.mp hfr
  exact ⟨r, hmem, by simpa using husable, frame_mem_regionSpan hn⟩

/-- On a map of pairwise disjoint regions, no usable frame comes twice. -/
theorem frames_nodup (map : MemoryMap) (hsep : Separate regionSpan map) :
    (frames map).Nodup := by
  rw [frames, List.nodup_flatMap]
  constructor
  · intro r _
    refine List.Nodup.map (fun m n h => ?_) List.nodup_range'
    have := congrArg PhysFrame.startAddress h
    simp only [PAGE_SIZE] at this
    omega
  · -- frames of two regions lie in the regions, which are disjoint
    refine (hsep.sublist List.filter_sublist).imp fun {r s} hrs => ?_
    rw [Function.onFun, List.disjoint_left]
    intro f hfr hfs
    obtain ⟨m, hm, rfl⟩ := List.mem_map.mp hfr
    obtain ⟨n, hn, hmn⟩ := List.mem_map.mp hfs
    have hr := frame_mem_regionSpan hm
    have hs := frame_mem_regionSpan hn
    have heq : n * PAGE_SIZE = m * PAGE_SIZE := congrArg PhysFrame.startAddress hmn
    have hpage : 0 < PAGE_SIZE := by decide
    have hin_r : m * PAGE_SIZE ∈ regionSpan r := ⟨hr.1, by omega⟩
    have hin_s : m * PAGE_SIZE ∈ regionSpan s := ⟨heq ▸ hs.1, by omega⟩
    exact Set.disjoint_left.mp hrs hin_r hin_s

/-! ## Each usable frame at most once -/

/-- For every memory map of pairwise disjoint regions whose usable regions lie below `2 ^ 52`,
and any number `n` of `allocate_frame` calls after `init`: no call panics, and the `k`-th call
returns the `k`-th usable frame in map order, or `none` once they are used up. Two calls never
return the same frame, each returned frame lies inside a usable region, and after a call
returns `none` every later call does. -/
theorem allocateFrame_kth_frame (x : X86_64) (map : MemoryMap) (hsep : Separate regionSpan map)
    (hphys : ∀ r ∈ map, r.regionType = .Usable → r.range.endAddr ≤ 2 ^ 52) (n : ℕ) :
    BootInfoFrameAllocator.allocateFrames x (BootInfoFrameAllocator.init map) n =
        some ((List.range n).map fun k => (frames map)[k]?, ⟨map, n⟩) ∧
      (∀ j < n, ∀ k < n, ∀ f, (frames map)[j]? = some f → (frames map)[k]? = some f → j = k) ∧
      (∀ k < n, ∀ f, (frames map)[k]? = some f → ∃ r ∈ map, r.regionType = .Usable ∧
        r.range.startAddr ≤ f.startAddress ∧ f.startAddress + PAGE_SIZE ≤ r.range.endAddr) ∧
      (∀ j k : ℕ, j ≤ k → (frames map)[j]? = none → (frames map)[k]? = none) := by
  have hnd := frames_nodup map hsep
  refine ⟨?_, ?_, ?_, ?_⟩
  · have := allocateFrames_eq x map hphys 0 n
    rwa [Nat.zero_add, ← List.range_eq_range'] at this
  · intro j _ k _ f hj hk
    obtain ⟨hjlt, hjf⟩ := List.getElem?_eq_some_iff.mp hj
    obtain ⟨hklt, hkf⟩ := List.getElem?_eq_some_iff.mp hk
    exact (List.Nodup.getElem_inj_iff hnd).mp (hjf.trans hkf.symm)
  · intro k _ f hk
    exact frames_inside map (List.mem_of_getElem? hk)
  · intro j k hjk hj
    rw [List.getElem?_eq_none_iff] at hj ⊢
    omega

/-- The crate's own functions, as `x86_64` 0.14 computes them on addresses that fit in 64 bits;
they keep the contract. -/
def X86_64.crate : X86_64 where
  physAddrNew addr := if addr < 2 ^ 52 then some addr else none
  physFrameContainingAddress addr := ⟨addr / PAGE_SIZE * PAGE_SIZE⟩
  pageContainingAddress addr := ⟨addr / PAGE_SIZE * PAGE_SIZE⟩
  pageRangeInclusive start stop :=
    (List.range' (start.startAddress / PAGE_SIZE)
      (stop.startAddress / PAGE_SIZE + 1 - start.startAddress / PAGE_SIZE)).map
        fun n => ⟨n * PAGE_SIZE⟩
  physAddrNew_of_lt addr h := if_pos h
  physAddrNew_of_ge addr h := if_neg (Nat.not_lt.mpr h)
  physFrameContainingAddress_contains addr := by
    simp only [PAGE_SIZE]
    omega
  pageContainingAddress_contains addr := by
    simp only [PAGE_SIZE]
    omega
  pageRangeInclusive_eq _ _ _ _ := rfl

theorem allocateFrame_kth_frame_boot_map :
    let map : MemoryMap :=
      [⟨⟨0, 1⟩, .FrameZero⟩, ⟨⟨1, 3⟩, .Usable⟩, ⟨⟨3, 5⟩, .Kernel⟩, ⟨⟨5, 6⟩, .Usable⟩]
    Separate regionSpan map ∧ (∀ r ∈ map, r.regionType = .Usable → r.range.endAddr ≤ 2 ^ 52) ∧
      BootInfoFrameAllocator.allocateFrames X86_64.crate (BootInfoFrameAllocator.init map) 4 =
        some ([some ⟨4096⟩, some ⟨8192⟩, some ⟨20480⟩, none], ⟨map, 4⟩) := by
  intro map
  have hsep : Separate regionSpan map := by
    simp [map, Separate, regionSpan, Set.Ico_disjoint_Ico, FrameRange.startAddr,
      FrameRange.endAddr, PAGE_SIZE]
  have hphys : ∀ r ∈ map, r.regionType = .Usable → r.range.endAddr ≤ 2 ^ 52 := by decide
  exact ⟨hsep, hphys, (allocateFrame_kth_frame X86_64.crate map hsep hphys 4).1.trans rfl⟩

/-- A map of one usable frame, the first beyond 52 bits: the frame is the map's first usable
frame, but the first `allocate_frame` call panics in `PhysAddr::new` instead of returning it. -/
theorem allocateFrame_high_map_panics :
    let map : MemoryMap := [⟨⟨2 ^ 40, 2 ^ 40 + 1⟩, .Usable⟩]
    Separate regionSpan map ∧ frames map = [⟨2 ^ 52⟩] ∧
      BootInfoFrameAllocator.allocateFrames X86_64.crate (BootInfoFrameAllocator.init map) 1 =
        none := by
  intro map
  refine ⟨by simp [map, Separate], by decide, by decide⟩

end LeafOS.Memory
