import LeafOS.Memory.FrameAllocator

/-!
# Mapping the kernel heap

`allocators::init_heap` maps the pages of the kernel heap, `HEAP_SIZE` bytes from
`HEAP_START`, one at a time. For each page it takes a frame from the frame allocator and has the
mapper map the page to it; the mapper takes further frames from the same allocator for the page
tables it creates. `memory::setup` runs it with the boot-info frame allocator fresh from `init`.

1. `heapPages`: `Page::range_inclusive` from the page of the first heap byte to the page of
   the last; `mem_heapPages`: every heap byte lies in one of them.
2. `Mapper`: what `init_heap` relies on of `OffsetPageTable::map_to`. It takes frames only
   through `allocate_frame`, maps the page to the frame given and leaves other pages alone.
3. `initHeapLoop`, `initHeap`: the loop as the source has it, `?` returning the first error.
4. `initHeap_frames`: on a map of disjoint regions whose usable regions end within 52 bits
   `init_heap` never panics. When it succeeds, every heap byte is mapped to a frame of a usable
   region that no other heap page and no page table got.
-/

namespace LeafOS.Memory

open Footprint

/-- `HEAP_START`. -/
def HEAP_START : ℕ := 0x444444440000

/-- `HEAP_SIZE`, 1000 KiB. -/
def HEAP_SIZE : ℕ := 1000 * 1024

/-- The `page_range` of `init_heap`. -/
def heapPages (x : X86_64) : List Page :=
  let heapStart := HEAP_START
  let heapEnd := heapStart + HEAP_SIZE - 1
  x.pageRangeInclusive (x.pageContainingAddress heapStart) (x.pageContainingAddress heapEnd)

/-- `MapToError`. -/
inductive MapToError where
  | FrameAllocationFailed
  | ParentEntryHugePage
  | PageAlreadyMapped (frame : PhysFrame)
  deriving DecidableEq

/-- What `init_heap` relies on of the mapper, over the mapper's state `M`: the frame each page
translates to, and `map_to`. A `map_to` that succeeds takes frames from the allocator only
through `allocate_frame`, so it moves `next` forward over the same map. It maps the page to the
frame given, and every other page translates as before. -/
structure Mapper (M : Type) where
  translate : M → Page → Option PhysFrame
  mapTo : M → Page → PhysFrame → BootInfoFrameAllocator →
    Except MapToError (M × BootInfoFrameAllocator)
  mapTo_ok : ∀ m page frame a m' a', mapTo m page frame a = .ok (m', a') →
    a'.memoryMap = a.memoryMap ∧ a.next ≤ a'.next ∧ translate m' page = some frame ∧
      ∀ q, q ≠ page → translate m' q = translate m q

section

variable (x : X86_64) {M : Type} (mapper : Mapper M)

/-- The loop of `init_heap` over `pages`: a frame from the allocator, then `map_to`; the first
error ends it. `none` where `allocate_frame` panics. -/
def initHeapLoop : List Page → M → BootInfoFrameAllocator →
    Option (Except MapToError (M × BootInfoFrameAllocator))
  | [], m, a => some (.ok (m, a))
  | page :: pages, m, a => do
    let (frame, a) ← a.allocateFrame x
    match frame with
    | none => pure (.error .FrameAllocationFailed)
    | some frame =>
      match mapper.mapTo m page frame a with
      | .error e => pure (.error e)
      | .ok (m, a) => initHeapLoop pages m a

/-- `init_heap`, up to `ALLOCATOR.lock().init`, which hands the mapped heap to the global
allocator. -/
def initHeap (m : M) (a : BootInfoFrameAllocator) :
    Option (Except MapToError (M × BootInfoFrameAllocator)) :=
  initHeapLoop x mapper (heapPages x) m a

/-! ## The heap's pages -/

/-- The pages `init_heap` maps, one after another from the page of `HEAP_START`. -/
theorem heapPages_eq : heapPages x =
    (List.range' (HEAP_START / PAGE_SIZE)
      ((HEAP_START + HEAP_SIZE - 1) / PAGE_SIZE + 1 - HEAP_START / PAGE_SIZE)).map
        fun n => ⟨n * PAGE_SIZE⟩ := by
  have hstart := x.pageContainingAddress_contains HEAP_START
  have hend := x.pageContainingAddress_contains (HEAP_START + HEAP_SIZE - 1)
  rw [heapPages, x.pageRangeInclusive_eq _ _ hstart.1 hend.1,
    x.pageContainingAddress_startAddress, x.pageContainingAddress_startAddress,
    Nat.mul_div_cancel _ (by decide), Nat.mul_div_cancel _ (by decide)]

/-- Every byte of the heap lies in one of the pages `init_heap` maps. -/
theorem mem_heapPages {addr : ℕ} (h1 : HEAP_START ≤ addr) (h2 : addr < HEAP_START + HEAP_SIZE) :
    x.pageContainingAddress addr ∈ heapPages x := by
  have hpage : x.pageContainingAddress addr = ⟨addr / PAGE_SIZE * PAGE_SIZE⟩ := by
    rw [← x.pageContainingAddress_startAddress]
  rw [heapPages_eq, hpage, List.mem_map]
  refine ⟨addr / PAGE_SIZE, List.mem_range'_1.mpr ⟨?_, ?_⟩, rfl⟩ <;>
    simp only [HEAP_START, HEAP_SIZE, PAGE_SIZE] at h1 h2 ⊢ <;> omega

theorem heapPages_nodup : (heapPages x).Nodup := by
  rw [heapPages_eq]
  refine List.Nodup.map (fun m n h => ?_) List.nodup_range'
  have := congrArg Page.startAddress h
  simp only [PAGE_SIZE] at this
  omega

/-! ## The loop -/

variable {map : MemoryMap} (hphys : ∀ r ∈ map, r.regionType = .Usable → r.range.endAddr ≤ 2 ^ 52)
include hphys

/-- On a map of physical addresses the loop never panics, from any allocator state over it. -/
theorem initHeapLoop_ne_none (pages : List Page) (m : M) (k : ℕ) :
    initHeapLoop x mapper pages m ⟨map, k⟩ ≠ none := by
  induction pages generalizing m k with
  | nil => simp [initHeapLoop]
  | cons page pages ih =>
    simp only [initHeapLoop, allocateFrame_eq x map hphys, Option.bind_eq_bind, Option.bind_some]
    cases (frames map)[k]? with
    | none => simp
    | some frame =>
      simp only
      cases hmap : mapper.mapTo m page frame ⟨map, k + 1⟩ with
      | error e => simp
      | ok r =>
        obtain ⟨m', a'⟩ := r
        obtain ⟨hmm, -⟩ := mapper.mapTo_ok _ _ _ _ _ _ hmap
        obtain ⟨map', k'⟩ := a'
        simp only at hmm
        rw [hmm]
        exact ih m' k'

/-- One step of a successful loop: the frame at index `k` was taken, `map_to` mapped the page to
it, and the rest of the loop ran from the mapper and allocator `map_to` left. -/
theorem initHeapLoop_cons_ok {page : Page} {pages : List Page} {m m' : M} {k : ℕ}
    {a' : BootInfoFrameAllocator}
    (h : initHeapLoop x mapper (page :: pages) m ⟨map, k⟩ = some (.ok (m', a'))) :
    ∃ frame m1 k1, (frames map)[k]? = some frame ∧
      mapper.mapTo m page frame ⟨map, k + 1⟩ = .ok (m1, ⟨map, k1⟩) ∧
      initHeapLoop x mapper pages m1 ⟨map, k1⟩ = some (.ok (m', a')) := by
  simp only [initHeapLoop, allocateFrame_eq x map hphys, Option.bind_eq_bind,
    Option.bind_some] at h
  cases hk : (frames map)[k]? with
  | none => simp [hk] at h
  | some frame =>
    simp only [hk] at h
    cases hmap : mapper.mapTo m page frame ⟨map, k + 1⟩ with
    | error e => simp [hmap] at h
    | ok r =>
      obtain ⟨m1, map1, k1⟩ := r
      simp only [hmap] at h
      -- `map_to` keeps the allocator on the same map
      have hmm : map1 = map := (mapper.mapTo_ok _ _ _ _ _ _ hmap).1
      rw [hmm] at hmap h
      exact ⟨frame, m1, k1, rfl, hmap, h⟩

/-- What a successful loop from allocator index `k` leaves: the allocator over the same map and
not behind `k`; each page of the loop translating to a frame handed out at an index from `k`
on, before the final `next`; the loop's pages translating to pairwise different frames; and
every other page translating as before. -/
theorem initHeapLoop_ok (hnd : (frames map).Nodup) (pages : List Page) (hpages : pages.Nodup)
    (m : M) (k : ℕ) (m' : M) (a' : BootInfoFrameAllocator)
    (h : initHeapLoop x mapper pages m ⟨map, k⟩ = some (.ok (m', a'))) :
    a'.memoryMap = map ∧ k ≤ a'.next ∧
      (∀ p ∈ pages, ∃ j, k ≤ j ∧ j < a'.next ∧ ∃ f, (frames map)[j]? = some f ∧
        mapper.translate m' p = some f) ∧
      Set.InjOn (mapper.translate m') {p | p ∈ pages} ∧
      (∀ q, q ∉ pages → mapper.translate m' q = mapper.translate m q) := by
  induction pages generalizing m k with
  | nil =>
    simp only [initHeapLoop, Option.some.injEq, Except.ok.injEq, Prod.mk.injEq] at h
    obtain ⟨rfl, rfl⟩ := h
    simp
  | cons page pages ih =>
    obtain ⟨hpage, hrest⟩ := List.nodup_cons.mp hpages
    obtain ⟨frame, m1, k1, hk, hmap, h1⟩ := initHeapLoop_cons_ok x mapper hphys h
    obtain ⟨-, hle, hpage1, hother1⟩ := mapper.mapTo_ok _ _ _ _ _ _ hmap
    obtain ⟨hmap', hk1, hin, hinj, hout⟩ := ih hrest m1 k1 h1
    simp only at hle
    -- the page of this step keeps its frame: the rest of the loop does not touch it
    have hpage' : mapper.translate m' page = some frame := by
      rw [hout page hpage, hpage1]
    -- a later page's frame was handed out at a later index, so it is another frame
    have hfresh : mapper.translate m' page ∉ mapper.translate m' '' {p | p ∈ pages} := by
      rintro ⟨p, hp, heq⟩
      obtain ⟨j, hj1, -, f, hf, hpf⟩ := hin p hp
      rw [hpf, hpage'] at heq
      have hjlt : j < (frames map).length := (List.getElem?_eq_some_iff.mp hf).1
      have hjk : j = k := (List.getElem?_inj hjlt hnd).mp (by rw [hf, hk, heq])
      omega
    have hset : {p | p ∈ page :: pages} = insert page {p | p ∈ pages} := by
      ext
      simp
    refine ⟨hmap', by omega, ?_, ?_, ?_⟩
    · intro p hp
      rcases List.mem_cons.mp hp with rfl | hp
      · exact ⟨k, le_rfl, by omega, frame, hk, hpage'⟩
      · obtain ⟨j, hj1, hj2, f, hf, hpf⟩ := hin p hp
        exact ⟨j, by omega, hj2, f, hf, hpf⟩
    · rw [hset, Set.injOn_insert (show page ∉ {p | p ∈ pages} from hpage)]
      exact ⟨hinj, hfresh⟩
    · intro q hq
      obtain ⟨hqp, hq'⟩ : q ≠ page ∧ q ∉ pages := by simpa using hq
      rw [hout q hq', hother1 q hqp]

end

/-! ## `init_heap` from a fresh allocator -/

/-- For every memory map of pairwise disjoint regions whose usable regions lie below `2 ^ 52`,
every mapper that keeps `Mapper`'s contract and every state of it, `init_heap` with the allocator
fresh from `init` does not panic. When it succeeds, every byte of the heap lies in a page mapped
to a frame inside a usable region, and two heap pages never share a frame. The frame of each
heap page came from one `allocate_frame` call of the run, the `j`-th; no other call returned it,
neither one of `init_heap` nor one inside `map_to` for a page table. -/
theorem initHeap_frames (x : X86_64) {M : Type} (mapper : Mapper M) (m : M) (map : MemoryMap)
    (hsep : Separate regionSpan map)
    (hphys : ∀ r ∈ map, r.regionType = .Usable → r.range.endAddr ≤ 2 ^ 52) :
    initHeap x mapper m (BootInfoFrameAllocator.init map) ≠ none ∧
      ∀ m' a', initHeap x mapper m (BootInfoFrameAllocator.init map) = some (.ok (m', a')) →
        (∀ addr, HEAP_START ≤ addr → addr < HEAP_START + HEAP_SIZE →
          ∃ f, mapper.translate m' (x.pageContainingAddress addr) = some f ∧
            ∃ r ∈ map, r.regionType = .Usable ∧ r.range.startAddr ≤ f.startAddress ∧
              f.startAddress + PAGE_SIZE ≤ r.range.endAddr) ∧
        (∀ p ∈ heapPages x, ∀ q ∈ heapPages x,
          mapper.translate m' p = mapper.translate m' q → p = q) ∧
        (∀ p ∈ heapPages x, ∃ j < a'.next, mapper.translate m' p = (frames map)[j]? ∧
          ∀ i < a'.next, (frames map)[i]? = (frames map)[j]? → i = j) := by
  have hnd := frames_nodup map hsep
  refine ⟨initHeapLoop_ne_none x mapper hphys (heapPages x) m 0, fun m' a' h => ?_⟩
  obtain ⟨-, -, hin, hinj, -⟩ :=
    initHeapLoop_ok x mapper hphys hnd (heapPages x) (heapPages_nodup x) m 0 m' a' h
  refine ⟨?_, fun p hp q hq => hinj hp hq, ?_⟩
  · intro addr h1 h2
    obtain ⟨j, -, -, f, hf, hpf⟩ := hin _ (mem_heapPages x h1 h2)
    exact ⟨f, hpf, frames_inside map (List.mem_of_getElem? hf)⟩
  · intro p hp
    obtain ⟨j, -, hj, f, hf, hpf⟩ := hin p hp
    have hjlt : j < (frames map).length := (List.getElem?_eq_some_iff.mp hf).1
    refine ⟨j, hj, hpf.trans hf.symm, fun i _ hij => ?_⟩
    exact ((List.getElem?_inj hjlt hnd).mp hij.symm).symm

/-- A flat table of pages that maps without taking frames for page tables. -/
def flatTable : Mapper (Page → Option PhysFrame) where
  translate m page := m page
  mapTo m page frame a := .ok (Function.update m page (some frame), a)
  mapTo_ok := by
    intro m page frame a m' a' h
    simp only [Except.ok.injEq, Prod.mk.injEq] at h
    obtain ⟨rfl, rfl⟩ := h
    exact ⟨rfl, le_rfl, by simp, fun q hq => by simp [hq]⟩

theorem initHeap_frames_two_regions :
    let map : MemoryMap := [⟨⟨0, 256⟩, .Usable⟩, ⟨⟨256, 300⟩, .Kernel⟩, ⟨⟨300, 400⟩, .Usable⟩]
    Separate regionSpan map ∧ (∀ r ∈ map, r.regionType = .Usable → r.range.endAddr ≤ 2 ^ 52) ∧
      initHeap X86_64.crate flatTable (fun _ => none) (BootInfoFrameAllocator.init map) ≠
        none := by
  intro map
  have hsep : Separate regionSpan map := by
    simp [map, Separate, regionSpan, Set.Ico_disjoint_Ico, FrameRange.startAddr,
      FrameRange.endAddr, PAGE_SIZE]
  have hphys : ∀ r ∈ map, r.regionType = .Usable → r.range.endAddr ≤ 2 ^ 52 := by decide
  exact ⟨hsep, hphys, (initHeap_frames X86_64.crate flatTable (fun _ => none) map hsep hphys).1⟩

end LeafOS.Memory
