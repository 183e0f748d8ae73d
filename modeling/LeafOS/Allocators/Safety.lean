import Mathlib
import LeafOS.Allocators.FixedSizeBlock

/-!
# Safety of the fixed-size-block allocator over whole runs

Every block the allocator owns is a live region of the heap: a free block as the block its
class carved, a user allocation of a class as its class's block, any other allocation as
itself. The heap's contract keeps its live regions pairwise disjoint, so the blocks on the
free lists and the user allocations never overlap.

1. `freeBlocks`: the free lists as a multiset of regions; `freeBlocks_pop`, `freeBlocks_push`.
2. `Inv`: the heap's live regions are the free blocks and the records of the user allocations
   (`heapEntry`), pairwise disjoint, non-null, aligned and non-empty.
3. `inv_init`, `Inv.alloc`, `Inv.dealloc`: the invariant after `init` and after each call;
   `Reachable.inv` over every run.
4. `alloc_dealloc_safe`: alignment and disjointness of what `alloc` returns, the shape of the
   free lists, and a failing `alloc` that changes nothing.
-/

namespace LeafOS.Allocators.FixedSizeBlockAllocator

open Footprint

variable {H : Type} (heap : FallbackHeap H)

/-! ## The regions the allocator owns -/

/-- The bytes of a region: its layout's size from its address. -/
def footprint (x : ℕ × Layout) : Set ℕ := span x.1 x.2.size

/-- The heap's record of a user allocation: the block of its class, or the allocation itself
when it has no class. -/
def heapEntry (x : ℕ × Layout) : ℕ × Layout :=
  match listIndex x.2 with
  | some index => (x.1, blockLayout index)
  | none => x

/-- The blocks of one free list, with the layout their class carves. -/
def blockEntries (index : Fin BLOCK_SIZES.length) (l : List ℕ) : Multiset (ℕ × Layout) :=
  ↑(l.map fun p => (p, blockLayout index))

/-- The blocks of all free lists. -/
def freeBlocks (heads : Fin BLOCK_SIZES.length → List ℕ) : Multiset (ℕ × Layout) :=
  ∑ index, blockEntries index (heads index)

theorem heapEntry_of_some {x : ℕ × Layout} {index : Fin BLOCK_SIZES.length}
    (h : listIndex x.2 = some index) : heapEntry x = (x.1, blockLayout index) := by
  simp [heapEntry, h]

theorem heapEntry_of_none {x : ℕ × Layout} (h : listIndex x.2 = none) : heapEntry x = x := by
  simp [heapEntry, h]

@[simp] theorem heapEntry_fst (x : ℕ × Layout) : (heapEntry x).1 = x.1 := by
  unfold heapEntry
  split <;> rfl

/-- A user allocation lies inside its record. -/
theorem footprint_subset_heapEntry (x : ℕ × Layout) : footprint x ⊆ footprint (heapEntry x) := by
  unfold heapEntry
  split
  · exact span_mono (listIndex_some ‹_›).1
  · exact subset_rfl

@[simp] theorem blockEntries_cons (index : Fin BLOCK_SIZES.length) (p : ℕ) (l : List ℕ) :
    blockEntries index (p :: l) = (p, blockLayout index) ::ₘ blockEntries index l := rfl

theorem freeBlocks_update (heads : Fin BLOCK_SIZES.length → List ℕ)
    (index : Fin BLOCK_SIZES.length) (l : List ℕ) :
    freeBlocks (Function.update heads index l) + blockEntries index (heads index) =
      blockEntries index l + freeBlocks heads := by
  have hupd : freeBlocks (Function.update heads index l) =
      blockEntries index l + ∑ j ∈ Finset.univ.erase index, blockEntries j (heads j) := by
    unfold freeBlocks
    rw [Finset.sum_congr rfl fun j _ => Function.apply_update blockEntries heads index l j,
      Finset.sum_update_of_mem (Finset.mem_univ index), Finset.sdiff_singleton_eq_erase]
  rw [hupd, freeBlocks, ← Finset.add_sum_erase _ _ (Finset.mem_univ index)]
  abel

theorem freeBlocks_pop {heads : Fin BLOCK_SIZES.length → List ℕ} {index : Fin BLOCK_SIZES.length}
    {node : ℕ} {next : List ℕ} (h : heads index = node :: next) :
    freeBlocks heads =
      (node, blockLayout index) ::ₘ freeBlocks (Function.update heads index next) := by
  have := freeBlocks_update heads index next
  rw [h, blockEntries_cons] at this
  apply add_right_cancel (b := blockEntries index next)
  rw [Multiset.cons_add, ← Multiset.add_cons, this, add_comm]

theorem freeBlocks_push (heads : Fin BLOCK_SIZES.length → List ℕ) (index : Fin BLOCK_SIZES.length)
    (p : ℕ) :
    freeBlocks (Function.update heads index (p :: heads index)) =
      (p, blockLayout index) ::ₘ freeBlocks heads := by
  have := freeBlocks_update heads index (p :: heads index)
  rw [blockEntries_cons] at this
  apply add_right_cancel (b := blockEntries index (heads index))
  rw [this, Multiset.cons_add, Multiset.cons_add, add_comm (blockEntries index (heads index))]

theorem mem_freeBlocks {heads : Fin BLOCK_SIZES.length → List ℕ} {index : Fin BLOCK_SIZES.length}
    {q : ℕ} (h : q ∈ heads index) : (q, blockLayout index) ∈ freeBlocks heads := by
  unfold freeBlocks
  rw [← Finset.add_sum_erase _ _ (Finset.mem_univ index)]
  exact Multiset.mem_add.mpr (.inl (by simp [blockEntries, h]))

/-! ## The invariant -/

/-- The heap's live regions are exactly the free blocks and the records of the user
allocations `U`; they are pairwise disjoint, and each is non-null, aligned for its layout and
non-empty. -/
structure Inv (a : FixedSizeBlockAllocator H) (U : List (ℕ × Layout)) : Prop where
  live_eq : (heap.live a.fallbackAllocator : Multiset (ℕ × Layout)) =
    freeBlocks a.listHeads + ↑(U.map heapEntry)
  separate : Separate footprint (heap.live a.fallbackAllocator)
  live_ok : ∀ x ∈ heap.live a.fallbackAllocator, 0 < x.1 ∧ x.2.align ∣ x.1 ∧ 0 < x.2.size

/-- The states that `init` and then calls of `alloc` and `dealloc` reach, with the user
allocations left live: every `alloc` asks for a non-empty layout, and every `dealloc` frees a
live allocation with the layout it was allocated with. -/
inductive Reachable (heapStart heapSize : ℕ) :
    FixedSizeBlockAllocator H → List (ℕ × Layout) → Prop
  | init : Reachable heapStart heapSize ((new heap).init heap heapStart heapSize) []
  | alloc {a : FixedSizeBlockAllocator H} {U : List (ℕ × Layout)} (layout : Layout) :
      Reachable heapStart heapSize a U → 0 < layout.size →
      Reachable heapStart heapSize (a.alloc heap layout).2
        (if (a.alloc heap layout).1 = 0 then U else ((a.alloc heap layout).1, layout) :: U)
  | dealloc {a : FixedSizeBlockAllocator H} {U : List (ℕ × Layout)} (p : ℕ) (layout : Layout) :
      Reachable heapStart heapSize a U → (p, layout) ∈ U →
      Reachable heapStart heapSize (a.dealloc heap p layout) (U.erase (p, layout))

variable {heap}

theorem Inv.nodup {a : FixedSizeBlockAllocator H} {U : List (ℕ × Layout)} (hi : Inv heap a U) :
    (heap.live a.fallbackAllocator).Nodup :=
  hi.separate.nodup fun x hx => span_nonempty (hi.live_ok x hx).2.2

theorem Inv.mem_live {a : FixedSizeBlockAllocator H} {U : List (ℕ × Layout)} (hi : Inv heap a U)
    {x : ℕ × Layout} (hx : x ∈ freeBlocks a.listHeads + ↑(U.map heapEntry)) :
    x ∈ heap.live a.fallbackAllocator := by
  rw [← Multiset.mem_coe, hi.live_eq]
  exact hx

/-- The record of a user allocation is disjoint from every other owned region. -/
theorem Inv.disjoint_head {a : FixedSizeBlockAllocator H} {U : List (ℕ × Layout)}
    {x : ℕ × Layout} (hi : Inv heap a (x :: U)) {y : ℕ × Layout}
    (hy : y ∈ freeBlocks a.listHeads + ↑(U.map heapEntry)) :
    Disjoint (footprint (heapEntry x)) (footprint y) := by
  have hlive : (↑(heap.live a.fallbackAllocator) : Multiset (ℕ × Layout)) =
      heapEntry x ::ₘ (freeBlocks a.listHeads + ↑(U.map heapEntry)) := by
    rw [hi.live_eq, List.map_cons, ← Multiset.cons_coe, Multiset.add_cons]
  have hnd : (heapEntry x ::ₘ (freeBlocks a.listHeads + ↑(U.map heapEntry))).Nodup := by
    rw [← hlive]
    exact Multiset.coe_nodup.mpr hi.nodup
  have hne : heapEntry x ≠ y := fun h => (Multiset.nodup_cons.mp hnd).1 (h ▸ hy)
  have hxl : heapEntry x ∈ heap.live a.fallbackAllocator := by
    rw [← Multiset.mem_coe, hlive]
    exact Multiset.mem_cons_self _ _
  have hyl : y ∈ heap.live a.fallbackAllocator := by
    rw [← Multiset.mem_coe, hlive]
    exact Multiset.mem_cons_of_mem hy
  exact hi.separate.disjoint hxl hyl hne

/-- A user allocation is non-null and aligned for its own layout. -/
theorem Inv.user_ok {a : FixedSizeBlockAllocator H} {U : List (ℕ × Layout)} (hi : Inv heap a U)
    {x : ℕ × Layout} (hx : x ∈ U) : 0 < x.1 ∧ x.2.align ∣ x.1 := by
  have hmem := hi.mem_live (Multiset.mem_add.mpr (.inr (Multiset.mem_coe.mpr
    (List.mem_map_of_mem hx))))
  obtain ⟨hpos, hdvd, -⟩ := hi.live_ok _ hmem
  rw [heapEntry_fst] at hpos hdvd
  refine ⟨hpos, ?_⟩
  rcases hidx : listIndex x.2 with _ | index
  · rwa [heapEntry_of_none hidx] at hdvd
  · rw [heapEntry_of_some hidx, blockLayout_align] at hdvd
    exact (align_dvd_blockSize hidx).trans hdvd

/-! ## Each call keeps the invariant -/

theorem inv_init (heapStart heapSize : ℕ) :
    Inv heap ((new heap).init heap heapStart heapSize) [] := by
  have hlive : heap.live ((new heap).init heap heapStart heapSize).fallbackAllocator = [] :=
    heap.live_init heapStart heapSize
  refine ⟨?_, ?_, ?_⟩
  · rw [hlive]
    simp [freeBlocks, blockEntries, new, init]
  · rw [hlive]
    exact separate_nil
  · simp [hlive]

/-- A call that goes to the heap with `request`, the record of the user's `layout`. -/
theorem Inv.fallbackAlloc {a : FixedSizeBlockAllocator H} {U : List (ℕ × Layout)}
    (hi : Inv heap a U) {layout request : Layout}
    (hentry : ∀ p, heapEntry (p, layout) = (p, request)) (hsize : 0 < request.size) :
    Inv heap (a.fallbackAlloc heap request).2
      (if (a.fallbackAlloc heap request).1 = 0 then U
        else ((a.fallbackAlloc heap request).1, layout) :: U) := by
  rcases fallbackAlloc_cases heap a request with ⟨p, h', hok, hfa⟩ | hfa
  · obtain ⟨hpos, hdvd, hdisj, hlive⟩ := heap.allocate_ok _ _ _ _ hok
    rw [hfa, if_neg hpos.ne']
    refine ⟨?_, ?_, ?_⟩
    · show (heap.live h' : Multiset (ℕ × Layout)) =
        freeBlocks a.listHeads + ↑(((p, layout) :: U).map heapEntry)
      rw [hlive, List.map_cons, hentry, ← Multiset.cons_coe, ← Multiset.cons_coe, hi.live_eq,
        Multiset.add_cons]
    · show Separate footprint (heap.live h')
      rw [hlive]
      exact separate_cons.mpr ⟨hdisj, hi.separate⟩
    · show ∀ x ∈ heap.live h', 0 < x.1 ∧ x.2.align ∣ x.1 ∧ 0 < x.2.size
      rw [hlive]
      intro x hx
      rcases List.mem_cons.mp hx with rfl | hx
      · exact ⟨hpos, hdvd, hsize⟩
      · exact hi.live_ok x hx
  · rw [hfa, if_pos rfl]
    exact hi

/-- `alloc` keeps the invariant, with the returned address recorded unless it is null. -/
theorem Inv.alloc {a : FixedSizeBlockAllocator H} {U : List (ℕ × Layout)} (hi : Inv heap a U)
    (layout : Layout) (hsize : 0 < layout.size) :
    Inv heap (a.alloc heap layout).2
      (if (a.alloc heap layout).1 = 0 then U else ((a.alloc heap layout).1, layout) :: U) := by
  rcases alloc_cases heap a layout with
    ⟨index, node, next, hidx, hl, hal⟩ | ⟨index, hidx, -, hal⟩ | ⟨hidx, hal⟩
  · -- the head of the class list passes from the free list to the user
    have hnode : (node, blockLayout index) ∈ heap.live a.fallbackAllocator :=
      hi.mem_live (Multiset.mem_add.mpr (.inl (mem_freeBlocks (hl ▸ List.mem_cons_self))))
    rw [hal, if_neg (hi.live_ok _ hnode).1.ne']
    refine ⟨?_, hi.separate, hi.live_ok⟩
    show (heap.live a.fallbackAllocator : Multiset (ℕ × Layout)) =
      freeBlocks (Function.update a.listHeads index next) + ↑(((node, layout) :: U).map heapEntry)
    rw [hi.live_eq, freeBlocks_pop hl, List.map_cons, heapEntry_of_some (x := (node, layout)) hidx,
      ← Multiset.cons_coe, Multiset.add_cons, Multiset.cons_add]
  · rw [hal]
    exact hi.fallbackAlloc (fun p => heapEntry_of_some (x := (p, layout)) hidx)
      (by have := listNode_fits index; simp only [blockLayout_size]; omega)
  · rw [hal]
    exact hi.fallbackAlloc (fun p => heapEntry_of_none (x := (p, layout)) hidx) hsize

/-- The records of the user allocations with one of them taken out. -/
theorem heapEntries_erase {U : List (ℕ × Layout)} {x : ℕ × Layout} (hx : x ∈ U) :
    (↑(U.map heapEntry) : Multiset (ℕ × Layout)) =
      heapEntry x ::ₘ ↑((U.erase x).map heapEntry) := by
  rw [Multiset.coe_eq_coe.mpr ((List.perm_cons_erase hx).map heapEntry), List.map_cons,
    Multiset.cons_coe]

/-- A live allocation without a class handed back to the heap leaves the heap's other regions
live. -/
theorem Inv.deallocate {a : FixedSizeBlockAllocator H} {U : List (ℕ × Layout)}
    (hi : Inv heap a U) {p : ℕ} {layout : Layout} (hmem : (p, layout) ∈ U)
    (hidx : listIndex layout = none) :
    Inv heap { a with fallbackAllocator := heap.deallocate a.fallbackAllocator p layout }
      (U.erase (p, layout)) := by
  have hU := heapEntries_erase hmem
  have hentry := heapEntry_of_none (x := (p, layout)) hidx
  have hlive : (p, layout) ∈ heap.live a.fallbackAllocator := by
    rw [← Multiset.mem_coe, hi.live_eq, hU, hentry]
    exact Multiset.mem_add.mpr (.inr (Multiset.mem_cons_self _ _))
  -- the heap's contract: its live regions lose exactly this one
  have hperm := heap.deallocate_live _ _ _ hlive
  refine ⟨?_, ?_, ?_⟩
  · show (heap.live (heap.deallocate a.fallbackAllocator p layout) : Multiset (ℕ × Layout)) =
      freeBlocks a.listHeads + ↑((U.erase (p, layout)).map heapEntry)
    have hcons : (↑(heap.live a.fallbackAllocator) : Multiset (ℕ × Layout)) =
        (p, layout) ::ₘ ↑((heap.live a.fallbackAllocator).erase (p, layout)) := by
      rw [Multiset.coe_eq_coe.mpr (List.perm_cons_erase hlive), Multiset.cons_coe]
    rw [Multiset.coe_eq_coe.mpr hperm]
    apply (Multiset.cons_inj_right (p, layout)).mp
    rw [← hcons, hi.live_eq, hU, hentry, Multiset.add_cons]
  · exact (hi.separate.sublist List.erase_sublist).perm hperm.symm
  · intro x hx
    exact hi.live_ok x (List.erase_sublist.subset (hperm.subset hx))

/-- `dealloc` of a live allocation keeps the invariant, with the allocation dropped. -/
theorem Inv.dealloc {a : FixedSizeBlockAllocator H} {U : List (ℕ × Layout)} (hi : Inv heap a U)
    {p : ℕ} {layout : Layout} (hmem : (p, layout) ∈ U) :
    Inv heap (a.dealloc heap p layout) (U.erase (p, layout)) := by
  rcases dealloc_cases heap a p layout with ⟨index, hidx, hdeal⟩ | ⟨hidx, hdeal⟩
  · -- a block of a class moves from the user to the front of its list; the heap is unchanged
    rw [hdeal]
    refine ⟨?_, hi.separate, hi.live_ok⟩
    show (heap.live a.fallbackAllocator : Multiset (ℕ × Layout)) =
      freeBlocks (Function.update a.listHeads index (p :: a.listHeads index)) +
        ↑((U.erase (p, layout)).map heapEntry)
    rw [freeBlocks_push, hi.live_eq, heapEntries_erase hmem,
      heapEntry_of_some (x := (p, layout)) hidx, Multiset.add_cons, Multiset.cons_add]
  · rw [hdeal]
    exact hi.deallocate hmem hidx

/-- Every reachable state keeps the invariant. -/
theorem Reachable.inv {heapStart heapSize : ℕ} {a : FixedSizeBlockAllocator H}
    {U : List (ℕ × Layout)} (hr : Reachable heap heapStart heapSize a U) : Inv heap a U := by
  induction hr with
  | init => exact inv_init heapStart heapSize
  | alloc layout _ hsize ih => exact ih.alloc layout hsize
  | dealloc p layout _ hmem ih => exact ih.dealloc hmem

/-! ## What the invariant gives -/

theorem Inv.live_coe_nodup {a : FixedSizeBlockAllocator H} {U : List (ℕ × Layout)}
    (hi : Inv heap a U) : (freeBlocks a.listHeads + ↑(U.map heapEntry)).Nodup := by
  rw [← hi.live_eq]
  exact Multiset.coe_nodup.mpr hi.nodup

/-- A free block is live in the heap, non-null and aligned to its class. -/
theorem Inv.free_block {a : FixedSizeBlockAllocator H} {U : List (ℕ × Layout)} (hi : Inv heap a U)
    {index : Fin BLOCK_SIZES.length} {q : ℕ} (hq : q ∈ a.listHeads index) :
    (q, blockLayout index) ∈ heap.live a.fallbackAllocator ∧ 0 < q ∧ BLOCK_SIZES.get index ∣ q := by
  have hlive := hi.mem_live (Multiset.mem_add.mpr (.inl (mem_freeBlocks hq)))
  obtain ⟨hpos, hdvd, -⟩ := hi.live_ok _ hlive
  exact ⟨hlive, hpos, hdvd⟩

theorem Inv.free_nodup {a : FixedSizeBlockAllocator H} {U : List (ℕ × Layout)} (hi : Inv heap a U)
    (index : Fin BLOCK_SIZES.length) : (a.listHeads index).Nodup := by
  have hfree := (Multiset.nodup_add.mp hi.live_coe_nodup).1
  rw [freeBlocks, ← Finset.add_sum_erase _ _ (Finset.mem_univ index)] at hfree
  have hentries := (Multiset.nodup_add.mp hfree).1
  exact List.Nodup.of_map _ (Multiset.coe_nodup.mp hentries)

theorem blockLayout_injective : Function.Injective blockLayout := by
  intro i j h
  have hsize := congrArg Layout.size h
  simp only [blockLayout_size, blockSize_eq] at hsize
  exact Fin.ext (by have := Nat.pow_right_injective (le_refl 2) hsize; omega)

/-- A block is on one free list only. -/
theorem Inv.free_unique {a : FixedSizeBlockAllocator H} {U : List (ℕ × Layout)}
    (hi : Inv heap a U) {i j : Fin BLOCK_SIZES.length} {q : ℕ} (hi' : q ∈ a.listHeads i)
    (hj : q ∈ a.listHeads j) : i = j := by
  by_contra hne
  have hlayout : (q, blockLayout i) ≠ (q, blockLayout j) :=
    fun h => hne (blockLayout_injective (Prod.ext_iff.mp h).2)
  have hdisj := hi.separate.disjoint (hi.free_block hi').1 (hi.free_block hj).1 hlayout
  have hmem : ∀ k, q ∈ footprint (q, blockLayout k) := by
    intro k
    have := listNode_fits k
    show q ∈ span q (BLOCK_SIZES.get k)
    rw [mem_span]
    omega
  exact Set.disjoint_left.mp hdisj (hmem i) (hmem j)

/-- A free block misses every user allocation. -/
theorem Inv.free_disjoint_user {a : FixedSizeBlockAllocator H} {U : List (ℕ × Layout)}
    (hi : Inv heap a U) {index : Fin BLOCK_SIZES.length} {q : ℕ} (hq : q ∈ a.listHeads index)
    {x : ℕ × Layout} (hx : x ∈ U) :
    Disjoint (span q (BLOCK_SIZES.get index)) (span x.1 x.2.size) := by
  have hfree := mem_freeBlocks hq
  have huser : heapEntry x ∈ (↑(U.map heapEntry) : Multiset (ℕ × Layout)) :=
    Multiset.mem_coe.mpr (List.mem_map_of_mem hx)
  have hne : (q, blockLayout index) ≠ heapEntry x := fun h =>
    Multiset.disjoint_left.mp (Multiset.nodup_add.mp hi.live_coe_nodup).2.2 hfree (h ▸ huser)
  have hdisj := hi.separate.disjoint (hi.mem_live (Multiset.mem_add.mpr (.inl hfree)))
    (hi.mem_live (Multiset.mem_add.mpr (.inr huser))) hne
  exact hdisj.mono_right (footprint_subset_heapEntry x)

/-- An `alloc` that returns null changes nothing. -/
theorem Inv.alloc_null {a : FixedSizeBlockAllocator H} {U : List (ℕ × Layout)} (hi : Inv heap a U)
    (layout : Layout) (hnull : (a.alloc heap layout).1 = 0) : (a.alloc heap layout).2 = a := by
  have hfallback : ∀ request, (a.fallbackAlloc heap request).1 = 0 →
      (a.fallbackAlloc heap request).2 = a := by
    intro request h0
    rcases fallbackAlloc_cases heap a request with ⟨p, h', hok, hfa⟩ | hfa
    · rw [hfa] at h0
      exact absurd h0 (heap.allocate_ok _ _ _ _ hok).1.ne'
    · rw [hfa]
  rcases alloc_cases heap a layout with
    ⟨index, node, next, -, hl, hal⟩ | ⟨index, -, -, hal⟩ | ⟨-, hal⟩
  · rw [hal] at hnull
    exact absurd hnull (hi.free_block (hl ▸ List.mem_cons_self)).2.1.ne'
  · rw [hal] at hnull ⊢
    exact hfallback _ hnull
  · rw [hal] at hnull ⊢
    exact hfallback _ hnull

/-! ## Safety over whole runs -/

/-- For every state that `init` and calls of `alloc` and `dealloc` reach, each `dealloc`
freeing a live allocation with its own layout: each free list holds distinct blocks aligned to
their class, live in the heap, on no other list and disjoint from every live allocation. The
next `alloc` of a non-empty layout either returns a non-null address aligned for the layout,
whose bytes miss every live allocation and every free block, or returns null and changes
nothing. -/
theorem alloc_dealloc_safe {heapStart heapSize : ℕ} {a : FixedSizeBlockAllocator H}
    {U : List (ℕ × Layout)} (hr : Reachable heap heapStart heapSize a U) :
    (∀ index, (a.listHeads index).Nodup ∧
      ∀ q ∈ a.listHeads index, BLOCK_SIZES.get index ∣ q ∧
        (q, blockLayout index) ∈ heap.live a.fallbackAllocator ∧
        (∀ j, j ≠ index → q ∉ a.listHeads j) ∧
        ∀ x ∈ U, Disjoint (span q (BLOCK_SIZES.get index)) (span x.1 x.2.size)) ∧
    ∀ layout : Layout, 0 < layout.size →
      ((a.alloc heap layout).1 ≠ 0 →
        layout.align ∣ (a.alloc heap layout).1 ∧
        (∀ x ∈ U, Disjoint (span (a.alloc heap layout).1 layout.size) (span x.1 x.2.size)) ∧
        ∀ index, ∀ q ∈ (a.alloc heap layout).2.listHeads index,
          Disjoint (span (a.alloc heap layout).1 layout.size) (span q (BLOCK_SIZES.get index))) ∧
      ((a.alloc heap layout).1 = 0 → (a.alloc heap layout).2 = a) := by
  have hi := hr.inv
  refine ⟨fun index => ⟨hi.free_nodup index, fun q hq => ?_⟩, fun layout hsize => ?_⟩
  · obtain ⟨hlive, -, hdvd⟩ := hi.free_block hq
    exact ⟨hdvd, hlive, fun j hj hqj => hj (hi.free_unique hqj hq),
      fun x hx => hi.free_disjoint_user hq hx⟩
  refine ⟨fun hne => ?_, hi.alloc_null layout⟩
  -- after the call, the returned allocation heads the user allocations
  have hi' := hi.alloc layout hsize
  rw [if_neg hne] at hi'
  have hsub := footprint_subset_heapEntry ((a.alloc heap layout).1, layout)
  refine ⟨(hi'.user_ok List.mem_cons_self).2, fun x hx => ?_, fun index q hq => ?_⟩
  · have hdisj := hi'.disjoint_head (y := heapEntry x)
      (Multiset.mem_add.mpr (.inr (Multiset.mem_coe.mpr (List.mem_map_of_mem hx))))
    exact (hdisj.mono hsub (footprint_subset_heapEntry x))
  · exact (hi'.disjoint_head (Multiset.mem_add.mpr (.inl (mem_freeBlocks hq)))).mono_left hsub

/-- A heap that meets the contract: its state is its start address and its live regions, and it
places each allocation past the start and past the end of every live region. -/
def bumpHeap : FallbackHeap (ℕ × List (ℕ × Layout)) where
  empty := (0, [])
  init _ heapStart _ := (heapStart, [])
  allocateFirstFit h layout :=
    let base := max (max h.1 1) (h.2.map fun x => x.1 + x.2.size).sum
    .ok (layout.align * ((base + layout.align - 1) / layout.align), (h.1,
      (layout.align * ((base + layout.align - 1) / layout.align), layout) :: h.2))
  deallocate h p layout := (h.1, h.2.erase (p, layout))
  live h := h.2
  live_init _ _ := rfl
  allocate_ok := by
    intro h layout p h' hok
    simp only [Except.ok.injEq, Prod.mk.injEq] at hok
    obtain ⟨rfl, rfl⟩ := hok
    have halign : 0 < layout.align := by
      obtain ⟨k, hk⟩ := layout.align_pow
      rw [hk]
      exact Nat.two_pow_pos k
    generalize hbase : max (max h.1 1) (h.2.map fun x => x.1 + x.2.size).sum = base
    -- rounding the base up to the alignment does not go below it
    have hceil : base ≤ layout.align * ((base + layout.align - 1) / layout.align) := by
      have h1 := Nat.div_add_mod (base + layout.align - 1) layout.align
      have h2 := Nat.mod_lt (base + layout.align - 1) halign
      omega
    have hone : 1 ≤ base := by rw [← hbase]; omega
    refine ⟨by omega, dvd_mul_right _ _, fun x hx => ?_, rfl⟩
    have hend : x.1 + x.2.size ≤ base := by
      rw [← hbase]
      exact le_trans (List.le_sum_of_mem (List.mem_map_of_mem (f := fun x => x.1 + x.2.size) hx))
        (le_max_right _ _)
    rw [Set.disjoint_left]
    intro y hy hy'
    rw [mem_span] at hy hy'
    omega
  deallocate_live _ _ _ _ := List.Perm.refl _

theorem alloc_dealloc_safe_bump_heap :
    let small : Layout := ⟨24, 8, ⟨3, rfl⟩, by norm_num⟩
    let large : Layout := ⟨8192, 16, ⟨4, rfl⟩, by norm_num⟩
    let a₀ := (new bumpHeap).init bumpHeap 0x1000 0x100000
    let a₁ := (a₀.alloc bumpHeap small).2
    let U₁ := if (a₀.alloc bumpHeap small).1 = 0 then []
      else [((a₀.alloc bumpHeap small).1, small)]
    let a₂ := (a₁.alloc bumpHeap large).2
    let U₂ := if (a₁.alloc bumpHeap large).1 = 0 then U₁
      else ((a₁.alloc bumpHeap large).1, large) :: U₁
    let a := a₂.dealloc bumpHeap (a₀.alloc bumpHeap small).1 small
    let U := U₂.erase ((a₀.alloc bumpHeap small).1, small)
    Reachable bumpHeap 0x1000 0x100000 a U ∧
    ((∀ index, (a.listHeads index).Nodup ∧
      ∀ q ∈ a.listHeads index, BLOCK_SIZES.get index ∣ q ∧
        (q, blockLayout index) ∈ bumpHeap.live a.fallbackAllocator ∧
        (∀ j, j ≠ index → q ∉ a.listHeads j) ∧
        ∀ x ∈ U, Disjoint (span q (BLOCK_SIZES.get index)) (span x.1 x.2.size)) ∧
    ∀ layout : Layout, 0 < layout.size →
      ((a.alloc bumpHeap layout).1 ≠ 0 →
        layout.align ∣ (a.alloc bumpHeap layout).1 ∧
        (∀ x ∈ U, Disjoint (span (a.alloc bumpHeap layout).1 layout.size) (span x.1 x.2.size)) ∧
        ∀ index, ∀ q ∈ (a.alloc bumpHeap layout).2.listHeads index,
          Disjoint (span (a.alloc bumpHeap layout).1 layout.size)
            (span q (BLOCK_SIZES.get index))) ∧
      ((a.alloc bumpHeap layout).1 = 0 → (a.alloc bumpHeap layout).2 = a)) := by
  intro small large a₀ a₁ U₁ a₂ U₂ a U
  have hr : Reachable bumpHeap 0x1000 0x100000 a U :=
    .dealloc _ _ (.alloc large (.alloc small .init (by decide)) (by decide)) (by decide)
  exact ⟨hr, alloc_dealloc_safe hr⟩

end LeafOS.Allocators.FixedSizeBlockAllocator
