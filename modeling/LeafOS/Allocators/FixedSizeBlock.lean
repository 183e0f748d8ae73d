import Mathlib
import LeafOS.Lib.Footprint

/-!
# The fixed-size-block allocator

`allocators/fixed_size_block.rs` keeps ten free lists of blocks of 8 to 4096 bytes. Behind them
sits a `linked_list_allocator::Heap`, which gives fresh blocks and serves the layouts too large
or too aligned for every class.

1. `Layout`: `core::alloc::Layout`, whose alignment is a power of two.
2. `FallbackHeap`: what the allocator relies on of the heap, as a contract over the heap's live
   regions.
3. `FixedSizeBlockAllocator`: `new`, `init`, `alloc`, `dealloc` as the source has them; a free
   list is the list of its nodes' addresses, head first.
4. `listIndex_some`, `align_dvd_blockSize`: a class holds the layout, and its block size is a
   multiple of the layout's alignment because both are powers of two.
5. `alloc_cases`, `fallbackAlloc_cases`: every route of `alloc` in one statement each.
-/

namespace LeafOS.Allocators

/-- `core::alloc::Layout`: a size and a power-of-two alignment, with the size rounded up to the
alignment at most `isize::MAX`. -/
structure Layout where
  size : ℕ
  align : ℕ
  align_pow : align.isPowerOfTwo
  size_le : size + (align - 1) ≤ 2 ^ 63 - 1
  deriving DecidableEq

/-- `BLOCK_SIZES`. -/
def BLOCK_SIZES : List ℕ := [8, 16, 32, 64, 128, 256, 512, 1024, 2048, 4096]

theorem blockSize_eq (index : Fin BLOCK_SIZES.length) :
    BLOCK_SIZES.get index = 2 ^ (index.val + 3) := by
  revert index
  decide

/-- The assertions of `dealloc`: a `ListNode`, eight bytes aligned to eight, fits every block. -/
theorem listNode_fits (index : Fin BLOCK_SIZES.length) : 8 ≤ BLOCK_SIZES.get index := by
  revert index
  decide

/-- `list_index`: the first class whose block holds the layout's size and alignment. -/
def listIndex (layout : Layout) : Option (Fin BLOCK_SIZES.length) :=
  let requiredBlockSize := max layout.size layout.align
  BLOCK_SIZES.findFinIdx? fun s => requiredBlockSize ≤ s

/-- The layout of a fresh block of class `index`, `Layout::from_size_align(block_size,
block_size).unwrap()`. The size is a power of two far below `isize::MAX`, as the fields of the
layout show, so the `unwrap` never fails. -/
def blockLayout (index : Fin BLOCK_SIZES.length) : Layout :=
  ⟨BLOCK_SIZES.get index, BLOCK_SIZES.get index, ⟨index.val + 3, blockSize_eq index⟩, by
    have h := blockSize_eq index
    have hlt : index.val < 10 := index.isLt
    have : index.val + 3 ≤ 12 := by omega
    have : 2 ^ (index.val + 3) ≤ 2 ^ 12 := Nat.pow_le_pow_right (by norm_num) this
    omega⟩

@[simp] theorem blockLayout_size (index : Fin BLOCK_SIZES.length) :
    (blockLayout index).size = BLOCK_SIZES.get index := rfl

@[simp] theorem blockLayout_align (index : Fin BLOCK_SIZES.length) :
    (blockLayout index).align = BLOCK_SIZES.get index := rfl

theorem listIndex_some {layout : Layout} {index : Fin BLOCK_SIZES.length}
    (h : listIndex layout = some index) :
    layout.size ≤ BLOCK_SIZES.get index ∧ layout.align ≤ BLOCK_SIZES.get index := by
  have := (List.findFinIdx?_eq_some_iff.mp h).1
  simp only [decide_eq_true_eq, max_le_iff] at this
  exact this

theorem align_dvd_blockSize {layout : Layout} {index : Fin BLOCK_SIZES.length}
    (h : listIndex layout = some index) : layout.align ∣ BLOCK_SIZES.get index := by
  obtain ⟨k, hk⟩ := layout.align_pow
  have hle := (listIndex_some h).2
  rw [hk, blockSize_eq] at hle ⊢
  exact Nat.pow_dvd_pow 2 ((Nat.pow_le_pow_iff_right (by norm_num)).mp hle)

/-- What the allocator relies on of `linked_list_allocator::Heap`, stated over the heap's live
regions (each allocation with its layout, not yet deallocated). After `init` none is live.
`allocate_first_fit` either fails, and then no new heap comes back, or it returns a non-null
address aligned for the layout whose bytes miss every live region, and records it.
`deallocate` of a live region removes it. -/
structure FallbackHeap (H : Type) where
  empty : H
  init : H → ℕ → ℕ → H
  allocateFirstFit : H → Layout → Except Unit (ℕ × H)
  deallocate : H → ℕ → Layout → H
  live : H → List (ℕ × Layout)
  live_init : ∀ heapStart heapSize, live (init empty heapStart heapSize) = []
  allocate_ok : ∀ h layout p h', allocateFirstFit h layout = .ok (p, h') →
    0 < p ∧ layout.align ∣ p ∧
      (∀ x ∈ live h, Disjoint (Footprint.span p layout.size) (Footprint.span x.1 x.2.size)) ∧
      live h' = (p, layout) :: live h
  deallocate_live : ∀ h p layout, (p, layout) ∈ live h →
    (live (deallocate h p layout)).Perm ((live h).erase (p, layout))

/-- `FixedSizeBlockAllocator`: the free list of each class as its nodes' addresses, and the
fallback heap. -/
structure FixedSizeBlockAllocator (H : Type) where
  listHeads : Fin BLOCK_SIZES.length → List ℕ
  fallbackAllocator : H

namespace FixedSizeBlockAllocator

variable {H : Type} (heap : FallbackHeap H)

/-- `FixedSizeBlockAllocator::new`: empty lists, an empty heap. -/
def new : FixedSizeBlockAllocator H := ⟨fun _ => [], heap.empty⟩

/-- `init`: the heap gets its bounds. -/
def init (a : FixedSizeBlockAllocator H) (heapStart heapSize : ℕ) :
    FixedSizeBlockAllocator H :=
  { a with fallbackAllocator := heap.init a.fallbackAllocator heapStart heapSize }

/-- `fallback_alloc`: the heap's address, or null (`0`) when it fails. -/
def fallbackAlloc (a : FixedSizeBlockAllocator H) (layout : Layout) :
    ℕ × FixedSizeBlockAllocator H :=
  match heap.allocateFirstFit a.fallbackAllocator layout with
  | .ok (ptr, h) => (ptr, { a with fallbackAllocator := h })
  | .error _ => (0, a)

/-- `alloc`: the head of the layout's class list, or a fresh block of the class from the heap
when the list is empty; a layout without a class goes to the heap as it is. -/
def alloc (a : FixedSizeBlockAllocator H) (layout : Layout) : ℕ × FixedSizeBlockAllocator H :=
  match listIndex layout with
  | some index =>
    match a.listHeads index with
    | node :: next => (node, { a with listHeads := Function.update a.listHeads index next })
    | [] => a.fallbackAlloc heap (blockLayout index)
  | none => a.fallbackAlloc heap layout

/-- `dealloc`: a block of a class goes to the front of its list, anything else back to the
heap. -/
def dealloc (a : FixedSizeBlockAllocator H) (ptr : ℕ) (layout : Layout) :
    FixedSizeBlockAllocator H :=
  match listIndex layout with
  | some index =>
    { a with listHeads := Function.update a.listHeads index (ptr :: a.listHeads index) }
  | none => { a with fallbackAllocator := heap.deallocate a.fallbackAllocator ptr layout }

theorem fallbackAlloc_cases (a : FixedSizeBlockAllocator H) (layout : Layout) :
    (∃ p h, heap.allocateFirstFit a.fallbackAllocator layout = .ok (p, h) ∧
      a.fallbackAlloc heap layout = (p, { a with fallbackAllocator := h })) ∨
    a.fallbackAlloc heap layout = (0, a) := by
  unfold fallbackAlloc
  split
  · exact .inl ⟨_, _, ‹_›, rfl⟩
  · exact .inr rfl

/-- Every route of `alloc`: the head of a class list, the heap with a block layout, or the heap
with the layout itself. -/
theorem alloc_cases (a : FixedSizeBlockAllocator H) (layout : Layout) :
    (∃ index node next, listIndex layout = some index ∧ a.listHeads index = node :: next ∧
      a.alloc heap layout =
        (node, { a with listHeads := Function.update a.listHeads index next })) ∨
    (∃ index, listIndex layout = some index ∧ a.listHeads index = [] ∧
      a.alloc heap layout = a.fallbackAlloc heap (blockLayout index)) ∨
    (listIndex layout = none ∧ a.alloc heap layout = a.fallbackAlloc heap layout) := by
  unfold alloc
  rcases hi : listIndex layout with _ | index
  · exact .inr (.inr ⟨rfl, rfl⟩)
  · rcases hl : a.listHeads index with _ | ⟨node, next⟩
    · exact .inr (.inl ⟨index, rfl, hl, by simp only [hl]⟩)
    · exact .inl ⟨index, node, next, rfl, hl, by simp only [hl]⟩

/-- Both routes of `dealloc`: the front of a class list, or back to the heap. -/
theorem dealloc_cases (a : FixedSizeBlockAllocator H) (ptr : ℕ) (layout : Layout) :
    (∃ index, listIndex layout = some index ∧ a.dealloc heap ptr layout =
      { a with listHeads := Function.update a.listHeads index (ptr :: a.listHeads index) }) ∨
    (listIndex layout = none ∧ a.dealloc heap ptr layout =
      { a with fallbackAllocator := heap.deallocate a.fallbackAllocator ptr layout }) := by
  unfold dealloc
  rcases hi : listIndex layout with _ | index
  · exact .inr ⟨rfl, rfl⟩
  · exact .inl ⟨index, rfl, rfl⟩

end FixedSizeBlockAllocator

end LeafOS.Allocators
