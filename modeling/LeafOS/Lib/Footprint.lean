import Mathlib

/-!
# Footprints

An allocator hands out pieces of one address space: each element of a list of blocks,
frames or allocations occupies a set of addresses, its footprint. The lists an allocator keeps
are safe when their elements occupy pairwise disjoint sets.

1. `span`: the addresses `[p, p + n)` of a block of `n` bytes at `p`.
2. `Separate f l`: the elements of `l` have pairwise disjoint footprints under `f`; it is kept
   by permutations and sublists (`Separate.perm`, `Separate.sublist`).
3. `Separate.nodup`, `Separate.disjoint`: with nonempty footprints, no element occurs twice,
   and two different elements do not overlap.
-/

namespace Footprint

/-- The addresses of `n` bytes at `p`. -/
def span (p n : ℕ) : Set ℕ := Set.Ico p (p + n)

@[simp] theorem mem_span {p n a : ℕ} : a ∈ span p n ↔ p ≤ a ∧ a < p + n := Set.mem_Ico

theorem span_nonempty {p n : ℕ} (h : 0 < n) : (span p n).Nonempty := ⟨p, by simp [h]⟩

theorem span_mono {p n m : ℕ} (h : n ≤ m) : span p n ⊆ span p m :=
  Set.Ico_subset_Ico_right (by omega)

section

variable {α β : Type*} (f : α → Set β)

/-- The elements of `l` occupy pairwise disjoint sets. -/
def Separate (l : List α) : Prop := l.Pairwise fun x y => Disjoint (f x) (f y)

variable {f}

@[simp] theorem separate_nil : Separate f [] := List.Pairwise.nil

theorem separate_cons {x : α} {l : List α} :
    Separate f (x :: l) ↔ (∀ y ∈ l, Disjoint (f x) (f y)) ∧ Separate f l := List.pairwise_cons

theorem Separate.perm {l l' : List α} (hs : Separate f l) (hp : l.Perm l') : Separate f l' :=
  hp.pairwise hs fun h => h.symm

theorem Separate.sublist {l l' : List α} (hs : Separate f l') (h : l.Sublist l') :
    Separate f l := List.Pairwise.sublist h hs

/-- Nonempty footprints that are pairwise disjoint belong to distinct elements. -/
theorem Separate.nodup {l : List α} (hs : Separate f l) (hne : ∀ x ∈ l, (f x).Nonempty) :
    l.Nodup := by
  rw [List.nodup_iff_pairwise_ne]
  refine hs.imp_of_mem fun hx _ hxy heq => ?_
  subst heq
  obtain ⟨b, hb⟩ := hne _ hx
  exact Set.disjoint_left.mp hxy hb hb

theorem Separate.disjoint {l : List α} (hs : Separate f l) {x y : α} (hx : x ∈ l) (hy : y ∈ l)
    (hxy : x ≠ y) : Disjoint (f x) (f y) := by
  have : Std.Symm fun x y => Disjoint (f x) (f y) := ⟨fun _ _ h => h.symm⟩
  exact List.Pairwise.forall hs hx hy hxy

end

end Footprint
