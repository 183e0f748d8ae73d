import Mathlib

/-!
# Round-robin rotation of a queue with a held slot

A round-robin queue keeps the waiting elements in a list and the running one in a held
slot outside it. One `rotate` takes the element at the back of the list out and holds it,
and puts what was held back in at the front. With an empty list nothing is taken and the
slot is emptied into the list.

1. `rotate_perm`: a rotation loses and duplicates nothing.
2. `emitted_window_held`, `emitted_window_empty`: as many rotations as there are elements
   take each of them out once, provided the list is not empty at the start or nothing is
   held.
3. `emitted_single`: a lone element in the list with nothing held is taken out only on
   every other rotation: in between, the list is empty.
4. `find?_rotate`: when the elements have pairwise different keys, an element looked up by
   its key after a rotation is the one found before.
-/

namespace RoundRobin

variable {α : Type*}

/-- Take the back of `q` out and hold it; what was held goes in at the front. -/
def rotate (held : Option α) (q : List α) : Option α × List α :=
  (q.getLast?, held.toList ++ q.dropLast)

/-- The order in which the elements come out: the list from the back, then the held one. -/
def order (held : Option α) (q : List α) : List α := q.reverse ++ held.toList

/-- What the next `k` rotations take out. -/
def emitted : ℕ → Option α → List α → List (Option α)
  | 0, _, _ => []
  | k + 1, held, q => q.getLast? :: emitted k (rotate held q).1 (rotate held q).2

@[simp] theorem rotate_concat (held : Option α) (init : List α) (x : α) :
    rotate held (init ++ [x]) = (some x, held.toList ++ init) := by
  simp [rotate]

@[simp] theorem rotate_nil (held : Option α) : rotate held [] = (none, held.toList) := by
  simp [rotate]

@[simp] theorem emitted_zero (held : Option α) (q : List α) : emitted 0 held q = [] := rfl

theorem emitted_succ (k : ℕ) (held : Option α) (q : List α) :
    emitted (k + 1) held q = q.getLast? :: emitted k (rotate held q).1 (rotate held q).2 := rfl

theorem rotate_map {β : Type*} (f : α → β) (held : Option α) (q : List α) :
    rotate (held.map f) (q.map f) = ((rotate held q).1.map f, (rotate held q).2.map f) := by
  rcases List.eq_nil_or_concat' q with rfl | ⟨init, x, rfl⟩
  · cases held <;> simp
  · cases held <;> simp

/-- A rotation loses and duplicates nothing. -/
theorem rotate_perm (held : Option α) (q : List α) :
    ((rotate held q).1.toList ++ (rotate held q).2).Perm (held.toList ++ q) := by
  rcases List.eq_nil_or_concat' q with rfl | ⟨init, x, rfl⟩
  · simp
  · simp only [rotate_concat, Option.toList_some]
    calc ([x] ++ (held.toList ++ init)).Perm ((held.toList ++ init) ++ [x]) :=
          List.perm_append_comm
      _ = held.toList ++ (init ++ [x]) := List.append_assoc _ _ _

/-- With an element held and a non-empty list, the next `k` rotations, as long as they do not
come round to the first again, take out the first `k` elements of `order`. -/
theorem emitted_eq_take (k : ℕ) :
    ∀ (t : α) (q : List α), q ≠ [] → k ≤ q.length + 1 →
      emitted k (some t) q = ((order (some t) q).take k).map some := by
  induction k with
  | zero => simp
  | succ k ih =>
    intro t q hq hk
    obtain ⟨init, x, rfl⟩ := (List.eq_nil_or_concat' q).resolve_left hq
    have hk' : k ≤ (t :: init).length + 1 := by simp at hk ⊢; omega
    rw [emitted_succ, rotate_concat, List.getLast?_concat, Option.toList_some,
      List.singleton_append, ih x (t :: init) (List.cons_ne_nil t init) hk']
    have htake : ((t :: init).reverse ++ [x]).take k = (init.reverse ++ [t]).take k := by
      rw [List.reverse_cons, List.take_append_of_le_length (by simp at hk ⊢; omega)]
    simp only [order, Option.toList_some, List.reverse_concat', List.cons_append,
      List.take_succ_cons, List.map_cons, htake]

/-- With an element held, one full round takes each element out once, in `order`. -/
theorem emitted_window_held (t : α) (q : List α) (hq : q ≠ []) :
    emitted (q.length + 1) (some t) q = (order (some t) q).map some := by
  rw [emitted_eq_take _ t q hq le_rfl]
  congr 1
  exact List.take_of_length_le (by simp [order])

/-- With nothing held, one full round takes the list out from the back. -/
theorem emitted_window_empty (q : List α) :
    emitted q.length none q = q.reverse.map some := by
  rcases List.eq_nil_or_concat' q with rfl | ⟨init, x, rfl⟩
  · rfl
  · rw [List.length_append, List.length_singleton, emitted_succ, rotate_concat,
      List.getLast?_concat]
    rcases List.eq_nil_or_concat' init with rfl | ⟨init', y, rfl⟩
    · rfl
    · rw [emitted_eq_take _ x _ (by simp) (by simp)]
      have htake : (order (some x) (Option.toList none ++ (init' ++ [y]))).take
          (init' ++ [y]).length = (init' ++ [y]).reverse := by
        simp [order]
      rw [htake]
      simp

/-- A single element and nothing held: it comes out on every other rotation only. -/
theorem emitted_single (x : α) (m : ℕ) :
    emitted (2 * m) none [x] = (List.replicate m [some x, none]).flatten := by
  induction m with
  | zero => rfl
  | succ m ih =>
    have h2 : 2 * (m + 1) = 2 * m + 1 + 1 := by omega
    rw [h2, emitted_succ, emitted_succ]
    have hx : rotate none [x] = (some x, []) := rfl
    have hn : rotate (some x) [] = (none, [x]) := rfl
    rw [hx, hn, ih, List.replicate_succ, List.flatten_cons]
    rfl

/-! ## Looking elements up by key -/

section Lookup

variable {β : Type*} [DecidableEq β] (key : α → β)

/-- With pairwise different keys, `find?` returns for a key the one element with that key. -/
theorem find?_key_eq_some_iff {l : List α} (hnd : (l.map key).Nodup) {b : β} {x : α} :
    l.find? (fun y => key y = b) = some x ↔ x ∈ l ∧ key x = b := by
  constructor
  · intro h
    exact ⟨List.mem_of_find?_eq_some h,
      of_decide_eq_true (List.find?_some (p := fun y => decide (key y = b)) h)⟩
  · rintro ⟨hx, hkx⟩
    obtain ⟨y, hy⟩ := Option.isSome_iff_exists.mp
      (List.find?_isSome (p := fun y => decide (key y = b)) |>.mpr ⟨x, hx, decide_eq_true hkx⟩)
    have hky : key y = b :=
      of_decide_eq_true (List.find?_some (p := fun y => decide (key y = b)) hy)
    rw [hy, List.inj_on_of_nodup_map hnd (List.mem_of_find?_eq_some hy) hx (hky.trans hkx.symm)]

/-- Two lists with the same elements and pairwise different keys find the same element for
every key. -/
theorem find?_key_perm {l l' : List α} (hp : l.Perm l') (hnd : (l.map key).Nodup) (b : β) :
    l.find? (fun y => key y = b) = l'.find? (fun y => key y = b) := by
  have hnd' : (l'.map key).Nodup := ((hp.map key).nodup_iff).mp hnd
  ext x
  rw [find?_key_eq_some_iff key hnd, find?_key_eq_some_iff key hnd', hp.mem_iff]

/-- A rotation keeps the element found for each key, held or in the list. -/
theorem find?_rotate (held : Option α) (q : List α) (hnd : ((held.toList ++ q).map key).Nodup)
    (b : β) :
    ((rotate held q).1.toList ++ (rotate held q).2).find? (fun y => key y = b) =
      (held.toList ++ q).find? (fun y => key y = b) :=
  (find?_key_perm key (rotate_perm held q).symm hnd b).symm

end Lookup

end RoundRobin
