import Mathlib

/-!
# In-place row copies in a grid of cells

A grid is a function from a row and a column to a cell. The loops of a text buffer write
one cell at a time; `copyCells` is the inner loop that copies a row cell by cell, `shiftUp`
and `shiftDown` the outer loops that move every row one up or down in place.

An in-place shift is correct only if every row is read before it is overwritten: `shiftUp`
walks the rows upward, reading row `r` and writing row `r - 1`; `shiftDown` walks them
downward, reading row `r` and writing row `r + 1`. `shiftUp_apply` and `shiftDown_apply` give
the result cell by cell.
-/

/-- Cells by row and column. -/
abbrev Grid (α : Type*) := ℕ → ℕ → α

namespace Grid

variable {α : Type*}

/-- Write cell `(r, c)`. -/
def set (g : Grid α) (r c : ℕ) (x : α) : Grid α :=
  Function.update g r (Function.update (g r) c x)

/-- `for c in 0..w { g[dst][c] = g[src][c] }`. -/
def copyCells (g : Grid α) (dst src w : ℕ) : Grid α :=
  (List.range w).foldl (fun g c => g.set dst c (g src c)) g

/-- `for c in 0..w { g[r][c] = x }`. -/
def fillRow (g : Grid α) (r w : ℕ) (x : α) : Grid α :=
  (List.range w).foldl (fun g c => g.set r c x) g

/-- `for r in 1..h { copy row r to row r - 1 }`, rows `w` cells wide. -/
def shiftUp (g : Grid α) (h w : ℕ) : Grid α :=
  (List.range' 1 (h - 1)).foldl (fun g r => g.copyCells (r - 1) r w) g

/-- `for r in (0..h - 1).rev() { copy row r to row r + 1 }`, rows `w` cells wide. -/
def shiftDown (g : Grid α) (h w : ℕ) : Grid α :=
  (List.range (h - 1)).reverse.foldl (fun g r => g.copyCells (r + 1) r w) g

theorem set_apply (g : Grid α) (r c : ℕ) (x : α) (r' c' : ℕ) :
    g.set r c x r' c' = if r' = r ∧ c' = c then x else g r' c' := by
  unfold set
  by_cases hr : r' = r
  · subst hr
    by_cases hc : c' = c <;> simp [hc]
  · simp [hr]

theorem fillRow_apply (g : Grid α) (r w : ℕ) (x : α) (r' c : ℕ) :
    g.fillRow r w x r' c = if r' = r ∧ c < w then x else g r' c := by
  induction w with
  | zero => simp [fillRow]
  | succ w ih =>
    rw [fillRow, List.range_succ, List.foldl_append, ← fillRow, List.foldl_cons,
      List.foldl_nil, set_apply, ih]
    by_cases hr : r' = r
    · by_cases hc : c = w
      · simp [hr, hc]
      · simp only [hr, hc, true_and, if_false]
        by_cases hcw : c < w
        · simp [hcw, show c < w + 1 by omega]
        · simp [hcw, show ¬ c < w + 1 by omega]
    · simp [hr]

/-- Copying a row cell by cell into another row gives that row the source's first `w` cells
and leaves every other cell. -/
theorem copyCells_apply (g : Grid α) {dst src : ℕ} (hne : dst ≠ src) (w r c : ℕ) :
    g.copyCells dst src w r c = if r = dst ∧ c < w then g src c else g r c := by
  induction w generalizing r c with
  | zero => simp [copyCells]
  | succ w ih =>
    rw [copyCells, List.range_succ, List.foldl_append, ← copyCells, List.foldl_cons,
      List.foldl_nil, set_apply]
    simp only [ih]
    by_cases hr : r = dst
    · subst hr
      by_cases hc : c = w
      · simp [hc, hne.symm]
      · by_cases hcw : c < w
        · simp [hc, hcw, show c < w + 1 by omega]
        · simp [hc, hcw, show ¬ c < w + 1 by omega]
    · simp [hr]

/-- After the first `n` rows of the upward walk, rows `0, …, n - 1` hold the rows below them. -/
theorem foldl_copyUp (g : Grid α) (w n r c : ℕ) (hc : c < w) :
    (List.range' 1 n).foldl (fun g r => g.copyCells (r - 1) r w) g r c =
      if r < n then g (r + 1) c else g r c := by
  induction n generalizing r with
  | zero => simp
  | succ n ih =>
    have e : 1 + 1 * n = n + 1 := by omega
    rw [List.range'_concat, List.foldl_append, List.foldl_cons, List.foldl_nil, e,
      Nat.add_sub_cancel, copyCells_apply _ (by omega)]
    simp only [ih]
    by_cases hr : r = n
    · simp [hr, hc]
    · by_cases hrn : r < n
      · simp [hr, hrn, show r < n + 1 by omega]
      · simp [hr, hrn, show ¬ r < n + 1 by omega]

/-- `shiftUp` moves every row but the last one up: row `r` gets row `r + 1`. -/
theorem shiftUp_apply (g : Grid α) (h w r c : ℕ) (hc : c < w) :
    g.shiftUp h w r c = if r + 1 < h then g (r + 1) c else g r c := by
  rw [shiftUp, foldl_copyUp g w (h - 1) r c hc]
  by_cases hr : r + 1 < h
  · simp [hr, show r < h - 1 by omega]
  · simp [hr, show ¬ r < h - 1 by omega]

/-- After the downward walk from row `n - 1`, rows `1, …, n` hold the rows above them. -/
theorem foldl_copyDown (g : Grid α) (w n r c : ℕ) (hc : c < w) :
    (List.range n).reverse.foldl (fun g r => g.copyCells (r + 1) r w) g r c =
      if 1 ≤ r ∧ r ≤ n then g (r - 1) c else g r c := by
  induction n generalizing g with
  | zero => simp; omega
  | succ n ih =>
    rw [List.range_succ, List.reverse_append, List.reverse_singleton, List.singleton_append,
      List.foldl_cons, ih, copyCells_apply _ (by omega), copyCells_apply _ (by omega)]
    by_cases hr : r = n + 1
    · simp [hr, hc]
    · by_cases hrn : 1 ≤ r ∧ r ≤ n
      · simp [hrn, show r - 1 ≠ n + 1 by omega, show 1 ≤ r ∧ r ≤ n + 1 by omega]
      · simp [hr, hrn, show ¬ (1 ≤ r ∧ r ≤ n + 1) by omega]

/-- `shiftDown` moves every row but the first one down: row `r`, `1 ≤ r < h`, gets row
`r - 1`. -/
theorem shiftDown_apply (g : Grid α) (h w r c : ℕ) (hc : c < w) :
    g.shiftDown h w r c = if 1 ≤ r ∧ r < h then g (r - 1) c else g r c := by
  rw [shiftDown, foldl_copyDown g w (h - 1) r c hc]
  by_cases hr : 1 ≤ r ∧ r < h
  · simp [hr, show 1 ≤ r ∧ r ≤ h - 1 by omega]
  · simp [hr, show ¬ (1 ≤ r ∧ r ≤ h - 1) by omega]

end Grid
