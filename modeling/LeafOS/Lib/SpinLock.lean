import Mathlib

/-!
# Spin locks on one core

A context runs a list of operations: take a spin lock, give it back, or act. On one core a
context that finds its lock taken spins until the holder gives it back; when the holder is a
context it preempted, or one that is never resumed, it spins forever. `runAtomic held ops`
runs a context that nothing preempts (an interrupt handler, with interrupts off) against the
locks `held`: `none` when it spins forever, else the locks held when it ends.

1. `Nested`: the operation lists whose locks are taken and given back in nested order, each
   lock given back before it is taken again, as guards scoped by blocks do.
2. `runAtomic_append`: a concatenation runs as its parts one after the other.
3. `Nested.runAtomic_eq`: a nested context completes against `held` exactly when it takes
   none of the locks in `held`, and then leaves them held as they were.
-/

namespace SpinLock

/-- An operation of a context. -/
inductive Op (L A : Type*) where
  | acquire (l : L)
  | release (l : L)
  | act (a : A)
  deriving DecidableEq, Repr

variable {L A : Type*}

/-- The locks an operation list takes, in order. -/
def acquired : List (Op L A) → List L
  | [] => []
  | .acquire l :: ops => l :: acquired ops
  | .release _ :: ops => acquired ops
  | .act _ :: ops => acquired ops

@[simp] theorem acquired_nil : acquired ([] : List (Op L A)) = [] := rfl

@[simp] theorem acquired_acquire (l : L) (ops : List (Op L A)) :
    acquired (.acquire l :: ops) = l :: acquired ops := rfl

@[simp] theorem acquired_release (l : L) (ops : List (Op L A)) :
    acquired (.release l :: ops) = acquired ops := rfl

@[simp] theorem acquired_act (a : A) (ops : List (Op L A)) :
    acquired (.act a :: ops) = acquired ops := rfl

@[simp] theorem acquired_append (ops ops' : List (Op L A)) :
    acquired (ops ++ ops') = acquired ops ++ acquired ops' := by
  induction ops with
  | nil => rfl
  | cons op ops ih => cases op <;> simp [ih]

/-- The operation lists that take and give back their locks in nested order: an action, or a
lock taken, a nested body that does not take it again, the lock given back, and the rest. -/
inductive Nested : List (Op L A) → Prop
  | nil : Nested []
  | act (a : A) {ops : List (Op L A)} : Nested ops → Nested (.act a :: ops)
  | crit (l : L) {body ops : List (Op L A)} : Nested body → l ∉ acquired body → Nested ops →
      Nested (.acquire l :: (body ++ .release l :: ops))

theorem Nested.append {ops ops' : List (Op L A)} (h : Nested ops) (h' : Nested ops') :
    Nested (ops ++ ops') := by
  induction h with
  | nil => exact h'
  | act a _ ih => exact .act a ih
  | crit l hb hl _ _ ih =>
    rw [List.cons_append, List.append_assoc, List.cons_append]
    exact .crit l hb hl ih

/-- The lock `l` taken around a nested body that does not take it again. -/
theorem Nested.locked (l : L) {body : List (Op L A)} (h : Nested body)
    (hl : l ∉ acquired body) : Nested ([.acquire l] ++ body ++ [.release l]) := by
  simpa using Nested.crit l h hl .nil

theorem Nested.flatten {opss : List (List (Op L A))} (h : ∀ ops ∈ opss, Nested ops) :
    Nested opss.flatten := by
  induction opss with
  | nil => exact .nil
  | cons ops opss ih =>
    rw [List.flatten_cons]
    exact (h ops (by simp)).append (ih fun o ho => h o (by simp [ho]))

variable [DecidableEq L]

/-- Run a context that nothing preempts against the locks `held`: `none` when it takes a lock
that is held, since the holder cannot run before it ends. -/
def runAtomic (held : Finset L) : List (Op L A) → Option (Finset L)
  | [] => some held
  | .acquire l :: ops => if l ∈ held then none else runAtomic (insert l held) ops
  | .release l :: ops => runAtomic (held.erase l) ops
  | .act _ :: ops => runAtomic held ops

@[simp] theorem runAtomic_nil (held : Finset L) : runAtomic held ([] : List (Op L A)) = some held :=
  rfl

@[simp] theorem runAtomic_release (held : Finset L) (l : L) (ops : List (Op L A)) :
    runAtomic held (.release l :: ops) = runAtomic (held.erase l) ops := rfl

@[simp] theorem runAtomic_act (held : Finset L) (a : A) (ops : List (Op L A)) :
    runAtomic held (.act a :: ops) = runAtomic held ops := rfl

theorem runAtomic_acquire (held : Finset L) (l : L) (ops : List (Op L A)) :
    runAtomic held (.acquire l :: ops) =
      if l ∈ held then none else runAtomic (insert l held) ops := rfl

theorem runAtomic_append (held : Finset L) (ops ops' : List (Op L A)) :
    runAtomic held (ops ++ ops') = (runAtomic held ops).bind fun h => runAtomic h ops' := by
  induction ops generalizing held with
  | nil => rfl
  | cons op ops ih =>
    cases op with
    | acquire l =>
      rw [List.cons_append, runAtomic_acquire, runAtomic_acquire]
      split
      · rfl
      · exact ih _
    | release l => exact ih _
    | act a => exact ih _

/-- A nested context completes against `held` exactly when it takes none of its locks, and
leaves `held` as it found it. -/
theorem Nested.runAtomic_eq {ops : List (Op L A)} (h : Nested ops) (held : Finset L) :
    runAtomic held ops = if ∀ l ∈ acquired ops, l ∉ held then some held else none := by
  induction h generalizing held with
  | nil => simp
  | act a _ ih => rw [runAtomic_act, ih, acquired_act]
  | @crit l body ops _ hl _ ihb ihs =>
    rw [runAtomic_acquire]
    by_cases hlh : l ∈ held
    · rw [if_pos hlh, if_neg (by simp [hlh])]
    rw [if_neg hlh, runAtomic_append, ihb]
    -- the body sees `l` held as well, and never takes it
    have hins :
        (∀ x ∈ acquired body, x ∉ insert l held) ↔ ∀ x ∈ acquired body, x ∉ held := by
      refine forall₂_congr fun x hx => ?_
      have hxl : x ≠ l := fun e => hl (e ▸ hx)
      simp [hxl]
    by_cases hb : ∀ x ∈ acquired body, x ∉ held
    · rw [if_pos (hins.mpr hb), Option.bind_some, runAtomic_release,
        Finset.erase_insert hlh, ihs]
      by_cases hs : ∀ x ∈ acquired ops, x ∉ held
      · rw [if_pos hs, if_pos]
        simp only [acquired_acquire, acquired_append, acquired_release, List.mem_cons,
          List.mem_append]
        rintro x (rfl | hx | hx)
        exacts [hlh, hb x hx, hs x hx]
      · rw [if_neg hs, if_neg]
        exact fun hall => hs fun x hx => hall x (by simp [hx])
    · rw [if_neg (mt hins.mp hb), Option.bind_none, if_neg]
      exact fun hall => hb fun x hx => hall x (by simp [hx])

theorem Nested.runAtomic_eq_some {ops : List (Op L A)} (h : Nested ops) {held : Finset L}
    (hfree : ∀ l ∈ acquired ops, l ∉ held) : runAtomic held ops = some held := by
  rw [h.runAtomic_eq, if_pos hfree]

theorem Nested.runAtomic_eq_none {ops : List (Op L A)} (h : Nested ops) {held : Finset L}
    {l : L} (hl : l ∈ acquired ops) (hheld : l ∈ held) : runAtomic held ops = none := by
  rw [h.runAtomic_eq, if_neg (fun hall => hall l hl hheld)]

end SpinLock
