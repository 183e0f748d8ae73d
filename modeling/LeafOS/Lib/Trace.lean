import Mathlib

/-!
# Runs of a machine with outputs

A machine with states `σ` reads inputs `ε` one at a time; each step may emit one output
`ω`. `run` is the state after a list of inputs and `outputs` the outputs emitted on the
way, in order.

1. `run_append`: a run splits at any point of its inputs.
2. `outputs_handoff`: if every emitting step reads an observation of its start state and
   leaves another part of its output as the observation of its end state, and the silent
   steps keep the observation, then each output reads what the previous one left. The
   steps need to do so only from states satisfying an invariant `P` they keep. This is
   the shape of a context switch: the context saved at one switch is the one resumed at
   the switch before.
-/

namespace Trace

variable {σ ε ω β : Type*}

/-- The state after the inputs `es`. -/
def run (step : σ → ε → Option ω × σ) (s : σ) : List ε → σ
  | [] => s
  | e :: es => run step (step s e).2 es

/-- The outputs emitted while reading `es`, in order. -/
def outputs (step : σ → ε → Option ω × σ) (s : σ) : List ε → List ω
  | [] => []
  | e :: es => (step s e).1.toList ++ outputs step (step s e).2 es

variable (step : σ → ε → Option ω × σ)

@[simp] theorem run_nil (s : σ) : run step s [] = s := rfl

@[simp] theorem run_cons (s : σ) (e : ε) (es : List ε) :
    run step s (e :: es) = run step (step s e).2 es := rfl

@[simp] theorem outputs_nil (s : σ) : outputs step s [] = [] := rfl

@[simp] theorem outputs_cons (s : σ) (e : ε) (es : List ε) :
    outputs step s (e :: es) = (step s e).1.toList ++ outputs step (step s e).2 es := rfl

theorem run_append (s : σ) (es fs : List ε) :
    run step s (es ++ fs) = run step (run step s es) fs := by
  induction es generalizing s with
  | nil => rfl
  | cons e es ih => exact ih _

/-! ## Handing an observation from one output to the next -/

/-- One step hands the observation `obs` on: a silent step keeps it, an emitting step's
output reads it through `src` and leaves the new one as its `dst`. -/
def HandsOn (obs : σ → β) (src dst : ω → β) (s : σ) (e : ε) : Prop :=
  match (step s e).1 with
  | none => obs (step s e).2 = obs s
  | some o => src o = obs s ∧ obs (step s e).2 = dst o

variable {step} {P : σ → Prop} {obs : σ → β} {src dst : ω → β}

section Handoff

variable (hP : ∀ s e, P s → P (step s e).2) (h : ∀ s e, P s → HandsOn step obs src dst s e)
include hP h

/-- The first output of a run from a state satisfying the invariant `P` reads the
observation of the start state. -/
theorem outputs_head_src :
    ∀ (s : σ) (es : List ε), P s → ∀ o ∈ (outputs step s es).head?, src o = obs s := by
  intro s es hs
  induction es generalizing s with
  | nil => simp
  | cons e es ih =>
    intro o ho
    have he := h s e hs
    unfold HandsOn at he
    rw [outputs_cons] at ho
    cases hout : (step s e).1 with
    | none =>
      rw [hout] at he ho
      rw [← he]
      exact ih _ (hP s e hs) o (by simpa using ho)
    | some o' =>
      rw [hout] at he ho
      simp only [Option.toList_some, List.cons_append, List.head?_cons, Option.mem_def,
        Option.some.injEq] at ho
      rw [← ho]
      exact he.1

/-- Consecutive outputs of a run from a state satisfying the invariant `P` hand the
observation on: each reads what the one before left. -/
theorem outputs_handoff :
    ∀ (s : σ) (es : List ε), P s → (outputs step s es).IsChain (fun a b => src b = dst a) := by
  intro s es hs
  induction es generalizing s with
  | nil => simp
  | cons e es ih =>
    have he := h s e hs
    have hs' := hP s e hs
    unfold HandsOn at he
    rw [outputs_cons]
    cases hout : (step s e).1 with
    | none => simpa using ih _ hs'
    | some o =>
      rw [hout] at he
      have hhead := outputs_head_src hP h (step s e).2 es hs'
      simp only [Option.toList_some, List.cons_append, List.nil_append]
      cases hrest : outputs step (step s e).2 es with
      | nil => simp
      | cons o' rest =>
        rw [hrest] at hhead
        have ho' : src o' = obs (step s e).2 := hhead o' rfl
        rw [List.isChain_cons_cons]
        exact ⟨ho'.trans he.2, hrest ▸ ih _ hs'⟩

end Handoff

end Trace
