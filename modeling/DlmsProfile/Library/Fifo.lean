import Mathlib.Logic.Function.Basic

/-!
# Traces and Queues

A system of several parties is told by what it does step by step, with a label on
each step for what can be seen of it. One system does no more than another says if
each of its steps can be followed: the labels of its runs are then labels of runs of
the other.

The other one here is what a connection is for. It has a queue of messages on the
way to each party, and a party puts a message at the end of another's queue or takes
the one at the front of its own. So what was taken is always the beginning of what
was put, and what is missing from it is in the queue.

## Main definitions

* `Traces`: A run with its labels.
* `Simulates`: Each step can be followed.
* `Fifo.Step`: Queues, put to and taken from.
* `Fifo.puts`, `Fifo.takes`: What was put to a queue and taken from it.

## Theorems

* `Traces.simulated`: A run can be followed.
* `Fifo.balance`: What was put was taken or is still there.
-/

/-- A run of a step relation, with the labels of its steps. -/
inductive Traces {σ ℓ : Type} (step : σ → ℓ → σ → Prop) : σ → List ℓ → σ → Prop
  | nil {s : σ} : Traces step s [] s
  | cons {s t u : σ} {label : ℓ} {labels : List ℓ} (hstep : step s label t)
      (hrest : Traces step t labels u) : Traces step s (label :: labels) u

/-- A relation along which each step can be followed. -/
def Simulates {σ τ ℓ : Type} (step : σ → ℓ → σ → Prop) (spec : τ → ℓ → τ → Prop)
    (R : σ → τ → Prop) : Prop :=
  ∀ s a label s', R s a → step s label s' → ∃ a', spec a label a' ∧ R s' a'

/-- A run is followed step by step. -/
theorem Traces.simulated {σ τ ℓ : Type} {step : σ → ℓ → σ → Prop} {spec : τ → ℓ → τ → Prop}
    {R : σ → τ → Prop} (hsim : Simulates step spec R) {s s' : σ} {labels : List ℓ}
    (hrun : Traces step s labels s') {a : τ} (ha : R s a) :
    ∃ a', Traces spec a labels a' ∧ R s' a' := by
  induction hrun generalizing a with
  | nil => exact ⟨a, .nil, ha⟩
  | cons hstep hrest ih =>
      rcases hsim _ a _ _ ha hstep with ⟨a1, hspec, ha1⟩
      rcases ih ha1 with ⟨a', hspecs, ha'⟩
      exact ⟨a', .cons hspec hspecs, ha'⟩

namespace Fifo

variable {ι α : Type}

/-- What a step is to an onlooker. -/
inductive Label (ι α : Type) where
  | put (i : ι) (a : α)
  | take (i : ι) (a : α)
  | idle
deriving DecidableEq, Repr

section

variable [DecidableEq ι]

/-- A message is put at the end of a queue or taken from the front of one. -/
inductive Step : (ι → List α) → Label ι α → (ι → List α) → Prop
  | put (q : ι → List α) (i : ι) (a : α) :
      Step q (.put i a) (Function.update q i (q i ++ [a]))
  | take {q : ι → List α} {i : ι} {a : α} {rest : List α} (h : q i = a :: rest) :
      Step q (.take i a) (Function.update q i rest)
  | idle (q : ι → List α) : Step q .idle q

/-- The messages put to a queue, in order. -/
def puts (i : ι) : List (Label ι α) → List α
  | [] => []
  | .put j a :: labels => if j = i then a :: puts i labels else puts i labels
  | _ :: labels => puts i labels

/-- The messages taken from it. -/
def takes (i : ι) : List (Label ι α) → List α
  | [] => []
  | .take j a :: labels => if j = i then a :: takes i labels else takes i labels
  | _ :: labels => takes i labels

/-- What was put to a queue is what was taken from it and what is still there. -/
theorem balance {q q' : ι → List α} {labels : List (Label ι α)} (hrun : Traces Step q labels q')
    (i : ι) : takes i labels ++ q' i = q i ++ puts i labels := by
  -- On the run. A step moves one element of one queue, and the others stay as they are.
  induction hrun with
  | nil => exact (List.append_nil _).symm
  | cons hstep hrest ih =>
      cases hstep with
      | put j a =>
          by_cases hji : j = i
          · subst hji
            simp only [takes, puts, if_true]
            rw [ih, Function.update_self, List.append_assoc, List.singleton_append]
          · simp only [takes, puts, if_neg hji]
            rw [ih, Function.update_of_ne (Ne.symm hji)]
      | take h =>
          rename_i j a rest
          by_cases hji : j = i
          · subst hji
            simp only [takes, puts, if_true, List.cons_append]
            rw [ih, Function.update_self, h, List.cons_append]
          · simp only [takes, puts, if_neg hji]
            rw [ih, Function.update_of_ne (Ne.symm hji)]
      | idle => exact ih

end

end Fifo
