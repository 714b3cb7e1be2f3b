import DlmsProfile.Library.Fifo
import Mathlib.Data.List.Forall2

/-!
# Networks that Lose, Repeat and Reorder

Below a queue there is a network that promises nothing but to make nothing up. What was
put to a party stays there to be taken, never or any number of times and in any order. So
all that can be said of a run is said of its steps one by one: what is put is acceptable,
and what is taken was put before and fits whoever takes it.

## Main definitions

* `Lossy.Permitted`: What a step asks for.
* `Lossy.Step`: A step of such a network.

## Theorems

* `Lossy.traces_iff`: Which runs there are.
* `Lossy.matched`: What a message on one level is on the other.
-/

namespace Lossy

variable {ι α : Type}

/-- What a step asks for, given what was put before. -/
def Permitted (accepts fits : ι → α → Prop) (log : ι → List α) : Fifo.Label ι α → Prop
  | .put i a => accepts i a
  | .take i a => a ∈ log i ∧ fits i a
  | .idle => True

section

variable [DecidableEq ι] {accepts fits : ι → α → Prop}

/-- What has been put after a step. -/
def record (log : ι → List α) : Fifo.Label ι α → ι → List α
  | .put i a => Function.update log i (log i ++ [a])
  | .take _ _ => log
  | .idle => log

/-- A message is put, or taken and left where it is. -/
def Step (accepts fits : ι → α → Prop) (log : ι → List α) (label : Fifo.Label ι α)
    (log' : ι → List α) : Prop :=
  Permitted accepts fits log label ∧ log' = record log label

theorem record_puts (log : ι → List α) (label : Fifo.Label ι α) (labels : List (Fifo.Label ι α)) :
    (fun i => record log label i ++ Fifo.puts i labels) =
      fun i => log i ++ Fifo.puts i (label :: labels) := by
  funext i
  cases label with
  | put j a =>
      by_cases hji : j = i
      · subst hji
        simp only [record, Fifo.puts, if_true, Function.update_self, List.append_assoc,
          List.singleton_append]
      · simp only [record, Fifo.puts, if_neg hji, Function.update_of_ne (Ne.symm hji)]
  | take j a => rfl
  | idle => rfl

/-- The runs are those in which each step is permitted after what was put before it. -/
theorem traces_iff {log : ι → List α} {labels : List (Fifo.Label ι α)} :
    (∃ log', Traces (Step accepts fits) log labels log') ↔
      ∀ before label after, labels = before ++ label :: after →
        Permitted accepts fits (fun i => log i ++ Fifo.puts i before) label := by
  -- On the labels. What the first of them records is part of the log for the others.
  induction labels generalizing log with
  | nil =>
      refine iff_of_true ⟨log, .nil⟩ fun before label after h => ?_
      exact absurd h.symm (List.append_ne_nil_of_right_ne_nil _ (List.cons_ne_nil _ _))
  | cons first labels ih =>
      have hnil : (fun i => log i ++ Fifo.puts i []) = log := by
        funext i
        exact List.append_nil _
      constructor
      · rintro ⟨log', hrun⟩ before label after h
        cases hrun with
        | cons hstep hrest =>
            rcases hstep with ⟨hfirst, rfl⟩
            -- The label asked about is the first of the run, or one of those behind it.
            cases before with
            | nil =>
                obtain ⟨rfl, rfl⟩ := List.cons.inj h
                rwa [hnil]
            | cons b before =>
                obtain ⟨rfl, hlabels⟩ := List.cons.inj h
                have hlater := ih.mp ⟨log', hrest⟩ before label after hlabels
                rwa [record_puts] at hlater
      · intro h
        have hfirst := h [] first labels rfl
        rw [hnil] at hfirst
        have hrest : ∃ log', Traces (Step accepts fits) (record log first) labels log' := by
          refine ih.mpr fun before label after hlabels => ?_
          rw [record_puts]
          exact h (first :: before) label after (congrArg _ hlabels)
        rcases hrest with ⟨log', hrest⟩
        exact ⟨log', .cons ⟨hfirst, rfl⟩ hrest⟩

end

/-- Of two logs that match entry by entry, an entry of one has its match in the other. -/
theorem matched {β : Type} {R : α → β → Prop} {log : List α} {sent : List β}
    (h : List.Forall₂ R log sent) {a : α} (ha : a ∈ log) : ∃ b ∈ sent, R a b := by
  induction h with
  | nil => exact absurd ha List.not_mem_nil
  | cons hfirst _ ih =>
      rcases List.mem_cons.mp ha with rfl | hrest
      · exact ⟨_, List.mem_cons_self, hfirst⟩
      · rcases ih hrest with ⟨b, hb, hab⟩
        exact ⟨b, List.mem_cons_of_mem _ hb, hab⟩

end Lossy
