import Mathlib.Data.List.Basic

/-!
# Runs in a List

A list read as runs: some elements ask for more, and the first that does not ends the
run they are in. What a list leaves open goes on in the list behind it, so two lists
read one after the other have the runs of the first, and then those of the second with
what was open in front. The reading of a list that leaves nothing open therefore does
not depend on what comes after it.

## Main definitions

* `Runs.completed`: The runs a list completes, what was open first.
* `Runs.remainder`: What a list leaves open.

## Theorems

* `Runs.completed_append`: Two lists read one after the other.
* `Runs.completed_continuing`: Elements that all ask for more complete nothing.
* `Runs.completed_ending`: Elements that all end a run are runs by themselves.
* `Runs.completed_run`: One run.
-/

namespace Runs

variable {α : Type} {more : α → Bool}

/-- The runs a list completes, the elements in front of it being open. -/
def completed (more : α → Bool) : List α → List α → List (List α)
  | _, [] => []
  | front, x :: xs =>
    if more x then completed more (front ++ [x]) xs
    else (front ++ [x]) :: completed more [] xs

/-- What a list leaves open. -/
def remainder (more : α → Bool) : List α → List α → List α
  | front, [] => front
  | front, x :: xs =>
    if more x then remainder more (front ++ [x]) xs else remainder more [] xs

/-- Two lists read one after the other. -/
theorem completed_append (front xs ys : List α) :
    completed more front (xs ++ ys) =
      completed more front xs ++ completed more (remainder more front xs) ys := by
  induction xs generalizing front with
  | nil => rfl
  | cons x xs ih =>
      simp only [List.cons_append, completed, remainder]
      split
      · exact ih (front ++ [x])
      · rw [ih [], List.cons_append]

theorem remainder_append (front xs ys : List α) :
    remainder more front (xs ++ ys) = remainder more (remainder more front xs) ys := by
  induction xs generalizing front with
  | nil => rfl
  | cons x xs ih =>
      simp only [List.cons_append, remainder]
      split <;> exact ih _

/-- Elements that all ask for more complete nothing. -/
theorem completed_continuing {front xs : List α} (h : ∀ x ∈ xs, more x = true) :
    completed more front xs = [] := by
  induction xs generalizing front with
  | nil => rfl
  | cons x xs ih =>
      rw [completed, if_pos (h x List.mem_cons_self)]
      exact ih fun y hy => h y (List.mem_cons_of_mem x hy)

theorem remainder_continuing (front : List α) {xs : List α} (h : ∀ x ∈ xs, more x = true) :
    remainder more front xs = front ++ xs := by
  induction xs generalizing front with
  | nil => exact (List.append_nil front).symm
  | cons x xs ih =>
      have hrest := ih (front ++ [x]) fun y hy => h y (List.mem_cons_of_mem x hy)
      rw [remainder, if_pos (h x List.mem_cons_self), hrest, List.append_assoc,
        List.singleton_append]

/-- Elements that all end a run are runs by themselves, and leave nothing open. -/
theorem completed_ending {xs : List α} (h : ∀ x ∈ xs, more x = false) :
    completed more [] xs = xs.map ([·]) ∧ remainder more [] xs = [] := by
  induction xs with
  | nil => exact ⟨rfl, rfl⟩
  | cons x xs ih =>
      rcases ih fun y hy => h y (List.mem_cons_of_mem x hy) with ⟨hruns, hrest⟩
      have hx : ¬ more x = true := Bool.not_eq_true _ ▸ h x List.mem_cons_self
      constructor
      · rw [completed, if_neg hx, hruns]
        rfl
      · rw [remainder, if_neg hx, hrest]

/-- One run, whole: it is completed, and nothing is left open. -/
theorem completed_run {xs : List α} {x : α} (h : ∀ y ∈ xs, more y = true) (hx : more x = false) :
    completed more [] (xs ++ [x]) = [xs ++ [x]] ∧ remainder more [] (xs ++ [x]) = [] := by
  have hopen : remainder more [] xs = xs := remainder_continuing [] h
  have hend : ¬ more x = true := Bool.not_eq_true _ ▸ hx
  constructor
  · rw [completed_append, completed_continuing h, hopen, completed, if_neg hend]
    rfl
  · rw [remainder_append, hopen, remainder, if_neg hend]
    rfl

end Runs
