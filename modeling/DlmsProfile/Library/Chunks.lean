import Mathlib.Data.List.Basic

/-!
# Cutting a List into Chunks

A list cut into a given number of chunks of a given size, the way a loop does it
that counts its turns in advance: each turn takes what it can and leaves the
rest. With too few turns a rest is left over, with too many there are turns with
nothing to take, and the rounded up quotient is exactly between the two.

## Main definitions

* `Chunks.chunks`: The chunks a number of turns takes.
* `Chunks.turns`: The rounded up quotient, at least one turn.

## Theorems

* `Chunks.chunks_flatten`: Enough turns take the whole list.
* `Chunks.length_le_of_mem`: No chunk is longer than the size.
* `Chunks.ne_nil_of_mem`: Not too many turns take something each.
* `Chunks.turns_enough`, `Chunks.turns_needed`: The quotient is enough and not
  too many.
-/

namespace Chunks

variable {α : Type}

/-- The chunks that the given number of turns takes off a list. -/
def chunks (size : Nat) : Nat → List α → List (List α)
  | 0, _ => []
  | left + 1, xs => xs.take size :: chunks size left (xs.drop size)

theorem chunks_length (size left : Nat) (xs : List α) : (chunks size left xs).length = left := by
  induction left generalizing xs with
  | zero => rfl
  | succ left ih => rw [chunks, List.length_cons, ih]

/-- Enough turns take the whole list. -/
theorem chunks_flatten {size left : Nat} {xs : List α} (h : xs.length ≤ left * size) :
    (chunks size left xs).flatten = xs := by
  induction left generalizing xs with
  | zero =>
      rw [Nat.zero_mul, Nat.le_zero, List.length_eq_zero_iff] at h
      rw [h]
      rfl
  | succ left ih =>
      have hrest : (xs.drop size).length ≤ left * size := by
        rw [Nat.succ_mul] at h
        rw [List.length_drop]
        omega
      rw [chunks, List.flatten_cons, ih hrest, List.take_append_drop]

theorem length_le_of_mem {size left : Nat} {xs chunk : List α} (h : chunk ∈ chunks size left xs) :
    chunk.length ≤ size := by
  induction left generalizing xs with
  | zero => exact absurd h List.not_mem_nil
  | succ left ih =>
      rcases List.mem_cons.mp h with rfl | h
      · exact List.length_take_le size xs
      · exact ih h

/-- Turns that all find something left take something each. -/
theorem ne_nil_of_mem {size left : Nat} {xs chunk : List α} (hsize : 0 < size)
    (hlong : (left - 1) * size < xs.length) (h : chunk ∈ chunks size left xs) : chunk ≠ [] := by
  -- On the number of chunks. All but the last of them leave something behind.
  induction left generalizing xs with
  | zero => exact absurd h List.not_mem_nil
  | succ left ih =>
      rw [Nat.add_sub_cancel] at hlong
      have hpos : 0 < xs.length := Nat.lt_of_le_of_lt (Nat.zero_le _) hlong
      rcases List.mem_cons.mp h with rfl | h
      · refine List.length_pos_iff.mp ?_
        rw [List.length_take]
        omega
      · cases left with
        | zero => exact absurd h List.not_mem_nil
        | succ left =>
            refine ih ?_ h
            rw [Nat.succ_mul] at hlong
            rw [List.length_drop, Nat.add_sub_cancel]
            omega

/-- The number of turns a length takes: the rounded up quotient, and one turn for
    nothing at all. -/
def turns (length size : Nat) : Nat := if length = 0 then 1 else (length + (size - 1)) / size

theorem turns_pos {length size : Nat} (h : length = 0 ∨ 0 < size) : 0 < turns length size := by
  rw [turns]
  split
  · exact Nat.one_pos
  next hne =>
    have hsize := h.resolve_left hne
    exact Nat.div_pos (by omega) hsize

theorem turns_enough {length size : Nat} (h : length = 0 ∨ 0 < size) :
    length ≤ turns length size * size := by
  rw [turns]
  split
  · omega
  next hne =>
    have hdiv := Nat.div_add_mod (length + (size - 1)) size
    have hmod := Nat.mod_lt (length + (size - 1)) (h.resolve_left hne)
    rw [Nat.mul_comm] at hdiv
    omega

theorem turns_needed {length size : Nat} (hlength : 0 < length) (hsize : 0 < size) :
    (turns length size - 1) * size < length := by
  rw [turns, if_neg (Nat.pos_iff_ne_zero.mp hlength), Nat.sub_mul]
  have hle := Nat.div_mul_le_self (length + (size - 1)) size
  omega

end Chunks
