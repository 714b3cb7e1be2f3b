import Mathlib.Data.List.Basic

/-!
# Numbered Copies

A sender gives every item a number, writes as many copies of it as it likes and
goes on to the next item. The line keeps the order and may lose any copy. A
receiver takes a copy that bears the number it expects, expects the next number
from then on, and passes over everything else; it may also pass over a copy it
could take, or take one and lose the item.

Numbers are few and come round again. What keeps a copy from being taken twice is
not that its number is unlike all others but that it is unlike the next one:
after a copy was taken the copies behind it bear the number just used up, and
when the number comes round again the order of the line has put later items in
front. So nothing is asked of the numbering except that `next k` is never `k`.

## Main definitions

* `Copies`: The copies a sender writes of a list of items.
* `Takes`: What a receiver makes of the copies that come in.

## Theorems

* `Takes.of_sublist`: A lost copy may as well have been passed over.
* `takes_sublist`: What is taken are items, in order, each at most once.
-/

namespace Numbering

variable {κ α : Type} {next : κ → κ}

/-- The copies of a list of items, the first number to be given being `k`. An
    item that is not sent takes no number; one that is takes one, even if all
    its copies are lost on the way. -/
inductive Copies (next : κ → κ) : κ → List α → List (κ × α) → Prop
  | nil (k : κ) : Copies next k [] []
  | unsent {k : κ} {x : α} {xs : List α} {cs : List (κ × α)} (h : Copies next k xs cs) :
    Copies next k (x :: xs) cs
  | sent {k : κ} {x : α} {xs : List α} {block cs : List (κ × α)}
    (hblock : ∀ c ∈ block, c = (k, x)) (h : Copies next (next k) xs cs) :
    Copies next k (x :: xs) (block ++ cs)

/-- What a receiver that expects the number `r` takes of the copies that come in,
    and the number it expects then. -/
inductive Takes (next : κ → κ) : κ → List (κ × α) → List α → κ → Prop
  | nil (r : κ) : Takes next r [] [] r
  | pass {r r' : κ} {c : κ × α} {cs : List (κ × α)} {ys : List α} (h : Takes next r cs ys r') :
    Takes next r (c :: cs) ys r'
  | take {r r' : κ} {x : α} {cs : List (κ × α)} {ys : List α} (h : Takes next (next r) cs ys r') :
    Takes next r ((r, x) :: cs) (x :: ys) r'
  | lose {r r' : κ} {x : α} {cs : List (κ × α)} {ys : List α} (h : Takes next (next r) cs ys r') :
    Takes next r ((r, x) :: cs) ys r'

namespace Takes

variable {r r' : κ} {cs cs' : List (κ × α)} {ys : List α}

/-- A copy lost on the way may as well have been passed over. -/
theorem of_sublist (h : Takes next r cs ys r') (hsub : cs.Sublist cs') :
    Takes next r cs' ys r' := by
  induction hsub generalizing r ys with
  | slnil => exact h
  | cons c _ ih => exact pass (ih h)
  | cons_cons c _ ih =>
      cases h with
      | pass h => exact pass (ih h)
      | take h => exact take (ih h)
      | lose h => exact lose (ih h)

/-- Copies of a number that is not expected are passed over. -/
theorem skip {k : κ} {x : α} {block : List (κ × α)} (hblock : ∀ c ∈ block, c = (k, x))
    (hne : r ≠ k) (h : Takes next r (block ++ cs) ys r') : Takes next r cs ys r' := by
  induction block generalizing ys with
  | nil => exact h
  | cons c block ih =>
      have hrest := fun c hc => hblock c (List.mem_cons_of_mem _ hc)
      have hc := hblock c List.mem_cons_self
      rw [List.cons_append] at h
      cases h with
      | pass h => exact ih hrest h
      | take h => exact absurd (congrArg Prod.fst hc) hne
      | lose h => exact absurd (congrArg Prod.fst hc) hne

end Takes

/-- What is taken of one item: nothing, or the item once. -/
theorem takes_block (hnext : ∀ k, next k ≠ k) {k r r' : κ} {x : α} {xs ys : List α}
    {block cs : List (κ × α)} (hblock : ∀ c ∈ block, c = (k, x))
    (h : Takes next r (block ++ cs) ys r')
    (hrest : ∀ {r ys}, Takes next r cs ys r' → ys.Sublist xs) : ys.Sublist (x :: xs) := by
  by_cases hr : r = k
  swap
  · exact (hrest (h.skip hblock hr)).cons x
  induction block generalizing ys with
  | nil => exact (hrest h).cons x
  | cons c block ih =>
      have hothers := fun c hc => hblock c (List.mem_cons_of_mem _ hc)
      have hc := hblock c List.mem_cons_self
      rw [List.cons_append] at h
      -- Once a copy is taken the others bear the number before the expected one.
      cases h with
      | pass h => exact ih hothers h
      | take h =>
          obtain ⟨rfl, rfl⟩ := Prod.mk.inj hc
          exact (hrest (h.skip hothers (hnext _))).cons_cons _
      | lose h =>
          obtain ⟨rfl, rfl⟩ := Prod.mk.inj hc
          exact (hrest (h.skip hothers (hnext _))).cons _

/-- What is taken are items, in order, each at most once. -/
theorem takes_sublist (hnext : ∀ k, next k ≠ k) {k r r' : κ} {xs ys : List α}
    {cs : List (κ × α)} (hcopies : Copies next k xs cs) (h : Takes next r cs ys r') :
    ys.Sublist xs := by
  induction hcopies generalizing r ys with
  | nil k =>
      cases h with
      | nil => exact List.Sublist.slnil
  | unsent _ ih => exact (ih h).cons _
  | sent hblock _ ih => exact takes_block hnext hblock h ih

end Numbering
