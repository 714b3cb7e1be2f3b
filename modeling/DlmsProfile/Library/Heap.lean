import DlmsProfile.Library.Faults
import Mathlib.Data.List.Nodup
import Mathlib.Logic.Function.Basic

/-!
# Objects with Owners

A program that makes objects with `new` and gets rid of them with `delete` can go
wrong in ways no status tells of. It can use an address that holds nothing any
more, and it can forget an address that still holds something. Both depend on
what else happens on the way, since every allocation may throw.

A heap maps addresses to objects. The address of a deleted object is not given
away again, so that a stale address is found out whenever it is used. What a
procedure did to the heap is told by the objects it added, and who has to delete
an object by a list of owners. Ownership is exact when the owned addresses are
those that hold something, each with one owner.

## Main definitions

* `Heap`: Objects by address.
* `Heap.new`, `Heap.load`, `Heap.store`, `Heap.delete`: What a program does with them.
* `Heap.passing`: Sites that may throw.
* `Heap.catching`: A handler.
* `Heap.owning`: An owner that deletes its object when an exception passes.
* `Heap.Adds`, `Heap.Removes`: What became of the heap.
* `Heap.Owned`: Ownership is exact.
* `Heap.Clear`: Nothing is thrown at the next sites.

## Theorems

* `Heap.Adds.new`, `Heap.Adds.delete`: An object more, and an object less.
* `Heap.Owned.adds`, `Heap.Owned.removes`: A new owner, and one that is done.
* `Heap.new_cases`, `Heap.passing_cases`: An allocation throws or does not.
* `Heap.delete_of_adds`, `Heap.delete_of_removes`: What is there can be deleted.
-/

/-- Objects by address. No address from the next one on holds anything. -/
structure Heap (κ : Type) where
  next : Nat
  cells : Nat → Option κ
  fresh : ∀ a, next ≤ a → cells a = none

/-- What a program must not do: use an address that does not hold what it takes it
    to hold. -/
inductive Misuse where
  | badAddress
deriving DecidableEq, Repr

namespace Heap

variable {κ α β : Type}

/-- Nothing was made yet. -/
def empty : Heap κ := ⟨0, fun _ => none, fun _ _ => rfl⟩

/-- One object more, at the next address. -/
def add (h : Heap κ) (object : κ) : Heap κ where
  next := h.next + 1
  cells := Function.update h.cells h.next (some object)
  -- What is not yet fresh is the address just used, and it is below the next one.
  fresh a ha := by
    rw [Function.update_of_ne (Nat.ne_of_gt ha)]
    exact h.fresh a (Nat.le_of_succ_le ha)

/-- Whatever was at an address is gone. -/
def remove (h : Heap κ) (a : Nat) : Heap κ where
  next := h.next
  cells := Function.update h.cells a none
  fresh b hb := by
    by_cases hab : b = a
    · rw [hab, Function.update_self]
    · rw [Function.update_of_ne hab, h.fresh b hb]

/-- The object at an address, if there is one, is replaced. -/
def write (h : Heap κ) (a : Nat) (object : κ) : Heap κ where
  next := h.next
  cells := Function.update h.cells a ((h.cells a).map fun _ => object)
  -- Nothing is made by overwriting, also where it is tried at a fresh address.
  fresh b hb := by
    by_cases hab : b = a
    · rw [hab, Function.update_self, ← hab, h.fresh b hb, Option.map_none]
    · rw [Function.update_of_ne hab, h.fresh b hb]

/-- A procedure over a heap, which may throw and may misuse an address. -/
abbrev Procedure (κ α : Type) : Type := Proc (Faulty (Heap κ)) (Exit Misuse) α

/-- `new`: the allocation may throw. -/
def new (object : κ) : Procedure κ Nat := do
  Proc.mayThrow
  Proc.safely fun h => (.done h.next, h.add object)

/-- So many sites, one after the other. -/
def passing : Nat → Procedure κ Unit
  | 0 => pure ()
  | n + 1 => do
    Proc.mayThrow
    passing n

/-- Use the object at an address. -/
def load (a : Nat) : Procedure κ κ := Proc.safely fun h =>
  match h.cells a with
  | some object => (.done object, h)
  | none => (.fail .badAddress, h)

/-- Overwrite the object at an address. -/
def store (a : Nat) (object : κ) : Procedure κ Unit := do
  let _ ← load a
  Proc.safely (Proc.modify (·.write a object))

/-- `delete`, which does nothing to a null pointer. -/
def delete : Option Nat → Procedure κ Unit
  | none => pure ()
  | some a => do
    let _ ← load a
    Proc.safely (Proc.modify (·.remove a))

/-- `try` and `catch (...)`, with something to do in the handler. -/
def catching (handler x : Procedure κ α) : Procedure κ α := fun s =>
  match x s with
  | (.fail .exception, t) => handler t
  | (o, t) => (o, t)

/-- `std::unique_ptr` around a block that releases it at its end: an exception
    passes, but the object is deleted. -/
def owning (a : Nat) (x : Procedure κ α) : Procedure κ α :=
  catching (do
    delete (some a)
    Proc.fail .exception) x

/-- Nothing is thrown at the next so many sites. -/
def Clear (n : Nat) (faults : List Bool) : Prop := true ∉ faults.take n

instance (n : Nat) (faults : List Bool) : Decidable (Clear n faults) :=
  inferInstanceAs (Decidable (¬ true ∈ faults.take n))

theorem clear_zero (faults : List Bool) : Clear 0 faults := List.not_mem_nil

/-- A script that says nothing throws nowhere. -/
theorem clear_nil (n : Nat) : Clear n [] := by
  rw [Clear, List.take_nil]
  exact List.not_mem_nil

/-- The next site, and those behind it. -/
theorem clear_succ {n : Nat} {faults : List Bool} :
    Clear (n + 1) faults ↔ faults.headD false = false ∧ Clear n faults.tail := by
  cases faults with
  | nil =>
      simp only [Clear, List.take_nil, List.tail_nil, List.headD_nil, true_and]
  | cons fault faults =>
      simp only [Clear, List.take_succ_cons, List.mem_cons, not_or, List.headD_cons,
        List.tail_cons, Bool.true_eq, Bool.not_eq_true]

/-- Some sites, and then some more. -/
theorem clear_add (m n : Nat) (faults : List Bool) :
    Clear (m + n) faults ↔ Clear m faults ∧ Clear n (faults.drop m) := by
  simp only [Clear, List.take_add, List.mem_append, not_or]

theorem write_cells (h : Heap κ) (a : Nat) (object : κ) :
    (h.write a object).cells a = (h.cells a).map fun _ => object := Function.update_self _ _ _

theorem write_cells_self {h : Heap κ} {a : Nat} {old : κ} (ha : h.cells a = some old)
    (object : κ) : (h.write a object).cells a = some object := by
  rw [write_cells, ha, Option.map_some]

theorem write_cells_of_ne {a b : Nat} (hne : b ≠ a) (h : Heap κ) (object : κ) :
    (h.write a object).cells b = h.cells b := Function.update_of_ne hne _ _

/-- Overwriting makes no address hold something that held nothing, nor the reverse. -/
theorem write_live (h : Heap κ) (a : Nat) (object : κ) (b : Nat) :
    ((h.write a object).cells b).isSome = (h.cells b).isSome := by
  by_cases hba : b = a
  · rw [hba, write_cells, Option.isSome_map]
  · rw [write_cells_of_ne hba]

/-- What a heap has that another one had not: the objects at these addresses, and
    nothing else. -/
structure Adds (h h' : Heap κ) (objects : List (Nat × κ)) : Prop where
  nodup : (objects.map Prod.fst).Nodup
  held : ∀ x ∈ objects, h.cells x.1 = none ∧ h'.cells x.1 = some x.2
  other : ∀ a, a ∉ objects.map Prod.fst → h'.cells a = h.cells a
  next : h.next ≤ h'.next

/-- What a heap has no more: the objects at these addresses. What the object at one
    address became is left open, and nothing else was changed. -/
structure Removes (h h' : Heap κ) (p : Nat) (addresses : List Nat) : Prop where
  gone : ∀ a ∈ addresses, h'.cells a = none
  other : ∀ a, a ≠ p → a ∉ addresses → h'.cells a = h.cells a

theorem adds_refl (h : Heap κ) : Adds h h [] where
  nodup := List.nodup_nil
  held _ hmem := absurd hmem List.not_mem_nil
  other _ _ := rfl
  next := Nat.le_refl _

theorem removes_refl (h : Heap κ) (p : Nat) : Removes h h p [] where
  gone _ hmem := absurd hmem List.not_mem_nil
  other _ _ _ := rfl

section Adds

variable {h h' : Heap κ} {objects : List (Nat × κ)}

/-- What was there before the objects were added is there after. -/
theorem Adds.keeps (hadds : Adds h h' objects) {a : Nat} {object : κ}
    (ha : h.cells a = some object) : h'.cells a = some object := by
  -- The objects were added where nothing was, so not at this address.
  rw [hadds.other a, ha]
  intro hmem
  rcases List.mem_map.mp hmem with ⟨x, hx, rfl⟩
  rw [(hadds.held x hx).1] at ha
  cases ha

/-- A heap that has nothing added holds what it held. -/
theorem Adds.same (hadds : Adds h h' []) : h'.cells = h.cells :=
  funext fun a => hadds.other a List.not_mem_nil

/-- The next address is no address of an object added. -/
theorem Adds.next_not_mem (hadds : Adds h h' objects) : h'.next ∉ objects.map Prod.fst := by
  intro hmem
  rcases List.mem_map.mp hmem with ⟨x, hx, heq⟩
  -- An object is there, and the next address holds none.
  have hheld := (hadds.held x hx).2
  rw [heq, h'.fresh h'.next (Nat.le_refl _)] at hheld
  cases hheld

/-- An object more. -/
theorem Adds.new (hadds : Adds h h' objects) (object : κ) :
    Adds h (h'.add object) ((h'.next, object) :: objects) where
  nodup := by
    rw [List.map_cons, List.nodup_cons]
    exact ⟨hadds.next_not_mem, hadds.nodup⟩
  -- The new object is at the next address, and the others are elsewhere.
  held x hx := by
    rcases List.mem_cons.mp hx with rfl | hx
    · exact ⟨h.fresh _ hadds.next, Function.update_self _ _ _⟩
    · have hne : x.1 ≠ h'.next := fun heq =>
        hadds.next_not_mem (heq ▸ List.mem_map_of_mem hx)
      refine ⟨(hadds.held x hx).1, ?_⟩
      exact (Function.update_of_ne hne _ _).trans (hadds.held x hx).2
  other a ha := by
    rw [List.map_cons, List.mem_cons, not_or] at ha
    exact (Function.update_of_ne ha.1 _ _).trans (hadds.other a ha.2)
  next := Nat.le_succ_of_le hadds.next

/-- An object less. -/
theorem Adds.delete (before : List (Nat × κ)) {after : List (Nat × κ)} {a : Nat} {object : κ}
    (hadds : Adds h h' (before ++ (a, object) :: after)) :
    Adds h (h'.remove a) (before ++ after) := by
  -- No other object is at its address, so no other goes with it.
  have hmid := hadds.nodup
  rw [List.map_append, List.map_cons, List.nodup_middle, List.nodup_cons, ← List.map_append]
    at hmid
  refine ⟨hmid.2, fun x hx => ?_, fun b hb => ?_, hadds.next⟩
  · have hne : x.1 ≠ a := fun heq => hmid.1 (List.mem_map.mpr ⟨x, hx, heq⟩)
    have hheld := hadds.held x (by
      rw [List.mem_append, List.mem_cons]
      exact (List.mem_append.mp hx).imp_right Or.inr)
    exact ⟨hheld.1, (Function.update_of_ne hne _ _).trans hheld.2⟩
  · by_cases hba : b = a
    · -- The address was free before the object was made.
      have hheld := hadds.held (a, object) (List.mem_append_right _ List.mem_cons_self)
      rw [hba]
      exact (Function.update_self _ _ _).trans hheld.1.symm
    · refine (Function.update_of_ne hba _ _).trans (hadds.other b ?_)
      rw [List.map_append, List.map_cons, List.mem_append, List.mem_cons]
      rw [List.map_append, List.mem_append] at hb
      exact fun hmem => hb (hmem.imp_right fun hmem => hmem.resolve_left hba)

end Adds

section Removes

variable {h h' : Heap κ} {p : Nat} {addresses : List Nat}

/-- An address less. -/
theorem Removes.delete (hrem : Removes h h' p addresses) (a : Nat) :
    Removes h (h'.remove a) p (a :: addresses) where
  -- Its own address is now empty, and the others were before.
  gone b hb := by
    by_cases hba : b = a
    · rw [hba]
      exact Function.update_self _ _ _
    · exact (Function.update_of_ne hba _ _).trans
        (hrem.gone b ((List.mem_cons.mp hb).resolve_left hba))
  other b hbp hb := by
    rw [List.mem_cons, not_or] at hb
    exact (Function.update_of_ne hb.1 _ _).trans (hrem.other b hbp hb.2)

/-- Only which addresses are gone matters. -/
theorem Removes.congr {others : List Nat} (hrem : Removes h h' p addresses)
    (hsame : ∀ a, a ∈ others ↔ a ∈ addresses) : Removes h h' p others where
  gone a ha := hrem.gone a ((hsame a).mp ha)
  other a hap ha := hrem.other a hap fun hmem => ha ((hsame a).mpr hmem)

/-- What is gone is not brought back by writing to it. -/
theorem Removes.write (hrem : Removes h h' p addresses) (object : κ) :
    Removes h (h'.write p object) p addresses where
  gone b hb := by
    rw [← Option.not_isSome_iff_eq_none, write_live, hrem.gone b hb]
    exact Bool.false_ne_true
  other b hbp hb := by rw [write_cells_of_ne hbp, hrem.other b hbp hb]

end Removes

/-- Ownership is exact: no address is owned twice, and the owned ones are those that
    hold something. -/
structure Owned (h : Heap κ) (owners : List (List Nat)) : Prop where
  nodup : owners.flatten.Nodup
  live : ∀ a, (h.cells a).isSome = true ↔ a ∈ owners.flatten

namespace Owned

variable {h h' : Heap κ} {owners before after : List (List Nat)}

/-- Nothing is owned and nothing is there. -/
theorem empty : Owned (empty : Heap κ) [] where
  nodup := List.nodup_nil
  live _ := iff_of_false Bool.false_ne_true List.not_mem_nil

/-- The heap matters only by which addresses hold something. -/
theorem congr (hown : Owned h owners) (hlive : ∀ a, (h'.cells a).isSome = (h.cells a).isSome) :
    Owned h' owners where
  nodup := hown.nodup
  live a := by rw [hlive, hown.live]

/-- The objects added have a new owner. -/
theorem adds {objects : List (Nat × κ)} (hown : Owned h owners) (hadds : Adds h h' objects) :
    Owned h' (objects.map Prod.fst :: owners) := by
  -- The new addresses held nothing before, so nobody owned them.
  have hfree : ∀ a ∈ objects.map Prod.fst, a ∉ owners.flatten := by
    intro a ha
    rcases List.mem_map.mp ha with ⟨x, hx, rfl⟩
    rw [← hown.live, (hadds.held x hx).1]
    exact Bool.false_ne_true
  refine ⟨?_, fun a => ?_⟩
  · rw [List.flatten_cons, List.nodup_append']
    exact ⟨hadds.nodup, hown.nodup, hfree⟩
  · rw [List.flatten_cons, List.mem_append]
    by_cases ha : a ∈ objects.map Prod.fst
    · rcases List.mem_map.mp ha with ⟨x, hx, rfl⟩
      rw [(hadds.held x hx).2]
      exact iff_of_true rfl (Or.inl ha)
    · rw [hadds.other a ha, hown.live, or_iff_right ha]

/-- An address has one owner. -/
theorem not_mem {addresses other : List Nat} (hown : Owned h (before ++ addresses :: after))
    (hother : other ∈ before ++ after) {a : Nat} (ha : a ∈ addresses) : a ∉ other := by
  have hnodup := hown.nodup
  -- With this owner put first, its addresses are disjoint from all the others.
  rw [(List.perm_middle.flatten).nodup_iff, List.flatten_cons, List.nodup_append'] at hnodup
  exact fun hmem => hnodup.2.2 ha (List.mem_flatten_of_mem hother hmem)

/-- An owner whose addresses are all gone is none any more. -/
theorem removes {addresses : List Nat} {p : Nat} (hown : Owned h (before ++ addresses :: after))
    (hp : p ∈ addresses) (hrem : Removes h h' p addresses) : Owned h' (before ++ after) := by
  have hnodup := hown.nodup
  rw [List.flatten_append, List.flatten_cons] at hnodup
  -- The addresses of this owner are brought to the front, apart from the others.
  have hperm : (before.flatten ++ (addresses ++ after.flatten)).Perm
      (addresses ++ (before.flatten ++ after.flatten)) := by
    rw [← List.append_assoc, ← List.append_assoc]
    exact List.perm_append_comm.append_right _
  rw [hperm.nodup_iff, List.nodup_append'] at hnodup
  rcases hnodup with ⟨-, hrest, hdisjoint⟩
  refine ⟨?_, fun a => ?_⟩
  · rw [List.flatten_append]
    exact hrest
  · rw [List.flatten_append]
    -- Of its own addresses nothing is left, and nothing happened to the others.
    by_cases ha : a ∈ addresses
    · rw [hrem.gone a ha]
      exact iff_of_false Bool.false_ne_true (hdisjoint ha)
    · have hap : a ≠ p := fun heq => ha (heq ▸ hp)
      rw [hrem.other a hap ha, hown.live, List.flatten_append, List.flatten_cons, hperm.mem_iff,
        List.mem_append, or_iff_right ha]

end Owned

section Operations

variable {h : Heap κ} {faults sites : List Bool}

theorem load_of_some {a : Nat} {object : κ} (ha : h.cells a = some object) :
    load a ⟨h, faults, sites⟩ = (.done object, ⟨h, faults, sites⟩) := by
  simp only [load, Proc.safely, ha, Proc.unthrown]

theorem load_of_none {a : Nat} (ha : h.cells a = none) :
    load a ⟨h, faults, sites⟩ = (.fail (.status .badAddress), ⟨h, faults, sites⟩) := by
  simp only [load, Proc.safely, ha, Proc.unthrown]

theorem store_of_some {a : Nat} {old : κ} (ha : h.cells a = some old) (object : κ) :
    store a object ⟨h, faults, sites⟩ = (.done (), ⟨h.write a object, faults, sites⟩) := by
  rw [store, Proc.bind_of_done _ (load_of_some ha)]
  rfl

theorem delete_of_some {a : Nat} {object : κ} (ha : h.cells a = some object) :
    delete (some a) ⟨h, faults, sites⟩ = (.done (), ⟨h.remove a, faults, sites⟩) := by
  rw [delete, Proc.bind_of_done _ (load_of_some ha)]
  rfl

/-- A site lets pass or throws. -/
theorem site_of_clear (h : Heap κ) (sites : List Bool) (hclear : faults.headD false = false) :
    (Proc.mayThrow : Procedure κ Unit) ⟨h, faults, sites⟩ =
      (.done (), ⟨h, faults.tail, sites ++ [false]⟩) :=
  if_neg (by rw [hclear]; exact Bool.false_ne_true)

theorem site_of_fault (h : Heap κ) (sites : List Bool) (hfault : faults.headD false = true) :
    (Proc.mayThrow : Procedure κ Unit) ⟨h, faults, sites⟩ =
      (.fail .exception, ⟨h, faults.tail, sites ++ [false]⟩) := if_pos hfault

/-- An allocation throws, or there is one object more. -/
theorem new_cases (object : κ) (h : Heap κ) (faults sites : List Bool) :
    (faults.headD false = false ∧ new object ⟨h, faults, sites⟩ =
        (.done h.next, ⟨h.add object, faults.tail, sites ++ [false]⟩)) ∨
      (faults.headD false = true ∧ new object ⟨h, faults, sites⟩ =
        (.fail .exception, ⟨h, faults.tail, sites ++ [false]⟩)) := by
  cases hthrows : faults.headD false with
  | false => exact Or.inl ⟨rfl, Proc.bind_of_done _ (site_of_clear h sites hthrows)⟩
  | true => exact Or.inr ⟨rfl, Proc.bind_of_fail _ (site_of_fault h sites hthrows)⟩

/-- One of the sites throws, or none does. -/
theorem passing_cases (n : Nat) (h : Heap κ) (faults sites : List Bool) :
    (Clear n faults ∧ ∃ passed, passing n ⟨h, faults, sites⟩ =
        (.done (), ⟨h, faults.drop n, passed⟩)) ∨
      (¬ Clear n faults ∧ ∃ faults' passed, passing n ⟨h, faults, sites⟩ =
        (.fail .exception, ⟨h, faults', passed⟩)) := by
  -- On the sites. The first of them throws, or the others decide.
  induction n generalizing faults sites with
  | zero => exact Or.inl ⟨clear_zero faults, sites, rfl⟩
  | succ n ih =>
      rw [clear_succ]
      cases hthrows : faults.headD false with
      | true =>
          refine Or.inr ⟨fun hclear => Bool.true_eq_false.mp hclear.1, faults.tail,
            sites ++ [false], ?_⟩
          rw [passing, Proc.bind_of_fail _ (site_of_fault h sites hthrows)]
      | false =>
          rw [passing, Proc.bind_of_done _ (site_of_clear h sites hthrows), ← List.drop_tail]
          rcases ih faults.tail (sites ++ [false]) with ⟨hclear, hdone⟩ | ⟨hfault, hfail⟩
          · exact Or.inl ⟨⟨rfl, hclear⟩, hdone⟩
          · exact Or.inr ⟨fun hclear => hfault hclear.2, hfail⟩

/-- Nothing was thrown, so nothing is handled. -/
theorem catching_of_done {handler x : Procedure κ α} {s t : Faulty (Heap κ)} {a : α}
    (hx : x s = (.done a, t)) : catching handler x s = (.done a, t) := by
  rw [catching, hx]

theorem catching_of_exception (handler : Procedure κ α) {x : Procedure κ α} {s t : Faulty (Heap κ)}
    (hx : x s = (.fail .exception, t)) : catching handler x s = handler t := by
  rw [catching, hx]

/-- The owner of an object deletes it when an exception passes. -/
theorem owning_of_exception {x : Procedure κ α} {s : Faulty (Heap κ)} {a : Nat} {object : κ}
    (hx : x s = (.fail .exception, ⟨h, faults, sites⟩)) (ha : h.cells a = some object) :
    owning a x s = (.fail .exception, ⟨h.remove a, faults, sites⟩) := by
  rw [owning, catching_of_exception _ hx, Proc.bind_of_done _ (delete_of_some ha)]
  rfl

/-- An object that was added can be deleted. -/
theorem delete_of_adds {h0 : Heap κ} (before : List (Nat × κ)) {after : List (Nat × κ)} {a : Nat}
    {object : κ} (hadds : Adds h0 h (before ++ (a, object) :: after)) :
    delete (some a) ⟨h, faults, sites⟩ = (.done (), ⟨h.remove a, faults, sites⟩) ∧
      Adds h0 (h.remove a) (before ++ after) :=
  ⟨delete_of_some (hadds.held _ (List.mem_append_right _ List.mem_cons_self)).2,
    hadds.delete before⟩

/-- A pointer to something that was not removed can be deleted, and so can a null
    pointer. -/
theorem delete_of_removes {h0 : Heap κ} {p : Nat} {addresses : List Nat} {pointer : Option Nat}
    (hrem : Removes h0 h p addresses)
    (hlive : ∀ a ∈ pointer, a ≠ p ∧ a ∉ addresses ∧ (h0.cells a).isSome = true) :
    ∃ h', delete pointer ⟨h, faults, sites⟩ = (.done (), ⟨h', faults, sites⟩) ∧
      Removes h0 h' p (pointer.toList ++ addresses) ∧ h'.cells p = h.cells p := by
  -- A null pointer is deleted by doing nothing.
  cases pointer with
  | none => exact ⟨h, rfl, hrem, rfl⟩
  | some a =>
      rcases hlive a rfl with ⟨hap, ha, hsome⟩
      rcases Option.isSome_iff_exists.mp hsome with ⟨object, hobject⟩
      -- It still holds its object, since only others were removed.
      rw [← hrem.other a hap ha] at hobject
      exact ⟨h.remove a, delete_of_some hobject, hrem.delete a,
        Function.update_of_ne (Ne.symm hap) _ _⟩

end Operations

end Heap
