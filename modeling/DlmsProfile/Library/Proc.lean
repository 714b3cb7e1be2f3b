import Mathlib.Data.Nat.Init

/-!
# Procedures that Wait, Fail or Finish

A member function of an object that talks to its surroundings has three ways
to be found when it is looked at: it has returned a value, it has returned an
error, or it is still inside a blocking call. `Proc` is that function on an
explicit state, and its monad is the usual one of early return: the first
error, or the first call that does not come back, ends everything after it.

Nothing here knows what the state holds. What a caller needs are the rules by
which a composed procedure is taken apart (`bind_done_iff` and its kin) and
the rules by which a relation between the state before and the state after
(`Within`), or between two runs side by side (`Agree`), survives composition.

## Main definitions

* `Outcome`: Finished with a value, failed with an error, or still waiting.
* `Proc`: A procedure over a state.
* `Proc.Within`: The state after is related to the state before.
* `Proc.Preserves`: A property of the state is kept.
* `Proc.Logs`, `Proc.LogsFrom`: What is appended to a log satisfies a condition.
* `Proc.Agree`: Two procedures answer alike and keep related states related.
* `Proc.AgreeUnless`: The same, unless the first of them has gone astray.

## Theorems

* `Proc.bind_done_iff`: A sequence finishes when both halves do.
* `Proc.within_bind`: A transitive relation survives sequencing.
* `Proc.agree_bind`, `Proc.agreeUnless_bind`: Agreement survives sequencing.
-/

/-- How a procedure is found when it is looked at. -/
inductive Outcome (ε α : Type) where
  | done (value : α)
  | fail (error : ε)
  | waiting
deriving DecidableEq, Repr

/-- The value, if there is one. -/
def Outcome.toList {ε α : Type} : Outcome ε α → List α
  | .done a => [a]
  | .fail _ => []
  | .waiting => []

/-- The error, if there is one. -/
def Outcome.error {ε α : Type} : Outcome ε α → Option ε
  | .done _ => none
  | .fail e => some e
  | .waiting => none

/-- A procedure over a state: it answers, and leaves a new state behind. -/
def Proc (σ ε α : Type) : Type := σ → Outcome ε α × σ

namespace Proc

variable {σ ε α β : Type}

/-- Sequencing: only a finished first half hands control on. -/
def bind (x : Proc σ ε α) (k : α → Proc σ ε β) : Proc σ ε β := fun s =>
  match x s with
  | (.done a, s1) => k a s1
  | (.fail e, s1) => (.fail e, s1)
  | (.waiting, s1) => (.waiting, s1)

instance : Monad (Proc σ ε) where
  pure a := fun s => (.done a, s)
  bind := bind

/-- Read a value off the state. -/
def gets (f : σ → α) : Proc σ ε α := fun s => (.done (f s), s)

/-- Change the state. -/
def modify (f : σ → σ) : Proc σ ε Unit := fun s => (.done (), f s)

/-- Return early with an error. -/
def fail (e : ε) : Proc σ ε α := fun s => (.fail e, s)

theorem pure_apply (a : α) (s : σ) : (pure a : Proc σ ε α) s = (.done a, s) := rfl

theorem gets_apply (f : σ → α) (s : σ) : (gets f : Proc σ ε α) s = (.done (f s), s) := rfl

theorem modify_apply (f : σ → σ) (s : σ) : (modify f : Proc σ ε Unit) s = (.done (), f s) := rfl

theorem bind_of_done {x : Proc σ ε α} {s s1 : σ} {a : α} (k : α → Proc σ ε β)
    (h : x s = (.done a, s1)) : (x >>= k) s = k a s1 := by
  change bind x k s = _
  rw [bind, h]

theorem bind_of_fail {x : Proc σ ε α} {s s1 : σ} {e : ε} (k : α → Proc σ ε β)
    (h : x s = (.fail e, s1)) : (x >>= k) s = (.fail e, s1) := by
  change bind x k s = _
  rw [bind, h]

theorem bind_of_waiting {x : Proc σ ε α} {s s1 : σ} (k : α → Proc σ ε β)
    (h : x s = (.waiting, s1)) : (x >>= k) s = (.waiting, s1) := by
  change bind x k s = _
  rw [bind, h]

/-- A first part that does not complete is all there is. -/
theorem bind_of_stop {x : Proc σ ε α} {s s1 : σ} {o : Outcome ε α} (k : α → Proc σ ε α)
    (h : x s = (o, s1)) (ho : ∀ a, o ≠ .done a) : (x >>= k) s = (o, s1) := by
  -- Whichever way it stopped, the second part is not run.
  cases o with
  | done a => exact absurd rfl (ho a)
  | fail e => exact bind_of_fail k h
  | waiting => exact bind_of_waiting k h

/-- Two states from which the first half is the same. -/
theorem bind_congr {x : Proc σ ε α} {s t : σ} (k : α → Proc σ ε β) (h : x s = x t) :
    (x >>= k) s = (x >>= k) t := by
  change bind x k s = bind x k t
  rw [bind, bind, h]

/-- A finished procedure left one state. -/
theorem forall_done_iff {x : Proc σ ε α} {s s1 : σ} {a : α} {P : σ → Prop}
    (h : x s = (.done a, s1)) : (∀ s2, x s = (.done a, s2) → P s2) ↔ P s1 :=
  ⟨fun hall => hall s1 h, fun hone _ h2 => (Prod.mk.inj (h.symm.trans h2)).2 ▸ hone⟩

theorem bind_assoc {γ : Type} (x : Proc σ ε α) (k : α → Proc σ ε β) (l : β → Proc σ ε γ) :
    (x >>= k) >>= l = x >>= fun a => k a >>= l := by
  -- By what the first part does. If it stops, neither grouping runs anything more.
  funext s
  rcases hx : x s with ⟨a | e | _, s1⟩
  · rw [bind_of_done _ hx]
    change bind (x >>= k) l s = bind (k a) l s1
    rw [bind, bind, bind_of_done k hx]
  · rw [bind_of_fail _ hx, bind_of_fail _ (bind_of_fail k hx)]
  · rw [bind_of_waiting _ hx, bind_of_waiting _ (bind_of_waiting k hx)]

theorem bind_pure (x : Proc σ ε α) : (x >>= fun a => pure a) = x := by
  funext s
  rcases hx : x s with ⟨a | e | _, s1⟩
  · exact bind_of_done _ hx
  · exact bind_of_fail _ hx
  · exact bind_of_waiting _ hx

/-- Reading the state changes nothing, so what follows runs where it stood. -/
theorem gets_bind (f : σ → α) (k : α → Proc σ ε β) (s : σ) :
    (gets f >>= k) s = k (f s) s := rfl

theorem modify_bind (f : σ → σ) (k : Unit → Proc σ ε β) (s : σ) :
    (modify f >>= k) s = k () (f s) := rfl

/-- A sequence finishes exactly when its first half finishes and its second
    half finishes from there. -/
theorem bind_done_iff {x : Proc σ ε α} {k : α → Proc σ ε β} {s s' : σ} {b : β} :
    (x >>= k) s = (.done b, s') ↔
      ∃ a s1, x s = (.done a, s1) ∧ k a s1 = (.done b, s') := by
  constructor
  -- A first half that fails or waits makes the sequence do so, which it did not.
  · intro h
    rcases hx : x s with ⟨_ | _ | _, s1⟩
    · rw [bind_of_done k hx] at h
      exact ⟨_, s1, rfl, h⟩
    · rw [bind_of_fail k hx] at h
      cases h
    · rw [bind_of_waiting k hx] at h
      cases h
  · rintro ⟨a, s1, hx, hk⟩
    rw [bind_of_done k hx, hk]

/-- A sequence fails when its first half does, or its second half from where
    the first finished. -/
theorem bind_fail_iff {x : Proc σ ε α} {k : α → Proc σ ε β} {s s' : σ} {e : ε} :
    (x >>= k) s = (.fail e, s') ↔
      x s = (.fail e, s') ∨ ∃ a s1, x s = (.done a, s1) ∧ k a s1 = (.fail e, s') := by
  -- By the first half. The error is its own, or that of the second half.
  rcases hx : x s with ⟨a | e' | _, s1⟩
  · rw [bind_of_done k hx]
    constructor
    · exact fun h => Or.inr ⟨a, s1, rfl, h⟩
    · rintro (h | ⟨_, _, h, hk⟩)
      · cases h
      · cases h
        exact hk
  · rw [bind_of_fail k hx]
    constructor
    · intro h
      cases h
      exact Or.inl rfl
    · rintro (h | ⟨_, _, h, _⟩)
      · cases h
        rfl
      · cases h
  · rw [bind_of_waiting k hx]
    constructor
    · intro h
      cases h
    · rintro (h | ⟨_, _, h, _⟩) <;> cases h

/-- The same for waiting. -/
theorem bind_waiting_iff {x : Proc σ ε α} {k : α → Proc σ ε β} {s s' : σ} :
    (x >>= k) s = (.waiting, s') ↔
      x s = (.waiting, s') ∨ ∃ a s1, x s = (.done a, s1) ∧ k a s1 = (.waiting, s') := by
  -- By the first half, which may be the one that waits.
  rcases hx : x s with ⟨a | e' | _, s1⟩
  · rw [bind_of_done k hx]
    constructor
    · exact fun h => Or.inr ⟨a, s1, rfl, h⟩
    · rintro (h | ⟨_, _, h, hk⟩)
      · cases h
      · cases h
        exact hk
  · rw [bind_of_fail k hx]
    constructor
    · intro h
      cases h
    · rintro (h | ⟨_, _, h, _⟩) <;> cases h
  · rw [bind_of_waiting k hx]
    constructor
    · intro h
      cases h
      exact Or.inl rfl
    · rintro (h | ⟨_, _, h, _⟩)
      · cases h
        rfl
      · cases h

/-- Whatever state the procedure starts in, the state it leaves is related to
    it, however the procedure was found. -/
def Within (R : σ → σ → Prop) (x : Proc σ ε α) : Prop := ∀ s, R s (x s).2

theorem within_pure {R : σ → σ → Prop} (hrefl : ∀ s, R s s) (a : α) :
    Within R (pure a : Proc σ ε α) := fun s => hrefl s

theorem within_fail {R : σ → σ → Prop} (hrefl : ∀ s, R s s) (e : ε) :
    Within R (fail e : Proc σ ε α) := fun s => hrefl s

theorem within_gets {R : σ → σ → Prop} (hrefl : ∀ s, R s s) (f : σ → α) :
    Within R (gets f : Proc σ ε α) := fun s => hrefl s

/-- The two parts may be related to their states in ways of their own, if one after
    the other they are related as wanted and the first alone is as well. -/
theorem within_bind_of {R S T : σ → σ → Prop} (hcomp : ∀ a b c, R a b → S b c → T a c)
    (hfirst : ∀ a b, R a b → T a b) {x : Proc σ ε α} {k : α → Proc σ ε β} (hx : Within R x)
    (hk : ∀ a, Within S (k a)) : Within T (x >>= k) := by
  intro s
  have h1 := hx s
  rcases hxs : x s with ⟨_ | _ | _, s1⟩ <;> rw [hxs] at h1
  · rw [bind_of_done k hxs]
    exact hcomp _ _ _ h1 (hk _ s1)
  · -- The second part is not run.
    rw [bind_of_fail k hxs]
    exact hfirst _ _ h1
  · rw [bind_of_waiting k hxs]
    exact hfirst _ _ h1

theorem within_bind {R : σ → σ → Prop} (htrans : ∀ a b c, R a b → R b c → R a c)
    {x : Proc σ ε α} {k : α → Proc σ ε β} (hx : Within R x) (hk : ∀ a, Within R (k a)) :
    Within R (x >>= k) := within_bind_of htrans (fun _ _ h => h) hx hk

/-- Whatever state with the property the procedure starts in, the state it
    leaves has it too. -/
def Preserves (P : σ → Prop) (x : Proc σ ε α) : Prop := Within (fun s s' => P s → P s') x

theorem preserves_pure {P : σ → Prop} (a : α) : Preserves P (pure a : Proc σ ε α) :=
  within_pure (fun _ h => h) a

theorem preserves_gets {P : σ → Prop} (f : σ → α) : Preserves P (gets f : Proc σ ε α) :=
  within_gets (fun _ h => h) f

theorem preserves_bind {P : σ → Prop} {x : Proc σ ε α} {k : α → Proc σ ε β}
    (hx : Preserves P x) (hk : ∀ a, Preserves P (k a)) : Preserves P (x >>= k) :=
  within_bind (fun _ _ _ h h' hs => h' (h hs)) hx hk

/-- What a procedure appends to a log the state carries satisfies a condition,
    given the error it ends with, if any. -/
def Logs {τ : Type} (log : σ → List τ) (P : List τ → Option ε → Prop) (x : Proc σ ε α) : Prop :=
  ∀ s, ∃ entries, log (x s).2 = log s ++ entries ∧ P entries (x s).1.error

/-- A condition that a longer log satisfies when its parts do, only the last of
    which ended with an error. -/
structure Joins {τ : Type} (P : List τ → Option ε → Prop) : Prop where
  nil : ∀ o, P [] o
  append : ∀ {a b o}, P a none → P b o → P (a ++ b) o

/-- The same of a procedure that starts with a property of the state, which it
    keeps. -/
def LogsFrom {τ : Type} (I : σ → Prop) (log : σ → List τ) (P : List τ → Option ε → Prop)
    (x : Proc σ ε α) : Prop :=
  ∀ s, I s → I (x s).2 ∧ ∃ entries, log (x s).2 = log s ++ entries ∧ P entries (x s).1.error

section Logs

variable {τ : Type} {I : σ → Prop} {log : σ → List τ} {P : List τ → Option ε → Prop}

theorem logs_iff_logsFrom {x : Proc σ ε α} : Logs log P x ↔ LogsFrom (fun _ => True) log P x :=
  ⟨fun h s _ => ⟨trivial, h s⟩, fun h s => (h s trivial).2⟩

/-- A procedure that leaves the log alone. -/
theorem logsFrom_of_same (hP : Joins P) {x : Proc σ ε α} (hI : Preserves I x)
    (h : ∀ s, log (x s).2 = log s) : LogsFrom I log P x := fun s hs =>
  ⟨hI s hs, [], by rw [h, List.append_nil], hP.nil _⟩

theorem logsFrom_bind (hP : Joins P) {x : Proc σ ε α} {k : α → Proc σ ε β}
    (hx : LogsFrom I log P x) (hk : ∀ a, LogsFrom I log P (k a)) : LogsFrom I log P (x >>= k) := by
  intro s hs
  -- The entries of both parts, the first of which has then ended without an error.
  rcases hx s hs with ⟨hI, entries, hlog, hentries⟩
  rcases hxs : x s with ⟨a | e | _, s1⟩ <;> rw [hxs] at hI hlog hentries
  · rw [bind_of_done k hxs]
    rcases hk a s1 hI with ⟨hI', entries', hlog', hentries'⟩
    exact ⟨hI', entries ++ entries', by rw [hlog', hlog, List.append_assoc],
      hP.append hentries hentries'⟩
  · rw [bind_of_fail k hxs]
    exact ⟨hI, entries, hlog, hentries⟩
  · rw [bind_of_waiting k hxs]
    exact ⟨hI, entries, hlog, hentries⟩

theorem logs_of_same (hP : Joins P) {x : Proc σ ε α} (h : ∀ s, log (x s).2 = log s) :
    Logs log P x :=
  logs_iff_logsFrom.mpr (logsFrom_of_same hP (fun _ _ => trivial) h)

theorem logs_bind (hP : Joins P) {x : Proc σ ε α} {k : α → Proc σ ε β} (hx : Logs log P x)
    (hk : ∀ a, Logs log P (k a)) : Logs log P (x >>= k) :=
  logs_iff_logsFrom.mpr
    (logsFrom_bind hP (logs_iff_logsFrom.mp hx) fun a => logs_iff_logsFrom.mp (hk a))

end Logs

/-- Two procedures agree along a relation when, from related states, they
    give the same answer and leave related states. -/
def Agree (R : σ → σ → Prop) (x y : Proc σ ε α) : Prop :=
  ∀ s t, R s t → (x s).1 = (y t).1 ∧ R (x s).2 (y t).2

theorem agree_pure {R : σ → σ → Prop} (a : α) :
    Agree R (pure a : Proc σ ε α) (pure a) := fun _ _ h => ⟨rfl, h⟩

theorem agree_fail {R : σ → σ → Prop} (e : ε) :
    Agree R (fail e : Proc σ ε α) (fail e) := fun _ _ h => ⟨rfl, h⟩

theorem agree_bind {R : σ → σ → Prop} {x y : Proc σ ε α} {k l : α → Proc σ ε β}
    (hxy : Agree R x y) (hkl : ∀ a, Agree R (k a) (l a)) :
    Agree R (x >>= k) (y >>= l) := by
  intro s t hst
  -- The first halves answer alike, so both second halves are run or none.
  rcases hxy s t hst with ⟨hout, hrel⟩
  rcases hx : x s with ⟨o, s1⟩
  rcases hy : y t with ⟨p, t1⟩
  rw [hx, hy] at hout hrel
  simp only at hout hrel
  subst hout
  cases o with
  | done a =>
      rw [bind_of_done k hx, bind_of_done l hy]
      exact hkl a s1 t1 hrel
  | fail e =>
      rw [bind_of_fail k hx, bind_of_fail l hy]
      exact ⟨rfl, hrel⟩
  | waiting =>
      rw [bind_of_waiting k hx, bind_of_waiting l hy]
      exact ⟨rfl, hrel⟩

/-- Agreement, unless the first of the two has gone astray: the error it ended
    with, if any, and the state it left satisfy a condition. -/
def AgreeUnless (R : σ → σ → Prop) (A : Option ε → σ → Prop) (x y : Proc σ ε α) : Prop :=
  ∀ s t, R s t → ((x s).1 = (y t).1 ∧ R (x s).2 (y t).2) ∨ A (x s).1.error (x s).2

theorem agreeUnless_of_agree {R : σ → σ → Prop} {A : Option ε → σ → Prop} {x y : Proc σ ε α}
    (h : Agree R x y) : AgreeUnless R A x y := fun s t hst => Or.inl (h s t hst)

/-- It survives sequencing, provided that who has gone astray in the first half and
    not failed is astray whatever the second half does. -/
theorem agreeUnless_bind {R : σ → σ → Prop} {A B : Option ε → σ → Prop} {x y : Proc σ ε α}
    {k l : α → Proc σ ε β} (hxy : AgreeUnless R A x y) (hkl : ∀ a, AgreeUnless R B (k a) (l a))
    (hsome : ∀ e s, A (some e) s → B (some e) s)
    (hnone : ∀ s, A none s → B none s ∧ ∀ a, B (k a s).1.error (k a s).2) :
    AgreeUnless R B (x >>= k) (y >>= l) := by
  intro s t hst
  rcases hx : x s with ⟨o, s1⟩
  rcases hy : y t with ⟨p, t1⟩
  have hone := hxy s t hst
  rw [hx, hy] at hone
  -- Either the first halves agree, or the first procedure has gone astray already.
  rcases hone with ⟨hout, hrel⟩ | hastray
  · simp only at hout hrel
    subst hout
    cases o with
    | done a =>
        rw [bind_of_done k hx, bind_of_done l hy]
        exact hkl a s1 t1 hrel
    | fail e =>
        rw [bind_of_fail k hx, bind_of_fail l hy]
        exact Or.inl ⟨rfl, hrel⟩
    | waiting =>
        rw [bind_of_waiting k hx, bind_of_waiting l hy]
        exact Or.inl ⟨rfl, hrel⟩
  -- It may fail there or go on, and stays astray in either case.
  · refine Or.inr ?_
    cases o with
    | done a =>
        rw [bind_of_done k hx]
        exact (hnone s1 hastray).2 a
    | fail e =>
        rw [bind_of_fail k hx]
        exact hsome e s1 hastray
    | waiting =>
        rw [bind_of_waiting k hx]
        exact (hnone s1 hastray).1

/-- A first half that cannot go astray. -/
theorem agreeUnless_bind_of_agree {R : σ → σ → Prop} {B : Option ε → σ → Prop} {x y : Proc σ ε α}
    {k l : α → Proc σ ε β} (hxy : Agree R x y) (hkl : ∀ a, AgreeUnless R B (k a) (l a)) :
    AgreeUnless R B (x >>= k) (y >>= l) :=
  agreeUnless_bind (A := fun _ _ => False) (agreeUnless_of_agree hxy) hkl (fun _ _ h => h.elim)
    fun _ h => h.elim

/-- Run the body until it answers `true`. Each time it answers `false` it has
    used up part of something finite, which is why the loop ends. -/
def repeatUntil (size : σ → Nat) (body : Proc σ ε Bool)
    (hsize : ∀ s s', body s = (.done false, s') → size s' < size s) : Proc σ ε Unit := fun s =>
  match _h : body s with
  | (.done true, s1) => (.done (), s1)
  | (.done false, s1) => repeatUntil size body hsize s1
  | (.fail e, s1) => (.fail e, s1)
  | (.waiting, s1) => (.waiting, s1)
termination_by s => size s
decreasing_by exact hsize _ _ _h

section RepeatUntil

variable {size : σ → Nat} {body : Proc σ ε Bool}
  {hsize : ∀ s s', body s = (.done false, s') → size s' < size s}

theorem repeatUntil_of_true {s s1 : σ} (h : body s = (.done true, s1)) :
    repeatUntil size body hsize s = (.done (), s1) := by
  rw [repeatUntil]
  split <;> simp_all only [Prod.mk.injEq, reduceCtorEq, false_and, Outcome.done.injEq, true_and]

theorem repeatUntil_of_false {s s1 : σ} (h : body s = (.done false, s1)) :
    repeatUntil size body hsize s = repeatUntil size body hsize s1 := by
  rw [repeatUntil]
  split <;> simp_all only [Prod.mk.injEq, reduceCtorEq, false_and, Outcome.done.injEq, true_and]

theorem repeatUntil_of_fail {s s1 : σ} {e : ε} (h : body s = (.fail e, s1)) :
    repeatUntil size body hsize s = (.fail e, s1) := by
  rw [repeatUntil]
  split <;> simp_all only [Prod.mk.injEq, reduceCtorEq, false_and, Outcome.fail.injEq]

theorem repeatUntil_of_waiting {s s1 : σ} (h : body s = (.waiting, s1)) :
    repeatUntil size body hsize s = (.waiting, s1) := by
  rw [repeatUntil]
  split <;> simp_all only [Prod.mk.injEq, reduceCtorEq, false_and]

/-- To prove something of every run of the loop: prove it of a turn that ends
    the loop, one way or another, and carry it back over a turn that does
    not. -/
theorem repeatUntil_induct (P : σ → Outcome ε Unit → σ → Prop)
    (hfail : ∀ s s1 e, body s = (.fail e, s1) → P s (.fail e) s1)
    (hwait : ∀ s s1, body s = (.waiting, s1) → P s .waiting s1)
    (htrue : ∀ s s1, body s = (.done true, s1) → P s (.done ()) s1)
    (hfalse : ∀ s s1 o s2, body s = (.done false, s1) → P s1 o s2 → P s o s2) (s : σ) :
    P s (repeatUntil size body hsize s).1 (repeatUntil size body hsize s).2 := by
  -- On the size, which a turn that answers `false` makes smaller.
  induction hn : size s using Nat.strong_induction_on generalizing s with
  | _ n ih =>
    rcases hb : body s with ⟨(_ | _) | e | _, s1⟩
    · rw [repeatUntil_of_false hb]
      exact hfalse s s1 _ _ hb (ih (size s1) (hn ▸ hsize s s1 hb) s1 rfl)
    · rw [repeatUntil_of_true hb]
      exact htrue s s1 hb
    · rw [repeatUntil_of_fail hb]
      exact hfail s s1 e hb
    · rw [repeatUntil_of_waiting hb]
      exact hwait s s1 hb

/-- A loop that ended, ended with a turn that answered `true`. -/
theorem repeatUntil_done {s s' : σ} (h : repeatUntil size body hsize s = (.done (), s')) :
    ∃ s1, body s1 = (.done true, s') := by
  have hall : (repeatUntil size body hsize s).1 = .done () →
      ∃ s1, body s1 = (.done true, (repeatUntil size body hsize s).2) :=
    -- Only the turn that ended the loop is kept through the induction.
    repeatUntil_induct (fun _ o s2 => o = .done () → ∃ s1, body s1 = (.done true, s2))
      (fun _ _ _ _ ho => by cases ho) (fun _ _ _ ho => by cases ho)
      (fun s _ hb _ => ⟨s, hb⟩) (fun _ _ _ _ _ ih ho => ih ho) s
  rw [h] at hall
  exact hall rfl

theorem within_repeatUntil {R : σ → σ → Prop} (htrans : ∀ a b c, R a b → R b c → R a c)
    (hbody : Within R body) : Within R (repeatUntil size body hsize) := by
  have hstep : ∀ {s o s1}, body s = (o, s1) → R s s1 := fun {s o s1} h => by
    have := hbody s
    rwa [h] at this
  -- A turn is a step, and a turn that goes on is one before the others.
  exact repeatUntil_induct (fun s _ s2 => R s s2) (fun _ _ _ h => hstep h) (fun _ _ h => hstep h)
    (fun _ _ h => hstep h) (fun _ _ _ _ h ih => htrans _ _ _ (hstep h) ih)

end RepeatUntil

section Logs

variable {τ : Type} {I : σ → Prop} {log : σ → List τ} {P : List τ → Option ε → Prop}
  {size : σ → Nat} {body : Proc σ ε Bool}
  {hsize : ∀ s s', body s = (.done false, s') → size s' < size s}

theorem logsFrom_repeatUntil (hP : Joins P) (hbody : LogsFrom I log P body) :
    LogsFrom I log P (repeatUntil size body hsize) := by
  have hstep : ∀ {s o s1}, body s = (o, s1) → I s → I s1 ∧
      ∃ entries, log s1 = log s ++ entries ∧ P entries o.error := fun {s o s1} h hs => by
    have hone := hbody s hs
    rwa [h] at hone
  refine repeatUntil_induct
    (fun s o s2 => I s → I s2 ∧ ∃ entries, log s2 = log s ++ entries ∧ P entries o.error)
    (fun _ _ _ h => hstep h) (fun _ _ h => hstep h) (fun _ _ h => hstep h) ?_
  -- A turn that goes on has ended without an error, so the entries join.
  intro s s1 o s2 h ih hs
  rcases hstep h hs with ⟨hI, entries, hlog, hentries⟩
  rcases ih hI with ⟨hI', entries', hlog', hentries'⟩
  exact ⟨hI', entries ++ entries', by rw [hlog', hlog, List.append_assoc],
    hP.append hentries hentries'⟩

end Logs

theorem preserves_repeatUntil {P : σ → Prop} {size : σ → Nat} {body : Proc σ ε Bool}
    {hsize : ∀ s s', body s = (.done false, s') → size s' < size s} (hbody : Preserves P body) :
    Preserves P (repeatUntil size body hsize) :=
  within_repeatUntil (fun _ _ _ h h' hs => h' (h hs)) hbody

/-- Two bodies that answer alike from here make the same of the loop. -/
theorem repeatUntil_congr {size : σ → Nat} {body : Proc σ ε Bool}
    {hsize : ∀ s s', body s = (.done false, s') → size s' < size s} {s t : σ}
    (h : body s = body t) : repeatUntil size body hsize s = repeatUntil size body hsize t := by
  -- After its first turn the loop is in the same state in both cases.
  rcases hb : body t with ⟨(_ | _) | e | _, s1⟩
  · rw [repeatUntil_of_false hb, repeatUntil_of_false (h.trans hb)]
  · rw [repeatUntil_of_true hb, repeatUntil_of_true (h.trans hb)]
  · rw [repeatUntil_of_fail hb, repeatUntil_of_fail (h.trans hb)]
  · rw [repeatUntil_of_waiting hb, repeatUntil_of_waiting (h.trans hb)]

/-- Agreement survives a loop. -/
theorem agree_repeatUntil {R : σ → σ → Prop} {size : σ → Nat} {body : Proc σ ε Bool}
    {hsize : ∀ s s', body s = (.done false, s') → size s' < size s} (hbody : Agree R body body) :
    Agree R (repeatUntil size body hsize) (repeatUntil size body hsize) := by
  intro s t hst
  -- On the size in the first state. The second has no say in when the loops end.
  induction hn : size s using Nat.strong_induction_on generalizing s t with
  | _ n ih =>
    rcases hbody s t hst with ⟨hout, hrel⟩
    rcases hs : body s with ⟨o, s1⟩
    rcases ht : body t with ⟨p, t1⟩
    rw [hs, ht] at hout hrel
    simp only at hout hrel
    subst hout
    cases o with
    | done b =>
        cases b with
        | true =>
            rw [repeatUntil_of_true hs, repeatUntil_of_true ht]
            exact ⟨rfl, hrel⟩
        | false =>
            rw [repeatUntil_of_false hs, repeatUntil_of_false ht]
            exact ih (size s1) (hn ▸ hsize s s1 hs) s1 t1 hrel rfl
    | fail e =>
        rw [repeatUntil_of_fail hs, repeatUntil_of_fail ht]
        exact ⟨rfl, hrel⟩
    | waiting =>
        rw [repeatUntil_of_waiting hs, repeatUntil_of_waiting ht]
        exact ⟨rfl, hrel⟩

end Proc
