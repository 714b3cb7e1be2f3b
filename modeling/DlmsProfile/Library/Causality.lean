import Mathlib.Data.List.Infix
import DlmsProfile.Library.Proc

/-!
# Procedures that do not Look Ahead

A procedure that takes its input from its state is run on the input there is. When more
arrives one runs it again from the start, over what there was and what has come. This is
only a picture of a procedure that is blocked and goes on if the second run does what the
first one did: it does not know what is to come. A procedure that did not come to a wait
must then leave the new input alone, and one that did must have done nothing so far that
it does not do again.

`more` puts input behind the input of a state, and `log` is what was done. The rules are
those of `Within` and `Agree`.

## Main definitions

* `Proc.Causal`: A procedure that does not look ahead.
* `CausalStep`: A step that does not, whatever it answers.
* `runs`: Steps in order, up to one that waits.
* `Continues`: What has been done is the beginning of what will have been done.

## Theorems

* `Proc.causal_then`, `Proc.causal_bind`, `Proc.causal_repeatUntil`: Composition.
* `Proc.causal_of_blind`: A procedure that takes no input.
* `Proc.causal_of_each`: A procedure that is chosen by the rest of the state.
* `runs_continues`: Steps that do not look ahead make a run that does not.
-/

namespace Proc

variable {σ ε α β τ : Type} {more : σ → σ} {log : σ → List τ}

/-- Without a wait the new input is left alone. A wait is a beginning of what is done once
    there is more. -/
structure Causal (more : σ → σ) (log : σ → List τ) (x : Proc σ ε α) : Prop where
  grows : ∀ s, log s <+: log (x s).2
  returned : ∀ s, (x s).1 ≠ .waiting → x (more s) = ((x s).1, more (x s).2)
  waited : ∀ s, (x s).1 = .waiting → log (x s).2 <+: log (x (more s)).2

/-- Nothing was read, so nothing is different. -/
theorem causal_of_blind {x : Proc σ ε α} (hgrows : ∀ s, log s <+: log (x s).2)
    (hwait : ∀ s, (x s).1 ≠ .waiting) (hmore : ∀ s, x (more s) = ((x s).1, more (x s).2)) :
    Causal more log x :=
  ⟨hgrows, fun s _ => hmore s, fun s h => absurd h (hwait s)⟩

theorem causal_pure (a : α) : Causal more log (pure a : Proc σ ε α) :=
  causal_of_blind (fun _ => List.prefix_rfl) (fun _ h => by cases h) fun _ => rfl

theorem causal_fail (e : ε) : Causal more log (fail e : Proc σ ε α) :=
  causal_of_blind (fun _ => List.prefix_rfl) (fun _ h => by cases h) fun _ => rfl

theorem causal_gets {f : σ → α} (h : ∀ s, f (more s) = f s) :
    Causal more log (gets f : Proc σ ε α) :=
  causal_of_blind (fun _ => List.prefix_rfl) (fun _ h => by cases h) fun s => by
    rw [gets_apply, gets_apply, h]

/-- What goes on with whatever a procedure answers, unless it waits. -/
theorem causal_then {x : Proc σ ε α} {z : Proc σ ε β} (hx : Causal more log x)
    (hgoes : ∀ o, o ≠ .waiting →
      ∃ y : Proc σ ε β, Causal more log y ∧ ∀ s s1, x s = (o, s1) → z s = y s1)
    (hwaits : ∀ {s s1}, x s = (.waiting, s1) → z s = (.waiting, s1)) : Causal more log z := by
  -- What is done after `x` is only added to what `x` has done.
  have hafter : ∀ s, log (x s).2 <+: log (z s).2 := by
    intro s
    rcases hs : x s with ⟨o, s1⟩
    by_cases ho : o = .waiting
    · rw [hwaits (ho ▸ hs)]
    · rcases hgoes o ho with ⟨y, hy, hz⟩
      rw [hz s s1 hs]
      exact hy.grows s1
  refine ⟨fun s => (hx.grows s).trans (hafter s), fun s hs => ?_, fun s hs => ?_⟩
  · have hreturned := hx.returned s
    rcases hxs : x s with ⟨o, s1⟩
    rw [hxs] at hreturned
    by_cases ho : o = .waiting
    · rw [hwaits (ho ▸ hxs)] at hs
      exact absurd rfl hs
    · rcases hgoes o ho with ⟨y, hy, hz⟩
      rw [hz s s1 hxs] at hs ⊢
      rw [hz _ _ (hreturned ho)]
      exact hy.returned s1 hs
  · have hreturned := hx.returned s
    have hwaited := hx.waited s
    rcases hxs : x s with ⟨o, s1⟩
    rw [hxs] at hreturned hwaited
    by_cases ho : o = .waiting
    · rw [hwaits (ho ▸ hxs)]
      exact (hwaited ho).trans (hafter (more s))
    · rcases hgoes o ho with ⟨y, hy, hz⟩
      rw [hz s s1 hxs] at hs ⊢
      rw [hz _ _ (hreturned ho)]
      exact hy.waited s1 hs

theorem causal_bind {x : Proc σ ε α} {k : α → Proc σ ε β} (hx : Causal more log x)
    (hk : ∀ a, Causal more log (k a)) : Causal more log (x >>= k) := by
  refine causal_then hx (fun o ho => ?_) (bind_of_waiting k)
  cases o with
  | done a => exact ⟨k a, hk a, fun _ _ => bind_of_done k⟩
  | fail e => exact ⟨fail e, causal_fail e, fun _ _ => bind_of_fail k⟩
  | waiting => exact absurd rfl ho

/-- Which procedure it is may depend on anything in the state but the input. -/
theorem causal_of_each {z : Proc σ ε α}
    (h : ∀ s, ∃ x : Proc σ ε α, Causal more log x ∧ z s = x s ∧ z (more s) = x (more s)) :
    Causal more log z := by
  refine ⟨fun s => ?_, fun s => ?_, fun s => ?_⟩ <;> rcases h s with ⟨x, hx, hs, hm⟩
  · rw [hs]
    exact hx.grows s
  · rw [hs, hm]
    exact hx.returned s
  · rw [hs, hm]
    exact hx.waited s

theorem causal_repeatUntil {size : σ → Nat} {body : Proc σ ε Bool}
    {hsize : ∀ s s', body s = (.done false, s') → size s' < size s}
    (hbody : Causal more log body) : Causal more log (repeatUntil size body hsize) := by
  have hgrows : ∀ s, log s <+: log (repeatUntil size body hsize s).2 :=
    within_repeatUntil (R := fun s s' => log s <+: log s') (fun _ _ _ h h' => h.trans h')
      hbody.grows
  have hmore : ∀ {s s1 : σ} {o : Outcome ε Bool}, body s = (o, s1) → o ≠ .waiting →
      body (more s) = (o, more s1) := by
    intro s s1 o hs ho
    have hreturned := hbody.returned s
    rw [hs] at hreturned
    exact hreturned ho
  refine ⟨hgrows, ?_, ?_⟩
  · refine repeatUntil_induct (fun s o s' => o ≠ .waiting →
      repeatUntil size body hsize (more s) = (o, more s')) ?_ ?_ ?_ ?_
    · intro s s1 e hturn _
      exact repeatUntil_of_fail (hmore hturn fun h => by cases h)
    · intro s s1 _ hwaiting
      exact absurd rfl hwaiting
    · intro s s1 hturn _
      exact repeatUntil_of_true (hmore hturn fun h => by cases h)
    · intro s s1 o s2 hturn ih ho
      rw [repeatUntil_of_false (hmore hturn fun h => by cases h)]
      exact ih ho
  · refine repeatUntil_induct (fun s o s' => o = .waiting →
      log s' <+: log (repeatUntil size body hsize (more s)).2) ?_ ?_ ?_ ?_
    · intro s s1 e _ ho
      cases ho
    · intro s s1 hturn _
      -- The turn that waits is gone on with, and so is the loop.
      have hwaited := hbody.waited s
      rw [hturn] at hwaited
      refine (hwaited rfl).trans ?_
      rcases hm : body (more s) with ⟨(_ | _) | e | _, s2⟩
      · rw [repeatUntil_of_false hm]
        exact hgrows s2
      · rw [repeatUntil_of_true hm]
      · rw [repeatUntil_of_fail hm]
      · rw [repeatUntil_of_waiting hm]
    · intro s s1 _ ho
      cases ho
    · intro s s1 o s2 hturn ih ho
      rw [repeatUntil_of_false (hmore hturn fun h => by cases h)]
      exact ih ho

end Proc

section Steps

variable {σ τ ω ρ : Type} {more : σ → σ} {log : σ → List τ} {waits : ρ → Bool}

/-- The same of a step that answers in a way of its own. -/
structure CausalStep (more : σ → σ) (log : σ → List τ) (waits : ρ → Bool) (step : σ → ρ × σ) :
    Prop where
  grows : ∀ s, log s <+: log (step s).2
  returned : ∀ s, waits (step s).1 = false → step (more s) = ((step s).1, more (step s).2)
  waited : ∀ s, waits (step s).1 = true → log (step s).2 <+: log (step (more s)).2

theorem Proc.Causal.step {ε α : Type} {x : Proc σ ε α} (h : Causal more log x)
    (answer : Outcome ε α → ρ) (hwaits : ∀ o, waits (answer o) = true ↔ o = .waiting) :
    CausalStep more log waits fun s => (answer (x s).1, (x s).2) := by
  refine ⟨h.grows, fun s hs => ?_, fun s hs => h.waited s ((hwaits _).mp hs)⟩
  rw [h.returned s fun hw => ?_]
  rw [(hwaits _).mpr hw] at hs
  cases hs

/-- Answers may be put in another form. -/
theorem CausalStep.answered {ρ' : Type} {waits' : ρ' → Bool} {step : σ → ρ × σ}
    (h : CausalStep more log waits step) {answer : ρ → ρ'}
    (hwaits : ∀ r, waits' (answer r) = waits r) :
    CausalStep more log waits' fun s => (answer (step s).1, (step s).2) := by
  refine ⟨h.grows, fun s hs => ?_, fun s hs => h.waited s ((hwaits _).symm.trans hs)⟩
  rw [h.returned s ((hwaits _).symm.trans hs)]

/-- Steps in order. A step that waits is the last. -/
def runs (exec : ω → σ → ρ × σ) (waits : ρ → Bool) : List ω → σ → List ρ × σ
  | [], s => ([], s)
  | op :: ops, s =>
    if waits (exec op s).1 then ([(exec op s).1], (exec op s).2)
    else ((exec op s).1 :: (runs exec waits ops (exec op s).2).1,
      (runs exec waits ops (exec op s).2).2)

/-- What has been done is the beginning of what will have been done: all of it if nothing
    was waited for, and otherwise what was answered before the wait. -/
structure Continues (more : σ → σ) (log : σ → List τ) (waits : ρ → Bool)
    (now later : List ρ × σ) : Prop where
  returned : (∀ answer ∈ now.1, waits answer = false) → later = (now.1, more now.2)
  waited : (∃ answer ∈ now.1, waits answer = true) →
    now.1.dropLast <+: later.1 ∧ log now.2 <+: log later.2

variable {exec : ω → σ → ρ × σ}

theorem runs_grows (h : ∀ op, CausalStep more log waits (exec op)) (ops : List ω) (s : σ) :
    log s <+: log (runs exec waits ops s).2 := by
  induction ops generalizing s with
  | nil => exact List.prefix_rfl
  | cons op ops ih =>
      rw [runs]
      split
      · exact (h op).grows s
      · exact ((h op).grows s).trans (ih _)

/-- Steps that do not look ahead make a run that does not. -/
theorem runs_continues (h : ∀ op, CausalStep more log waits (exec op)) (ops : List ω) (s : σ) :
    Continues more log waits (runs exec waits ops s) (runs exec waits ops (more s)) := by
  induction ops generalizing s with
  | nil =>
      refine ⟨fun _ => rfl, fun hwaits => ?_⟩
      rcases hwaits with ⟨answer, hmem, -⟩
      exact absurd hmem List.not_mem_nil
  | cons op ops ih =>
      cases hw : waits (exec op s).1 with
      | true =>
          have hone : runs exec waits (op :: ops) s = ([(exec op s).1], (exec op s).2) := by
            rw [runs, hw, if_pos rfl]
          rw [hone]
          refine ⟨fun hnone => ?_, fun _ => ⟨List.nil_prefix, ?_⟩⟩
          · have hnot := hnone _ List.mem_cons_self
            rw [hw] at hnot
            cases hnot
          · -- The wait is over sooner or later, and what follows is only added.
            refine ((h op).waited s hw).trans ?_
            rw [runs]
            split
            · exact List.prefix_rfl
            · exact runs_grows h ops _
      | false =>
          have hnow : runs exec waits (op :: ops) s = ((exec op s).1 ::
              (runs exec waits ops (exec op s).2).1, (runs exec waits ops (exec op s).2).2) := by
            rw [runs, hw, if_neg Bool.false_ne_true]
          have hlater : runs exec waits (op :: ops) (more s) = ((exec op s).1 ::
              (runs exec waits ops (more (exec op s).2)).1,
              (runs exec waits ops (more (exec op s).2)).2) := by
            rw [runs, (h op).returned s hw, hw, if_neg Bool.false_ne_true]
          have hrest := ih (exec op s).2
          rw [hnow, hlater]
          refine ⟨fun hnone => ?_, fun hwaits => ?_⟩
          · rw [hrest.returned fun answer hmem => hnone answer (List.mem_cons_of_mem _ hmem)]
          · rcases hwaits with ⟨answer, hmem, hwait⟩
            have hmem' : answer ∈ (runs exec waits ops (exec op s).2).1 := by
              rcases List.mem_cons.mp hmem with rfl | hmem'
              · rw [hw] at hwait
                cases hwait
              · exact hmem'
            rcases hrest.waited ⟨answer, hmem', hwait⟩ with ⟨hanswers, hlog⟩
            refine ⟨?_, hlog⟩
            rw [List.dropLast_cons_of_ne_nil (List.ne_nil_of_mem hmem')]
            exact (List.prefix_cons_inj _).mpr hanswers

/-- More steps do more. -/
theorem runs_append_grows (h : ∀ op, CausalStep more log waits (exec op)) (ops ops' : List ω)
    (s : σ) : log (runs exec waits ops s).2 <+: log (runs exec waits (ops ++ ops') s).2 := by
  induction ops generalizing s with
  | nil => exact runs_grows h ops' s
  | cons op ops ih =>
      simp only [List.cons_append, runs]
      split
      · exact List.prefix_rfl
      · exact ih _

/-- More input does more. -/
theorem Continues.grows {now later : List ρ × σ} (h : Continues more log waits now later)
    (hlog : ∀ s, log (more s) = log s) : log now.2 <+: log later.2 := by
  by_cases hwaits : ∃ answer ∈ now.1, waits answer = true
  · exact (h.waited hwaits).2
  · have hnone : ∀ answer ∈ now.1, waits answer = false := fun answer hmem =>
      Bool.not_eq_true _ ▸ fun hw => hwaits ⟨answer, hmem, hw⟩
    rw [h.returned hnone, hlog]

end Steps
