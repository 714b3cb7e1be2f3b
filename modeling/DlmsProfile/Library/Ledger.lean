import DlmsProfile.Library.Retry

/-!
# Procedures with a Ledger

To say what a procedure took in and gave out over a whole run, it is run once more
with a ledger beside its state. Most steps make no entry, some do, and none of them
reads what is entered. So two things are shown of a procedure with entries, and
both at once: without the ledger it is the procedure it was, and a property of
state and ledger that held before it holds after it, however it ends.

## Main definitions

* `Kept`: A state with a ledger.
* `Proc.quietly`: A procedure that enters nothing.
* `Proc.entering`: A procedure that enters what it did.
* `Proc.Keeps`: Without its ledger a procedure is another one, and it keeps a
  property.

## Theorems

* `Proc.keeps_bind`, `Proc.keeps_retry`, `Proc.keeps_repeatUntil`: Composition.
-/

/-- A state with a ledger. -/
structure Kept (σ κ : Type) where
  state : σ
  ledger : κ

namespace Proc

variable {σ κ ε α β : Type}

/-- A procedure that enters nothing. -/
def quietly (x : Proc σ ε α) : Proc (Kept σ κ) ε α := fun s =>
  ((x s.state).1, { s with state := (x s.state).2 })

/-- A procedure that enters what it did, told by where it started and how it ended. -/
def entering (entry : σ → Outcome ε α → κ → κ) (x : Proc σ ε α) : Proc (Kept σ κ) ε α := fun s =>
  ((x s.state).1, ⟨(x s.state).2, entry s.state (x s.state).1 s.ledger⟩)

/-- From a state the second procedure is the first one with a ledger, and keeps a
    property. -/
structure KeepsAt (P : Kept σ κ → Prop) (x : Proc σ ε α) (y : Proc (Kept σ κ) ε α)
    (s : Kept σ κ) : Prop where
  outcome : (y s).1 = (x s.state).1
  state : (y s).2.state = (x s.state).2
  holds : P s → P (y s).2

/-- The same from every state. -/
def Keeps (P : Kept σ κ → Prop) (x : Proc σ ε α) (y : Proc (Kept σ κ) ε α) : Prop :=
  ∀ s, KeepsAt P x y s

section Keeps

variable {P : Kept σ κ → Prop} {x : Proc σ ε α} {y : Proc (Kept σ κ) ε α}

/-- A step that enters nothing and keeps the property may come first. -/
theorem KeepsAt.from {x' : Proc σ ε α} {y' : Proc (Kept σ κ) ε α} {s s' : Kept σ κ}
    (h : KeepsAt P x y s') (hx : x' s.state = x s'.state) (hy : y' s = y s') (hs : P s → P s') :
    KeepsAt P x' y' s := by
  refine ⟨?_, ?_, ?_⟩
  · rw [hx, hy]
    exact h.outcome
  · rw [hx, hy]
    exact h.state
  · rw [hy]
    exact fun hp => h.holds (hs hp)

/-- Equal procedures have the same ledger. -/
theorem KeepsAt.congr {x' : Proc σ ε α} {y' : Proc (Kept σ κ) ε α} {s : Kept σ κ}
    (h : KeepsAt P x y s) (hx : x' s.state = x s.state) (hy : y' s = y s) :
    KeepsAt P x' y' s := h.from hx hy id

/-- Both given by what they do from here. -/
theorem KeepsAt.of_eq {s : Kept σ κ} {o : Outcome ε α} {t : σ} (ledger : κ)
    (hx : x s.state = (o, t)) (hy : y s = (o, ⟨t, ledger⟩)) (h : P s → P ⟨t, ledger⟩) :
    KeepsAt P x y s := by
  refine ⟨?_, ?_, ?_⟩
  · rw [hx, hy]
  · rw [hx, hy]
  · rw [hy]
    exact h

/-- What the second procedure does is what the first one does. -/
theorem KeepsAt.run {s s' : Kept σ κ} {o : Outcome ε α} (h : KeepsAt P x y s)
    (hy : y s = (o, s')) : x s.state = (o, s'.state) := by
  refine Prod.ext (h.outcome.symm.trans ?_) (h.state.symm.trans ?_)
  · rw [hy]
  · rw [hy]

/-- A procedure that enters nothing keeps what its steps keep. -/
theorem keepsAt_quietly {s : Kept σ κ} (h : P s → P { s with state := (x s.state).2 }) :
    KeepsAt P x (quietly x) s :=
  ⟨rfl, rfl, h⟩

theorem keeps_quietly (h : ∀ s : Kept σ κ, P s → P { s with state := (x s.state).2 }) :
    Keeps P x (quietly x) := fun s => keepsAt_quietly (h s)

theorem keeps_entering {entry : σ → Outcome ε α → κ → κ}
    (h : ∀ s : Kept σ κ, P s → P ⟨(x s.state).2, entry s.state (x s.state).1 s.ledger⟩) :
    Keeps P x (entering entry x) := fun s => ⟨rfl, rfl, h s⟩

theorem keeps_pure (a : α) : Keeps P (pure a : Proc σ ε α) (pure a) := fun _ => ⟨rfl, rfl, id⟩

theorem keeps_fail (e : ε) : Keeps P (fail e : Proc σ ε α) (fail e) := fun _ => ⟨rfl, rfl, id⟩

theorem keepsAt_bind {k : α → Proc σ ε β} {l : α → Proc (Kept σ κ) ε β} {s : Kept σ κ}
    (hxy : KeepsAt P x y s) (hkl : ∀ a s', y s = (.done a, s') → KeepsAt P (k a) (l a) s') :
    KeepsAt P (x >>= k) (y >>= l) s := by
  have hholds := hxy.holds
  rcases hy : y s with ⟨o, s1⟩
  have hx := hxy.run hy
  rw [hy] at hholds
  -- Both halves run or neither does, since `y` answers as `x` does.
  cases o with
  | done a =>
      have hrest := hkl a s1 hy
      have hbind : (x >>= k) s.state = k a s1.state := bind_of_done k hx
      have hbind' : (y >>= l) s = l a s1 := bind_of_done l hy
      refine ⟨?_, ?_, ?_⟩
      · rw [hbind, hbind']
        exact hrest.outcome
      · rw [hbind, hbind']
        exact hrest.state
      · rw [hbind']
        exact fun hs => hrest.holds (hholds hs)
  | fail e =>
      have hbind : (x >>= k) s.state = (.fail e, s1.state) := bind_of_fail k hx
      have hbind' : (y >>= l) s = (.fail e, s1) := bind_of_fail l hy
      refine ⟨?_, ?_, ?_⟩
      · rw [hbind, hbind']
      · rw [hbind, hbind']
      · rw [hbind']
        exact hholds
  | waiting =>
      have hbind : (x >>= k) s.state = (.waiting, s1.state) := bind_of_waiting k hx
      have hbind' : (y >>= l) s = (.waiting, s1) := bind_of_waiting l hy
      refine ⟨?_, ?_, ?_⟩
      · rw [hbind, hbind']
      · rw [hbind, hbind']
      · rw [hbind']
        exact hholds

theorem keeps_bind {k : α → Proc σ ε β} {l : α → Proc (Kept σ κ) ε β} (hxy : Keeps P x y)
    (hkl : ∀ a, Keeps P (k a) (l a)) : Keeps P (x >>= k) (y >>= l) := fun s =>
  keepsAt_bind (hxy s) fun a s' _ => hkl a s'

theorem keeps_retry {again : ε → Bool} {between : Proc σ ε Unit}
    {between' : Proc (Kept σ κ) ε Unit} (hxy : Keeps P x y) (hbetween : Keeps P between between')
    (left : Nat) : Keeps P (retry x again between left) (retry y again between' left) := by
  -- On the attempts left. A retry is one more attempt behind what lies between.
  induction left with
  | zero => exact hxy
  | succ left ih =>
      intro s
      have hone := hxy s
      rcases hy : y s with ⟨a | e | _, s1⟩
      · have hx := hone.run hy
        refine hone.congr ?_ ?_
        · simp only [retry, hx]
        · simp only [retry, hy]
      · have hx := hone.run hy
        by_cases hagain : again e = true
        · have hrest := keeps_bind hbetween (fun _ => ih) s1
          refine ⟨?_, ?_, fun hs => ?_⟩
          · rw [retry_of_worthy left hy hagain, retry_of_worthy left hx hagain]
            exact hrest.outcome
          · rw [retry_of_worthy left hy hagain, retry_of_worthy left hx hagain]
            exact hrest.state
          · rw [retry_of_worthy left hy hagain]
            have hs1 := hone.holds hs
            rw [hy] at hs1
            exact hrest.holds hs1
        · refine hone.congr ?_ ?_
          · simp [retry, hx, hagain]
          · simp [retry, hy, hagain]
      · have hx := hone.run hy
        refine hone.congr ?_ ?_
        · simp only [retry, hx]
        · simp only [retry, hy]

/-- By induction on the run of the loop with a ledger. -/
theorem keeps_repeatUntil {size : σ → Nat} {size' : Kept σ κ → Nat} {body : Proc σ ε Bool}
    {body' : Proc (Kept σ κ) ε Bool}
    {hsize : ∀ s s', body s = (.done false, s') → size s' < size s}
    {hsize' : ∀ s s', body' s = (.done false, s') → size' s' < size' s}
    (h : Keeps P body body') :
    Keeps P (repeatUntil size body hsize) (repeatUntil size' body' hsize') := by
  have hstep : ∀ {s s' : Kept σ κ} {o}, body' s = (o, s') →
      body s.state = (o, s'.state) ∧ (P s → P s') := by
    intro s s' o hb
    have hholds := (h s).holds
    rw [hb] at hholds
    exact ⟨(h s).run hb, hholds⟩
  -- By what the turns of the kept loop answer, the other loop following them.
  have hall : ∀ s, repeatUntil size body hsize s.state =
        ((repeatUntil size' body' hsize' s).1, (repeatUntil size' body' hsize' s).2.state) ∧
      (P s → P (repeatUntil size' body' hsize' s).2) := by
    refine repeatUntil_induct (fun s o s' => repeatUntil size body hsize s.state = (o, s'.state) ∧
      (P s → P s')) ?_ ?_ ?_ ?_
    · intro s s1 e hb
      rcases hstep hb with ⟨hbody, hholds⟩
      exact ⟨repeatUntil_of_fail hbody, hholds⟩
    · intro s s1 hb
      rcases hstep hb with ⟨hbody, hholds⟩
      exact ⟨repeatUntil_of_waiting hbody, hholds⟩
    · intro s s1 hb
      rcases hstep hb with ⟨hbody, hholds⟩
      exact ⟨repeatUntil_of_true hbody, hholds⟩
    · rintro s s1 o s2 hb ⟨hrest, hkept⟩
      rcases hstep hb with ⟨hbody, hholds⟩
      exact ⟨(repeatUntil_of_false hbody).trans hrest, fun hs => hkept (hholds hs)⟩
  intro s
  rcases hall s with ⟨hrun, hholds⟩
  exact ⟨by rw [hrun], by rw [hrun], hholds⟩

end Keeps

end Proc
