import DlmsProfile.Library.Proc

/-!
# Trying Again a Bounded Number of Times

An attempt may fail in a way that is worth another one. Before the next attempt
something is done that may fail itself, and after a fixed number of attempts the
last of them has the word.

How such a loop runs is said once, by the rounds it went through: `Rounds j s s'`
holds when the first `j` attempts from `s` on failed in that way, what came
between them succeeded, and `s'` is the state the next attempt starts from. A
round adds to a log what is done between two attempts, if an attempt adds
nothing.

## Main definitions

* `Proc.retry`: The loop.
* `Proc.Worthy`: An answer that is worth another attempt.
* `Proc.Rounds`: The attempts that came to nothing.
* `Proc.Stopped`: How the loop ends after so many rounds.

## Theorems

* `Proc.retry_stops`: The loop ends, after no more rounds than it may.
* `Proc.Rounds.invariant`: What a round keeps.
* `Proc.Rounds.log_eq`: What rounds add to a log.
-/

namespace Proc

variable {σ ε α τ : Type} (attempt : Proc σ ε α) (again : ε → Bool) (between : Proc σ ε Unit)

/-- Attempt it, and so many times more after a failure worth it. -/
def retry : Nat → Proc σ ε α
  | 0 => attempt
  | left + 1 => fun s =>
    match attempt s with
    | (.fail e, s1) =>
      if again e then (between >>= fun _ => retry left) s1 else (.fail e, s1)
    | (.done a, s1) => (.done a, s1)
    | (.waiting, s1) => (.waiting, s1)

/-- An answer that is worth another attempt. -/
def Worthy (o : Outcome ε α) : Prop := ∃ e, o = .fail e ∧ again e = true

/-- So many attempts failed, each worth the next, and every time what is done
    between two attempts succeeded. -/
inductive Rounds : Nat → σ → σ → Prop
  | none (s : σ) : Rounds 0 s s
  | next {j : Nat} {s s1 s2 s' : σ} {e : ε} (hfail : attempt s = (.fail e, s1))
    (hagain : again e = true) (hbetween : between s1 = (.done (), s2)) (hrest : Rounds j s2 s') :
    Rounds (j + 1) s s'

/-- After `j` rounds of at most `limit` the loop ends from `s`: with an attempt
    that is not worth another or was the last, or because something in between
    did not succeed. -/
inductive Stopped (limit j : Nat) (s : σ) : Outcome ε α × σ → Prop
  | settled (h : ¬ Worthy again (attempt s).1 ∨ j = limit) : Stopped limit j s (attempt s)
  | failed {e e' : ε} {s1 s2 : σ} (hleft : j < limit) (hfail : attempt s = (.fail e, s1))
    (hagain : again e = true) (hbetween : between s1 = (.fail e', s2)) :
    Stopped limit j s (.fail e', s2)
  | blocked {e : ε} {s1 s2 : σ} (hleft : j < limit) (hfail : attempt s = (.fail e, s1))
    (hagain : again e = true) (hbetween : between s1 = (.waiting, s2)) :
    Stopped limit j s (.waiting, s2)

variable {attempt again between}

/-- An attempt that is not worth another has the word. -/
theorem retry_of_settled {s : σ} (limit : Nat) (h : ¬ Worthy again (attempt s).1) :
    retry attempt again between limit s = attempt s := by
  cases limit with
  | zero => rfl
  | succ left =>
      rcases hs : attempt s with ⟨a | e | _, s1⟩
      · simp only [retry, hs]
      · rw [hs] at h
        have hlast : ¬ again e = true := fun hagain => h ⟨e, rfl, hagain⟩
        simp [retry, hs, hlast]
      · simp only [retry, hs]

theorem retry_of_worthy {s s1 : σ} {e : ε} (left : Nat) (h : attempt s = (.fail e, s1))
    (hagain : again e = true) :
    retry attempt again between (left + 1) s =
      (between >>= fun _ => retry attempt again between left) s1 := by
  simp only [retry, h, hagain, if_true]

/-- One more attempt was allowed. -/
theorem Stopped.more {limit j : Nat} {s : σ} {r : Outcome ε α × σ}
    (h : Stopped attempt again between limit j s r) :
    Stopped attempt again between (limit + 1) (j + 1) s r := by
  cases h with
  | settled h => exact Stopped.settled (h.imp_right (congrArg (· + 1)))
  | failed hleft hfail hagain hbetween =>
      exact Stopped.failed (Nat.succ_lt_succ hleft) hfail hagain hbetween
  | blocked hleft hfail hagain hbetween =>
      exact Stopped.blocked (Nat.succ_lt_succ hleft) hfail hagain hbetween

variable (attempt again between) in
/-- The loop ends after some number of rounds, by induction on how many it may go
    through. -/
theorem retry_stops (limit : Nat) (s : σ) :
    ∃ j s', j ≤ limit ∧ Rounds attempt again between j s s' ∧
      Stopped attempt again between limit j s' (retry attempt again between limit s) := by
  induction limit generalizing s with
  | zero => exact ⟨0, s, Nat.le_refl 0, Rounds.none s, Stopped.settled (Or.inr rfl)⟩
  | succ limit ih =>
      by_cases hworthy : Worthy again (attempt s).1
      · rcases hworthy with ⟨e, he, hagain⟩
        have hfail : attempt s = (.fail e, (attempt s).2) := Prod.ext he rfl
        rw [retry_of_worthy limit hfail hagain]
        rcases hbetween : between (attempt s).2 with ⟨⟨⟩ | e' | _, s2⟩
        · rw [bind_of_done _ hbetween]
          rcases ih s2 with ⟨j, s', hj, hrounds, hstopped⟩
          exact ⟨j + 1, s', Nat.succ_le_succ hj, Rounds.next hfail hagain hbetween hrounds,
            hstopped.more⟩
        · rw [bind_of_fail _ hbetween]
          exact ⟨0, s, Nat.zero_le _, Rounds.none s,
            Stopped.failed (Nat.zero_lt_succ _) hfail hagain hbetween⟩
        · rw [bind_of_waiting _ hbetween]
          exact ⟨0, s, Nat.zero_le _, Rounds.none s,
            Stopped.blocked (Nat.zero_lt_succ _) hfail hagain hbetween⟩
      · -- The first attempt already has the word.
        rw [retry_of_settled _ hworthy]
        exact ⟨0, s, Nat.zero_le _, Rounds.none s, Stopped.settled (Or.inl hworthy)⟩

namespace Rounds

/-- What an attempt and what comes between keep, rounds keep. -/
theorem invariant {I : σ → Prop} (hattempt : Preserves I attempt) (hbetween : Preserves I between)
    {j : Nat} {s s' : σ} (h : Rounds attempt again between j s s') (hs : I s) : I s' := by
  induction h with
  | none s => exact hs
  | @next j s s1 s2 s' e hfail hagain hdone hrest ih =>
      have hs1 := hattempt s hs
      rw [hfail] at hs1
      have hs2 := hbetween s1 hs1
      rw [hdone] at hs2
      exact ih hs2

/-- Rounds add to a log what is done between two attempts, once for each of them,
    if an attempt adds nothing. -/
theorem log_eq {I : σ → Prop} (log : σ → List τ) {turn : List τ}
    (hattempt : Preserves I attempt) (hbetween : Preserves I between)
    (hquiet : ∀ s, log (attempt s).2 = log s)
    (hturn : ∀ s s', I s → between s = (.done (), s') → log s' = log s ++ turn)
    {j : Nat} {s s' : σ} (h : Rounds attempt again between j s s') (hs : I s) :
    log s' = log s ++ (List.replicate j turn).flatten := by
  -- On the rounds. Each attempt is quiet, and what follows it is one more turn.
  induction h with
  | none s => rw [List.replicate_zero, List.flatten_nil, List.append_nil]
  | @next j s s1 s2 s' e hfail hagain hdone hrest ih =>
      have hs1 := hattempt s hs
      have hlog1 := hquiet s
      rw [hfail] at hs1 hlog1
      have hs2 := hbetween s1 hs1
      rw [hdone] at hs2
      rw [ih hs2, hturn s1 s2 hs1 hdone, hlog1, List.replicate_succ, List.flatten_cons,
        List.append_assoc]

end Rounds

end Proc
