import DlmsProfile.Core.Pending
import DlmsProfile.Library.Faults

/-!
# Receive Calls that may Throw

The two bodies around a pending queue once more, for a channel whose receive loop
may be left by an exception. Only the vector overload adds a site of its own, the
copy into the caller's vector, and a handler encloses it. Removing the front of a
queue moves what is left of it and allocates nothing, and a caller's buffer is
there already.

What a caller's buffer holds is left out: which sites a call passes and how it
ends depend on its size only.

## Main definitions

* `Throwing`: A procedure that may throw, and ends early with a status otherwise.
* `PendingQueue.awaiting`: The loop in front of both overloads.
* `PendingQueue.receivingVector`, `PendingQueue.receivingBuffer`: The overloads.
* `PendingQueue.answering`: What a receive call without exceptions answers.

## Theorems

* `PendingQueue.shadows_receiving`: A call that may throw shadows the one that does
  not, if its loop does.
* `PendingQueue.exposes_receiving`, `PendingQueue.exposes_awaiting`: What is exposed is
  exposed by the step of the loop.
-/

namespace DlmsProfile

/-- A procedure that may throw, and ends early with a status otherwise. -/
abbrev Throwing (σ α : Type) : Type := Proc (Faulty σ) (Exit ProfileStatus) α

namespace PendingQueue

open Proc

variable {σ : Type}

/-- One turn of the receive loop, and whether it was the last. -/
def turning (q : PendingQueue σ) (body : Throwing σ Unit) : Throwing σ Bool := do
  body
  safely (gets fun s => !(q.apdus s).isEmpty)

theorem turning_done {q : PendingQueue σ} {body : Throwing σ Unit} {s s' : Faulty σ} {b : Bool}
    (h : q.turning body s = (.done b, s')) : body s = (.done (), s') := by
  rcases bind_done_iff.mp h with ⟨⟨⟩, s1, hb, hk⟩
  have hs : s1 = s' := congrArg Prod.snd hk
  rw [hb, hs]

/-- `while (pending.empty())` around a step that may fill the queue. -/
def awaiting (q : PendingQueue σ) (size : σ → Nat) (body : Throwing σ Unit)
    (hsize : ∀ s s', body s = (.done (), s') → size s'.state < size s.state) :
    Throwing σ Unit := fun s =>
  if q.apdus s.state = [] then
    repeatUntil (fun t => size t.state) (q.turning body)
      (fun s s' h => hsize s s' (turning_done h)) s
  else (.done (), s)

/-- The body of `ReceiveApdu` into a vector. The copy of the front may throw. -/
def receivingVector (q : PendingQueue σ) (may : Bool) (await : Throwing σ Unit) :
    Throwing σ (List UInt8) := do
  await
  guarded id .internalError (do
    mayThrowIf may
    safely fun s => (.done ((q.apdus s).headD []), q.pop s))

/-- `CopyFirstPendingFrame` and `CopyFirstPendingApdu`, without the buffer. -/
def copyOut (q : PendingQueue σ) (output : ProfileMutableBuffer) : Proc σ ProfileStatus Unit :=
  fun s => ((q.copyFirst output true s).1.1, (q.copyFirst output true s).2)

/-- The body of `ReceiveApdu` into a caller's buffer, without the buffer. -/
def receivingBuffer (q : PendingQueue σ) (await : Throwing σ Unit)
    (output : ProfileMutableBuffer) : Throwing σ Unit := fun s =>
  if isValidMutableBuffer output = false then (.fail (.status .invalidArgument), s)
  else
    (do
      await
      safely (q.copyOut (output.setWritten 0))) s

/-- Either overload. -/
def receiving (q : PendingQueue σ) (may : Bool) (await : Throwing σ Unit) :
    ReceiveCall → Throwing σ Unit
  | .vector => q.receivingVector may await >>= fun _ => pure ()
  | .into output => q.receivingBuffer await output

/-- The status either overload answers when nothing throws. -/
def answering (q : PendingQueue σ) (await : Proc σ ProfileStatus Unit) :
    ReceiveCall → Proc σ ProfileStatus Unit
  | .vector => q.receiveVector await >>= fun _ => pure ()
  | .into output => fun s =>
    ((q.receiveBuffer await output s).1.1, (q.receiveBuffer await output s).2)

variable {q : PendingQueue σ} {await : Proc σ ProfileStatus Unit} {await' : Throwing σ Unit}

theorem answering_snd (call : ReceiveCall) (reads : σ → List ReadEvent) (s : σ) :
    (q.answering await call s).2 = ((q.channel await reads).call call s).2 := by
  cases call with
  | vector =>
      simp only [answering, ApduChannel.call]
      rcases hr : q.receiveVector await s with ⟨apdu | status | _, s1⟩
      · rw [bind_of_done _ hr]
        rfl
      · rw [bind_of_fail _ hr]
      · rw [bind_of_waiting _ hr]
  | into output => rfl

/-- A loop that may throw shortens what the loop without exceptions shortens. -/
theorem size_of_shadows {size : σ → Nat} {body : Proc σ ProfileStatus Unit}
    {body' : Throwing σ Unit} (hsize : ∀ s s', body s = (.done (), s') → size s' < size s)
    (h : Shadows .internalError body body') (s s' : Faulty σ) (hb : body' s = (.done (), s')) :
    size s'.state < size s.state :=
  hsize s.state s'.state ((h s.state).done hb)

theorem shadows_awaiting {size : σ → Nat} {body : Proc σ ProfileStatus Unit}
    {body' : Throwing σ Unit} {hsize : ∀ s s', body s = (.done (), s') → size s' < size s}
    {hsize' : ∀ s s', body' s = (.done (), s') → size s'.state < size s.state}
    (h : Shadows .internalError body body') :
    Shadows .internalError (q.await size body hsize) (q.awaiting size body' hsize') := by
  have hturn : Shadows .internalError (q.turn body) (q.turning body') :=
    shadows_bind h fun _ => shadows_safely _
  intro s
  -- With something in hand the loop is not entered.
  by_cases hp : q.apdus s = []
  · have hloop : Shadows .internalError
        (repeatUntil size (q.turn body) fun s s' h => hsize s s' (turn_done_iff.mp h).1)
        (repeatUntil (fun t => size t.state) (q.turning body')
          fun s s' h => hsize' s s' (turning_done h)) := shadows_repeatUntil hturn
    refine (hloop s).congr (await_of_empty hp) fun faults sites => ?_
    exact if_pos hp
  · refine (shadows_pure () s).congr (await_of_pending hp) fun faults sites => ?_
    exact if_neg hp

theorem shadows_receivingVector (may : Bool) (h : Shadows .internalError await await') :
    Shadows .internalError (q.receiveVector await) (q.receivingVector may await') :=
  shadows_bind h fun _ s => shadowsAt_guarded (shadows_site may (shadows_safely _) s)

theorem shadows_receivingBuffer (h : Shadows .internalError await await')
    (output : ProfileMutableBuffer) :
    Shadows .internalError (q.answering await (.into output))
      (q.receivingBuffer await' output) := by
  intro s
  -- A buffer that is not valid is refused before anything else.
  cases hv : isValidMutableBuffer output with
  | false =>
      refine (shadows_fail .invalidArgument s).congr ?_ fun faults sites => ?_
      · simp only [answering, receiveBuffer, if_pos hv]
        rfl
      · simp only [receivingBuffer, if_pos hv]
        rfl
  | true =>
      have hcopy : Shadows .internalError (await >>= fun _ => q.copyOut (output.setWritten 0))
          (await' >>= fun _ => safely (q.copyOut (output.setWritten 0))) :=
        shadows_bind h fun _ => shadows_safely _
      refine (hcopy s).congr ?_ fun faults sites => ?_
      · simp only [answering]
        rcases hw : await s with ⟨⟨⟩ | status | _, s1⟩
        · rw [receiveBuffer_of_done hv hw, bind_of_done _ hw]
          rfl
        · rw [receiveBuffer_of_fail hv hw, bind_of_fail _ hw]
        · rw [receiveBuffer_of_waiting hv hw, bind_of_waiting _ hw]
      · simp only [receivingBuffer, hv, Bool.true_eq_false, if_false]

/-- A call that may throw shadows the one that does not, if its loop does. -/
theorem shadows_receiving (may : Bool) (h : Shadows .internalError await await')
    (call : ReceiveCall) :
    Shadows .internalError (q.answering await call) (q.receiving may await' call) := by
  cases call with
  | vector => exact shadows_bind (shadows_receivingVector may h) fun _ => shadows_pure ()
  | into output => exact shadows_receivingBuffer h output

section Exposes

/-- The call gets as far as its loop. -/
def Accepts : ReceiveCall → Prop
  | .vector => True
  | .into output => isValidMutableBuffer output = true

/-- Around the loop nothing is exposed: the copy into a vector is inside its handler. -/
theorem exposes_receiving {may : Bool} (h : Shadows .internalError await await')
    (call : ReceiveCall) (s : σ) :
    Exposes (q.receiving may await' call) s ↔ Accepts call ∧ Exposes await' s := by
  -- What is copied into a vector is guarded, so only the waiting can expose it.
  cases call with
  | vector =>
      have hcopy : Shadows .internalError
          (fun s => (.done ((q.apdus s).headD []), q.pop s) : Proc σ ProfileStatus (List UInt8))
          (guarded id .internalError (do
            mayThrowIf may
            safely fun s => (.done ((q.apdus s).headD []), q.pop s))) := fun s1 =>
        shadowsAt_guarded (shadows_site may (shadows_safely _) s1)
      have hvector : Exposes (q.receivingVector may await') s ↔ Exposes await' s :=
        exposes_bind_left (h s) (fun _ => hcopy) fun _ s1 => not_exposes_guarded _ s1
      rw [receiving, exposes_bind_left (shadows_receivingVector may h s) (fun _ => shadows_pure ())
        fun _ => not_exposes_pure (), hvector, Accepts, true_and]
  | into output =>
      cases hv : isValidMutableBuffer output with
      | false =>
          have hfail : Exposes (q.receiving may await' (.into output)) s ↔
              Exposes (fail (.status .invalidArgument) : Throwing σ Unit) s :=
            exposes_congr fun faults sites => if_pos hv
          rw [hfail, Accepts, hv]
          exact iff_of_false (not_exposes_fail _ s) fun hc => Bool.false_ne_true hc.1
      | true =>
          have hbody : Exposes (q.receiving may await' (.into output)) s ↔
              Exposes (await' >>= fun _ => safely (q.copyOut (output.setWritten 0))) s :=
            exposes_congr fun faults sites => if_neg (Bool.not_eq_false _ ▸ hv)
          rw [hbody, exposes_bind_left (h s) (fun _ => shadows_safely _)
            fun _ => not_exposes_safely _, Accepts, hv, eq_self_iff_true, true_and]

variable {size : σ → Nat} {body : Proc σ ProfileStatus Unit} {body' : Throwing σ Unit}

/-- A turn of the loop exposes what its step does. -/
theorem exposes_turning (h : Shadows .internalError body body') (s : σ) :
    Exposes (q.turning body') s ↔ Exposes body' s := by
  exact exposes_bind_left (h s) (fun _ => shadows_safely _) fun _ => not_exposes_safely _

/-- The loop exposes what its step does, now or, if the queue is left empty, later. -/
theorem exposes_awaiting (hsize : ∀ s s', body s = (.done (), s') → size s' < size s)
    {hsize' : ∀ s s', body' s = (.done (), s') → size s'.state < size s.state}
    (h : Shadows .internalError body body') (s : σ) :
    Exposes (q.awaiting size body' hsize') s ↔ q.apdus s = [] ∧ (Exposes body' s ∨
      ∃ s1, body s = (.done (), s1) ∧ Exposes (q.awaiting size body' hsize') s1) := by
  have hturn : Shadows .internalError (q.turn body) (q.turning body') :=
    shadows_bind h fun _ => shadows_safely _
  have hloop : ∀ {s}, q.apdus s = [] → (Exposes (q.awaiting size body' hsize') s ↔
      Exposes (repeatUntil (fun t : Faulty σ => size t.state) (q.turning body')
        fun s s' h => hsize' s s' (turning_done h)) s) := fun hp =>
    exposes_congr fun faults sites => if_pos hp
  have hpass : ∀ {s}, q.apdus s ≠ [] → ¬ Exposes (q.awaiting size body' hsize') s := by
    intro s hp hexposes
    refine not_exposes_pure () s ((exposes_congr fun faults sites => ?_).mp hexposes)
    exact if_neg hp
  by_cases hp : q.apdus s = []
  · rw [hloop hp, exposes_repeatUntil (fun s s' h => hsize s s' (turn_done_iff.mp h).1) hturn,
      exposes_turning h, and_iff_right hp]
    refine or_congr Iff.rfl (exists_congr fun s1 => ?_)
    rw [turn_done_iff]
    -- The loop turns again if the queue is empty still.
    by_cases hp1 : q.apdus s1 = []
    · rw [hloop hp1]
      refine and_congr (and_iff_left ?_) Iff.rfl
      rw [hp1]
      rfl
    · refine iff_of_false (fun hc => hp1 ?_) fun hc => hpass hp1 hc.2
      simpa only [Bool.not_eq_false', List.isEmpty_iff] using hc.1.2
  · exact iff_of_false (hpass hp) fun hc => hp hc.1

/-- Around a step that exposes nothing neither does the loop. -/
theorem covers_awaiting (hsize : ∀ s s', body s = (.done (), s') → size s' < size s)
    {hsize' : ∀ s s', body' s = (.done (), s') → size s'.state < size s.state}
    (h : Shadows .internalError body body') (hbody : Covers body') :
    Covers (q.awaiting size body' hsize') := by
  intro s
  induction hn : size s using Nat.strong_induction_on generalizing s with
  | _ n ih =>
      rw [exposes_awaiting hsize h]
      rintro ⟨-, hhere | ⟨s1, hb, hrest⟩⟩
      · exact hbody s hhere
      · exact ih (size s1) (hn ▸ hsize s s1 hb) s1 rfl hrest

end Exposes

end PendingQueue

end DlmsProfile
