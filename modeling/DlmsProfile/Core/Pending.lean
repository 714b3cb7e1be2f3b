import DlmsProfile.Core.Channel

/-!
# Channels with a Pending Queue

Two of the three channels keep what a read completed beyond the APDU that was
asked for, and hand it out later: `pendingFrames_` in one, `pendingApdus_` in
the other. Both wrap the same two bodies around it, a loop that runs until the
queue holds something and then a move or a copy of its front.

`PendingQueue` is that member, and the bodies are written once over it. The
rule for proving such a channel right is `TakesIn.awaits` followed by
`Awaits.delivers`: it is enough to look at one turn of the loop.

## Main definitions

* `PendingQueue`: The member and the removal of its front.
* `PendingQueue.await`: The loop in front of both overloads.
* `PendingQueue.receiveVector`, `PendingQueue.receiveBuffer`: The overloads.
* `PendingQueue.channel`: Both of them as an `ApduChannel`.
* `TakesIn`: One turn of the loop keeps the queue of APDUs.
* `Awaits`: The loop keeps it.

## Theorems

* `TakesIn.awaits`: A loop of turns that keep the queue keeps it.
* `Awaits.delivers`: Both overloads take their results from the queue.
* `PendingQueue.keeps`: A pending queue keeps what does not fit.
-/

namespace DlmsProfile

/-- The member in which a channel keeps what it received but did not hand over
    yet: its APDUs, front first, and the removal of the front one. -/
structure PendingQueue (σ : Type) where
  apdus : σ → List (List UInt8)
  pop : σ → σ
  apdus_pop : ∀ s, apdus (pop s) = (apdus s).tail

namespace PendingQueue

variable {σ : Type}

/-- One turn of the receive loop, and whether it was the last. -/
def turn (q : PendingQueue σ) (body : Proc σ ProfileStatus Unit) : Proc σ ProfileStatus Bool :=
  body >>= fun _ => Proc.gets fun s => !(q.apdus s).isEmpty

theorem turn_done_iff {q : PendingQueue σ} {body : Proc σ ProfileStatus Unit} {s s' : σ}
    {b : Bool} : q.turn body s = (.done b, s') ↔
      body s = (.done (), s') ∧ (!(q.apdus s').isEmpty) = b := by
  rw [turn, Proc.bind_done_iff]
  constructor
  · rintro ⟨_, s1, hb, hk⟩
    obtain ⟨hout, rfl⟩ := Prod.mk.inj hk
    exact ⟨hb, Outcome.done.inj hout⟩
  · rintro ⟨hb, rfl⟩
    exact ⟨(), s', hb, rfl⟩

/-- Looking at the queue changes nothing. -/
theorem turn_snd (q : PendingQueue σ) (body : Proc σ ProfileStatus Unit) (s : σ) :
    (q.turn body s).2 = (body s).2 := by
  rcases hb : body s with ⟨⟨⟩ | status | _, s1⟩
  · rw [turn, Proc.bind_of_done _ hb, Proc.gets_apply]
  · rw [turn, Proc.bind_of_fail _ hb]
  · rw [turn, Proc.bind_of_waiting _ hb]

theorem turn_fail {q : PendingQueue σ} {body : Proc σ ProfileStatus Unit} {s s' : σ}
    {e : ProfileStatus} (h : q.turn body s = (.fail e, s')) : body s = (.fail e, s') := by
  rcases Proc.bind_fail_iff.mp h with hb | ⟨_, _, -, hk⟩
  · exact hb
  · cases hk

theorem turn_waiting {q : PendingQueue σ} {body : Proc σ ProfileStatus Unit} {s s' : σ}
    (h : q.turn body s = (.waiting, s')) : body s = (.waiting, s') := by
  rcases Proc.bind_waiting_iff.mp h with hb | ⟨_, _, -, hk⟩
  · exact hb
  · cases hk

/-- `while (pending.empty())` around a step that may fill the queue. -/
def await (q : PendingQueue σ) (size : σ → Nat) (body : Proc σ ProfileStatus Unit)
    (hsize : ∀ s s', body s = (.done (), s') → size s' < size s) :
    Proc σ ProfileStatus Unit := fun s =>
  if q.apdus s = [] then
    Proc.repeatUntil size (q.turn body) (fun s s' h => hsize s s' (turn_done_iff.mp h).1) s
  else (.done (), s)

/-- The body of `ReceiveApdu` into a vector: wait until an APDU is pending,
    then move it out. -/
def receiveVector (q : PendingQueue σ) (await : Proc σ ProfileStatus Unit) :
    Proc σ ProfileStatus (List UInt8) :=
  await >>= fun _ s => (.done ((q.apdus s).headD []), q.pop s)

/-- The body of `CopyFirstPendingFrame` and `CopyFirstPendingApdu`. -/
def copyFirst (q : PendingQueue σ) (output : ProfileMutableBuffer) (consume : Bool) (s : σ) :
    (Outcome ProfileStatus Unit × ProfileMutableBuffer) × σ :=
  let apdu := (q.apdus s).headD []
  if output.size < apdu.length then ((.fail .outputBufferTooSmall, output), s)
  else
    ((.done (), (output.copy apdu).setWritten apdu.length), if consume then q.pop s else s)

/-- The body of `ReceiveApdu` into a caller's buffer. -/
def receiveBuffer (q : PendingQueue σ) (await : Proc σ ProfileStatus Unit)
    (output : ProfileMutableBuffer) (s : σ) :
    (Outcome ProfileStatus Unit × ProfileMutableBuffer) × σ :=
  if isValidMutableBuffer output = false then ((.fail .invalidArgument, output), s)
  else
    match await s with
    | (.done (), s1) => q.copyFirst (output.setWritten 0) true s1
    | (.fail status, s1) => ((.fail status, output.setWritten 0), s1)
    | (.waiting, s1) => ((.waiting, output.setWritten 0), s1)

/-- The receiving half made of the two bodies. -/
@[reducible] def channel (q : PendingQueue σ) (await : Proc σ ProfileStatus Unit)
    (reads : σ → List ReadEvent) : ApduChannel where
  State := σ
  receiveApdu := q.receiveVector await
  receiveApduInto := q.receiveBuffer await
  reads := reads

variable {q : PendingQueue σ} {await : Proc σ ProfileStatus Unit}
  {output : ProfileMutableBuffer} {s s1 : σ}

section Await

variable {size : σ → Nat} {body : Proc σ ProfileStatus Unit}
  {hsize : ∀ s s', body s = (.done (), s') → size s' < size s}

/-- A pending APDU ends the loop before it begins. -/
theorem await_of_pending (h : q.apdus s ≠ []) : q.await size body hsize s = (.done (), s) :=
  if_neg h

theorem await_of_empty (h : q.apdus s = []) : q.await size body hsize s =
    Proc.repeatUntil size (q.turn body) (fun s s' h => hsize s s' (turn_done_iff.mp h).1) s :=
  if_pos h

/-- A turn that fills the queue ends the loop. -/
theorem await_of_filled (h : q.apdus s = []) (hb : body s = (.done (), s1))
    (hne : q.apdus s1 ≠ []) : q.await size body hsize s = (.done (), s1) := by
  have hturn : q.turn body s = (.done true, s1) :=
    turn_done_iff.mpr ⟨hb, by rw [List.isEmpty_eq_false_iff.mpr hne, Bool.not_false]⟩
  rw [await_of_empty h, Proc.repeatUntil_of_true hturn]

/-- A turn that fills nothing is followed by another. -/
theorem await_of_unfilled (h : q.apdus s = []) (hb : body s = (.done (), s1))
    (hnil : q.apdus s1 = []) : q.await size body hsize s = q.await size body hsize s1 := by
  have hturn : q.turn body s = (.done false, s1) :=
    turn_done_iff.mpr ⟨hb, by rw [hnil, List.isEmpty_nil, Bool.not_true]⟩
  rw [await_of_empty h, await_of_empty hnil, Proc.repeatUntil_of_false hturn]

/-- An error in a turn is the error of the loop. -/
theorem await_of_fail {status : ProfileStatus} (h : q.apdus s = [])
    (hb : body s = (.fail status, s1)) : q.await size body hsize s = (.fail status, s1) := by
  have hturn : q.turn body s = (.fail status, s1) := Proc.bind_of_fail _ hb
  rw [await_of_empty h, Proc.repeatUntil_of_fail hturn]

/-- A turn that does not come back is the whole loop. -/
theorem await_of_waiting (h : q.apdus s = []) (hb : body s = (.waiting, s1)) :
    q.await size body hsize s = (.waiting, s1) := by
  have hturn : q.turn body s = (.waiting, s1) := Proc.bind_of_waiting _ hb
  rw [await_of_empty h, Proc.repeatUntil_of_waiting hturn]

/-- Two states with nothing pending from which a turn is the same. -/
theorem await_congr {t : σ} (hs : q.apdus s = []) (ht : q.apdus t = []) (h : body s = body t) :
    q.await size body hsize s = q.await size body hsize t := by
  rw [await_of_empty hs, await_of_empty ht]
  exact Proc.repeatUntil_congr (Proc.bind_congr _ h)

/-- The loop ends with an APDU pending. -/
theorem await_pending (h : q.await size body hsize s = (.done (), s1)) : q.apdus s1 ≠ [] := by
  rw [await] at h
  split at h
  · rcases Proc.repeatUntil_done h with ⟨s0, hs0⟩
    simpa only [Bool.not_eq_true', List.isEmpty_eq_false_iff] using (turn_done_iff.mp hs0).2
  · next hp =>
      rw [← (Prod.mk.inj h).2]
      exact hp

end Await

theorem receiveVector_of_done (h : await s = (.done (), s1)) :
    q.receiveVector await s = (.done ((q.apdus s1).headD []), q.pop s1) :=
  Proc.bind_of_done _ h

theorem receiveVector_of_fail {status : ProfileStatus} (h : await s = (.fail status, s1)) :
    q.receiveVector await s = (.fail status, s1) :=
  Proc.bind_of_fail _ h

theorem receiveVector_of_waiting (h : await s = (.waiting, s1)) :
    q.receiveVector await s = (.waiting, s1) :=
  Proc.bind_of_waiting _ h

theorem receiveVector_congr {t : σ} (h : await s = await t) :
    q.receiveVector await s = q.receiveVector await t := Proc.bind_congr _ h

theorem receiveBuffer_of_done (hv : isValidMutableBuffer output = true)
    (h : await s = (.done (), s1)) :
    q.receiveBuffer await output s = q.copyFirst (output.setWritten 0) true s1 := by
  rw [receiveBuffer, hv, if_neg Bool.true_eq_false.mp, h]

theorem receiveBuffer_of_fail {status : ProfileStatus} (hv : isValidMutableBuffer output = true)
    (h : await s = (.fail status, s1)) :
    q.receiveBuffer await output s = ((.fail status, output.setWritten 0), s1) := by
  rw [receiveBuffer, hv, if_neg Bool.true_eq_false.mp, h]

theorem receiveBuffer_of_waiting (hv : isValidMutableBuffer output = true)
    (h : await s = (.waiting, s1)) :
    q.receiveBuffer await output s = ((.waiting, output.setWritten 0), s1) := by
  rw [receiveBuffer, hv, if_neg Bool.true_eq_false.mp, h]

theorem copyFirst_tooSmall {consume : Bool}
    (h : output.size < ((q.apdus s).headD []).length) :
    q.copyFirst output consume s = ((.fail .outputBufferTooSmall, output), s) := if_pos h

theorem copyFirst_fits {consume : Bool} (h : ((q.apdus s).headD []).length ≤ output.size) :
    q.copyFirst output consume s =
      ((.done (), (output.copy ((q.apdus s).headD [])).setWritten ((q.apdus s).headD []).length),
        if consume then q.pop s else s) := if_neg (Nat.not_lt.mpr h)

/-- Everything the buffer overload can come to. -/
theorem receiveBuffer_cases (await : Proc σ ProfileStatus Unit) (output : ProfileMutableBuffer)
    (s : σ) :
    -- The buffer is refused.
    (isValidMutableBuffer output = false ∧
      q.receiveBuffer await output s = ((.fail .invalidArgument, output), s)) ∨
    -- The loop ended, and the front APDU fits.
    (isValidMutableBuffer output = true ∧ ∃ s1, await s = (.done (), s1) ∧
      ((q.apdus s1).headD []).length ≤ output.size ∧
      q.receiveBuffer await output s =
        ((.done (), ((output.setWritten 0).copy ((q.apdus s1).headD [])).setWritten
          ((q.apdus s1).headD []).length), q.pop s1)) ∨
    -- It does not fit, and stays.
    (∃ s1, await s = (.done (), s1) ∧ output.size < ((q.apdus s1).headD []).length ∧
      q.receiveBuffer await output s =
        ((.fail .outputBufferTooSmall, output.setWritten 0), s1)) ∨
    -- The loop failed, or waits.
    (∃ status s1, await s = (.fail status, s1) ∧
      q.receiveBuffer await output s = ((.fail status, output.setWritten 0), s1)) ∨
    ∃ s1, await s = (.waiting, s1) ∧
      q.receiveBuffer await output s = ((.waiting, output.setWritten 0), s1) := by
  cases hv : isValidMutableBuffer output with
  | false => exact Or.inl ⟨rfl, if_pos hv⟩
  | true =>
      refine Or.inr ?_
      rcases hw : await s with ⟨_ | status | _, s1⟩
      · rw [receiveBuffer_of_done hv hw]
        by_cases hroom : ((q.apdus s1).headD []).length ≤ output.size
        · exact Or.inl ⟨rfl, s1, rfl, hroom, copyFirst_fits hroom⟩
        · have hsmall := Nat.lt_of_not_le hroom
          exact Or.inr (Or.inl ⟨s1, rfl, hsmall, copyFirst_tooSmall hsmall⟩)
      · exact Or.inr (Or.inr (Or.inl ⟨status, s1, rfl, receiveBuffer_of_fail hv hw⟩))
      · exact Or.inr (Or.inr (Or.inr ⟨s1, rfl, receiveBuffer_of_waiting hv hw⟩))

theorem receiveBuffer_waiting {output' : ProfileMutableBuffer} {s' : σ}
    (h : q.receiveBuffer await output s = ((.waiting, output'), s')) :
    await s = (.waiting, s') := by
  rcases receiveBuffer_cases (q := q) await output s with
    ⟨-, hr⟩ | ⟨-, s1, -, -, hr⟩ | ⟨s1, -, -, hr⟩ | ⟨status, s1, -, hr⟩ | ⟨s1, hw, hr⟩ <;>
    rw [hr] at h <;> cases h
  exact hw

/-- What a call of either overload can come to: a refused buffer changes nothing,
    a call that hands nothing over leaves what the loop left, and one that does
    takes the front of it. -/
theorem call_cases {reads : σ → List ReadEvent} (r : ReceiveCall) (s : σ) :
    (((q.channel await reads).call r s).1.delivered = none ∧
        (((q.channel await reads).call r s).2 = s ∨
          ((q.channel await reads).call r s).2 = (await s).2)) ∨
      ∃ s1, await s = (.done (), s1) ∧
        ((q.channel await reads).call r s).1.delivered = some ((q.apdus s1).headD []) ∧
        ((q.channel await reads).call r s).2 = q.pop s1 := by
  cases r with
  | vector =>
      simp only [ApduChannel.call, channel]
      rcases hw : await s with ⟨⟨⟩ | status | _, s1⟩
      · rw [receiveVector_of_done hw]
        exact Or.inr ⟨s1, rfl, rfl, rfl⟩
      · rw [receiveVector_of_fail hw]
        exact Or.inl ⟨rfl, Or.inr rfl⟩
      · rw [receiveVector_of_waiting hw]
        exact Or.inl ⟨rfl, Or.inr rfl⟩
  | into output =>
      simp only [ApduChannel.call, channel]
      rcases receiveBuffer_cases (q := q) await output s with
        ⟨-, hr⟩ | ⟨hv, s1, hw, hroom, hr⟩ | ⟨s1, hw, -, hr⟩ | ⟨status, s1, hw, hr⟩ |
          ⟨s1, hw, hr⟩ <;> rw [hr]
      · exact Or.inl ⟨rfl, Or.inl rfl⟩
      · refine Or.inr ⟨s1, hw, ?_, rfl⟩
        exact congrArg some (ProfileMutableBuffer.received_copy _ _
          (isValidMutableBuffer_setWritten hv) hroom)
      -- Whatever else comes of it, the loop was all that ran.
      all_goals
        rw [hw]
        exact Or.inl ⟨rfl, Or.inr rfl⟩

/-- A call whose buffer was not refused leaves what the loop left, with or without
    its front. -/
theorem call_snd {reads : σ → List ReadEvent} {r : ReceiveCall}
    (hv : ∀ output, r = .into output → isValidMutableBuffer output = true) (s : σ) :
    ((q.channel await reads).call r s).2 = (await s).2 ∨
      ((q.channel await reads).call r s).2 = q.pop (await s).2 := by
  -- Of the ways a call can end, one takes the front off the queue.
  cases r with
  | vector =>
      simp only [ApduChannel.call, channel]
      rcases hw : await s with ⟨⟨⟩ | status | _, s1⟩
      · exact Or.inr (congrArg Prod.snd (receiveVector_of_done hw))
      · exact Or.inl (congrArg Prod.snd (receiveVector_of_fail hw))
      · exact Or.inl (congrArg Prod.snd (receiveVector_of_waiting hw))
  | into output =>
      simp only [ApduChannel.call, channel]
      rcases receiveBuffer_cases (q := q) await output s with
        ⟨hnot, -⟩ | ⟨-, s1, hw, -, hr⟩ | ⟨s1, hw, -, hr⟩ | ⟨status, s1, hw, hr⟩ | ⟨s1, hw, hr⟩
      · exact absurd (hv output rfl) (Bool.not_eq_true _ ▸ hnot)
      · rw [hr, hw]
        exact Or.inr rfl
      all_goals
        rw [hr, hw]
        exact Or.inl rfl

/-- A refused buffer changes nothing. -/
theorem call_of_invalid {reads : σ → List ReadEvent} {output : ProfileMutableBuffer}
    (hv : isValidMutableBuffer output = false) (s : σ) :
    (q.channel await reads).call (.into output) s = (.into (.fail .invalidArgument) output, s) := by
  simp only [ApduChannel.call, channel]
  rw [receiveBuffer, if_pos hv]

/-- What is pending when the loop ends is what the call hands over, given room. -/
theorem call_of_done {reads : σ → List ReadEvent} (hw : await s = (.done (), s1))
    (r : ReceiveCall) (hroom : ∀ room, r = .into room →
      isValidMutableBuffer room = true ∧ ((q.apdus s1).headD []).length ≤ room.size) :
    ((q.channel await reads).call r s).1.delivered = some ((q.apdus s1).headD []) := by
  cases r with
  | vector => simp only [ApduChannel.call, channel, receiveVector_of_done hw, Answer.delivered]
  | into room =>
      rcases hroom room rfl with ⟨hv, hle⟩
      have hle' : ((q.apdus s1).headD []).length ≤ (room.setWritten 0).size := hle
      simp only [ApduChannel.call, channel, receiveBuffer_of_done hv hw, copyFirst_fits hle']
      exact congrArg some
        (ProfileMutableBuffer.received_copy _ _ (isValidMutableBuffer_setWritten hv) hle')

/-- The status the loop ends with is what the call reports. -/
theorem call_of_fail {reads : σ → List ReadEvent} {status : ProfileStatus}
    (hw : await s = (.fail status, s1)) {r : ReceiveCall}
    (hv : ∀ output, r = .into output → isValidMutableBuffer output = true) :
    ((q.channel await reads).call r s).1.error = some status := by
  cases r with
  | vector =>
      simp only [ApduChannel.call, channel, receiveVector_of_fail hw, Answer.error, Outcome.error]
  | into output =>
      simp only [ApduChannel.call, channel, receiveBuffer_of_fail (hv output rfl) hw,
        Answer.error, Outcome.error]

/-- A pending APDU is what the next call hands over, given room. -/
theorem call_of_pending {reads : σ → List ReadEvent} (hw : await s = (.done (), s))
    (r : ReceiveCall) (hroom : ∀ room, r = .into room →
      isValidMutableBuffer room = true ∧ ((q.apdus s).headD []).length ≤ room.size) :
    ((q.channel await reads).call r s).1.delivered = some ((q.apdus s).headD []) :=
  call_of_done hw r hroom

section Keeps

variable {size : σ → Nat} {body : Proc σ ProfileStatus Unit}
  {hsize : ∀ s s', body s = (.done (), s') → size s' < size s} {reads : σ → List ReadEvent}

/-- One call with a buffer too small for the APDU the loop ends with. -/
theorem receiveBuffer_tooSmall (hv : isValidMutableBuffer output = true)
    (hw : await s = (.done (), s1)) (hsmall : output.size < ((q.apdus s1).headD []).length) :
    q.receiveBuffer await output s = ((.fail .outputBufferTooSmall, output.setWritten 0), s1) := by
  rw [receiveBuffer_of_done hv hw]
  exact copyFirst_tooSmall hsmall

/-- One call with a buffer that has room for it. -/
theorem receiveBuffer_fits (hv : isValidMutableBuffer output = true)
    (hw : await s = (.done (), s1)) (hroom : ((q.apdus s1).headD []).length ≤ output.size) :
    ∃ output', q.receiveBuffer await output s = ((.done (), output'), q.pop s1) ∧
      output'.received = (q.apdus s1).headD [] := by
  have hroom' : ((q.apdus s1).headD []).length ≤ (output.setWritten 0).size := hroom
  refine ⟨_, ?_, ProfileMutableBuffer.received_copy _ _ (isValidMutableBuffer_setWritten hv) hroom'⟩
  rw [receiveBuffer_of_done hv hw, copyFirst_fits hroom', if_pos rfl]

/-- Calls with buffers too small, made while the APDU is pending, leave the
    channel as it is. -/
theorem calls_tooSmall {outputs : List ProfileMutableBuffer} (hp : q.apdus s ≠ [])
    (hsmall : ∀ output ∈ outputs, isValidMutableBuffer output = true ∧
      output.size < ((q.apdus s).headD []).length) :
    (q.channel (q.await size body hsize) reads).calls (outputs.map .into) s =
      (outputs.map fun output => .into (.fail .outputBufferTooSmall) (output.setWritten 0), s) := by
  -- On the buffers. Each leaves the APDU where the next will find it.
  induction outputs with
  | nil => rfl
  | cons output outputs ih =>
      rcases hsmall output List.mem_cons_self with ⟨hv, hlt⟩
      have hone : (q.channel (q.await size body hsize) reads).call (.into output) s =
          (.into (.fail .outputBufferTooSmall) (output.setWritten 0), s) := by
        simp only [ApduChannel.call, channel, receiveBuffer_tooSmall hv (await_of_pending hp) hlt]
      rw [List.map_cons, ApduChannel.calls_cons hone rfl,
        ih fun o ho => hsmall o (List.mem_cons_of_mem _ ho)]
      rfl

/-- A pending queue keeps what does not fit. -/
theorem keeps {outputs : List ProfileMutableBuffer} {apdu : List UInt8} {s' : σ}
    (hreads : ∀ s, reads (q.pop s) = reads s)
    (hapdu : q.receiveVector (q.await size body hsize) s = (.done apdu, s'))
    (hne : outputs ≠ []) (hsmall : ∀ output ∈ outputs, isValidMutableBuffer output = true ∧
      output.size < apdu.length) :
    (q.channel (q.await size body hsize) reads).Keeps apdu outputs s := by
  rcases Proc.bind_done_iff.mp hapdu with ⟨_, s1, hw, hk⟩
  have hhead : (q.apdus s1).headD [] = apdu := Outcome.done.inj (Prod.mk.inj hk).1
  have hp : q.apdus s1 ≠ [] := await_pending hw
  rw [← hhead] at hsmall
  have hall : (q.channel (q.await size body hsize) reads).calls (outputs.map .into) s =
      (outputs.map fun output => .into (.fail .outputBufferTooSmall) (output.setWritten 0),
        s1) := by
    rcases outputs with _ | ⟨output, outputs⟩
    · exact absurd rfl hne
    · -- The first of them may have to wait for the APDU, the others find it pending.
      rcases hsmall output List.mem_cons_self with ⟨hv, hlt⟩
      have hone : (q.channel (q.await size body hsize) reads).call (.into output) s =
          (.into (.fail .outputBufferTooSmall) (output.setWritten 0), s1) := by
        simp only [ApduChannel.call, channel, receiveBuffer_tooSmall hv hw hlt]
      rw [List.map_cons, ApduChannel.calls_cons hone rfl,
        calls_tooSmall hp fun o ho => hsmall o (List.mem_cons_of_mem _ ho)]
      rfl
  have hagain : q.await size body hsize s1 = (.done (), s1) := await_of_pending hp
  refine ⟨by rw [hall], fun r hroom => ?_⟩
  rw [hall]
  cases r with
  | vector =>
      simp only [ApduChannel.call, channel, receiveVector_of_done hagain,
        Answer.delivered, hhead, hreads, and_self]
  | into room =>
      rcases hroom room rfl with ⟨hv, hle⟩
      rw [← hhead] at hle
      rcases receiveBuffer_fits hv hagain hle with ⟨output', hcall, hback⟩
      simp only [ApduChannel.call, channel, hcall, Answer.delivered, hback, hhead, hreads, and_self]

end Keeps

section Within

variable {R : σ → σ → Prop}

theorem within_await {size : σ → Nat} {body : Proc σ ProfileStatus Unit}
    {hsize : ∀ s s', body s = (.done (), s') → size s' < size s} (hrefl : ∀ s, R s s)
    (htrans : ∀ a b c, R a b → R b c → R a c) (hbody : Proc.Within R body) :
    Proc.Within R (q.await size body hsize) := by
  intro s
  by_cases hq : q.apdus s = []
  · rw [await, if_pos hq]
    exact Proc.within_repeatUntil htrans
      (Proc.within_bind htrans hbody fun _ => Proc.within_gets hrefl _) s
  · rw [await_of_pending hq]
    exact hrefl s

theorem within_receiveVector (htrans : ∀ a b c, R a b → R b c → R a c)
    (hawait : Proc.Within R await) (hpop : ∀ s, R s (q.pop s)) :
    Proc.Within R (q.receiveVector await) :=
  Proc.within_bind htrans hawait fun _ => hpop

theorem within_receiveBuffer (hrefl : ∀ s, R s s) (htrans : ∀ a b c, R a b → R b c → R a c)
    (hawait : Proc.Within R await) (hpop : ∀ s, R s (q.pop s)) (output : ProfileMutableBuffer)
    (s : σ) : R s (q.receiveBuffer await output s).2 := by
  have hs := hawait s
  rcases receiveBuffer_cases (q := q) await output s with
    ⟨-, hr⟩ | ⟨-, s1, hw, -, hr⟩ | ⟨s1, hw, -, hr⟩ | ⟨status, s1, hw, hr⟩ | ⟨s1, hw, hr⟩ <;>
    rw [hr]
  · exact hrefl s
  all_goals rw [hw] at hs
  · exact htrans _ _ _ hs (hpop s1)
  all_goals exact hs

/-- Either overload, whatever it answers. -/
theorem within_call {reads : σ → List ReadEvent} (hrefl : ∀ s, R s s)
    (htrans : ∀ a b c, R a b → R b c → R a c) (hawait : Proc.Within R await)
    (hpop : ∀ s, R s (q.pop s)) (r : ReceiveCall) (s : σ) :
    R s ((q.channel await reads).call r s).2 := by
  cases r with
  | vector => exact within_receiveVector htrans hawait hpop s
  | into output => exact within_receiveBuffer hrefl htrans hawait hpop output s

section Logs

variable {τ : Type} {I : σ → Prop} {log : σ → List τ} {P : List τ → Option ProfileStatus → Prop}

theorem logsFrom_await {size : σ → Nat} {body : Proc σ ProfileStatus Unit}
    {hsize : ∀ s s', body s = (.done (), s') → size s' < size s} (hP : Proc.Joins P)
    (hbody : Proc.LogsFrom I log P body) : Proc.LogsFrom I log P (q.await size body hsize) := by
  intro s hs
  by_cases hq : q.apdus s = []
  · rw [await, if_pos hq]
    have hturn : Proc.LogsFrom I log P (q.turn body) :=
      Proc.logsFrom_bind hP hbody fun _ =>
        Proc.logsFrom_of_same hP (Proc.preserves_gets _) fun _ => rfl
    exact Proc.logsFrom_repeatUntil hP hturn s hs
  · rw [await_of_pending hq]
    exact ⟨hs, [], (List.append_nil _).symm, hP.nil _⟩

/-- What either overload appends to a log is what the loop appends. -/
theorem logsFrom_call {reads : σ → List ReadEvent} (hP : Proc.Joins P)
    (hawait : Proc.LogsFrom I log P await) (hkept : ∀ s, I s → I (q.pop s))
    (hpop : ∀ s, log (q.pop s) = log s) (r : ReceiveCall) (s : σ) (hs : I s) :
    I ((q.channel await reads).call r s).2 ∧
      ∃ entries, log ((q.channel await reads).call r s).2 = log s ++ entries ∧
        P entries ((q.channel await reads).call r s).1.error := by
  cases r with
  | vector =>
      exact Proc.logsFrom_bind hP hawait (fun _ s1 h1 =>
        ⟨hkept s1 h1, [], (hpop s1).trans (List.append_nil _).symm, hP.nil _⟩) s hs
  | into output =>
      rcases hawait s hs with ⟨hI, entries, hlog, hentries⟩
      rcases receiveBuffer_cases (q := q) await output s with
        ⟨-, hr⟩ | ⟨-, s1, hw, -, hr⟩ | ⟨s1, hw, -, hr⟩ | ⟨status, s1, hw, hr⟩ | ⟨s1, hw, hr⟩ <;>
        simp only [ApduChannel.call, hr]
      · exact ⟨hs, [], (List.append_nil _).symm, hP.nil _⟩
      all_goals rw [hw] at hI hlog hentries
      · exact ⟨hkept s1 hI, entries, by rw [hpop, hlog], hentries⟩
      · -- The error is no error of the loop.
        exact ⟨hI, entries ++ [], by rw [List.append_nil, hlog], hP.append hentries (hP.nil _)⟩
      all_goals exact ⟨hI, entries, hlog, hentries⟩

end Logs

theorem preserves_await {P : σ → Prop} {size : σ → Nat} {body : Proc σ ProfileStatus Unit}
    {hsize : ∀ s s', body s = (.done (), s') → size s' < size s} (hbody : Proc.Preserves P body) :
    Proc.Preserves P (q.await size body hsize) :=
  within_await (fun _ h => h) (fun _ _ _ h h' hs => h' (h hs)) hbody

theorem preserves_call {P : σ → Prop} {reads : σ → List ReadEvent}
    (hawait : Proc.Preserves P await) (hpop : ∀ s, P s → P (q.pop s)) (r : ReceiveCall) (s : σ)
    (hs : P s) : P ((q.channel await reads).call r s).2 :=
  within_call (R := fun s s' => P s → P s') (fun _ h => h) (fun _ _ _ h h' hs => h' (h hs))
    hawait hpop r s hs

end Within

section Agree

variable {R : σ → σ → Prop}

theorem agree_turn {body : Proc σ ProfileStatus Unit} (hq : ∀ s t, R s t → q.apdus s = q.apdus t)
    (hbody : Proc.Agree R body body) : Proc.Agree R (q.turn body) (q.turn body) := by
  refine Proc.agree_bind hbody fun _ s t hst => ⟨?_, hst⟩
  simp only [Proc.gets_apply, hq s t hst]

/-- Related states have the same APDUs pending, so the loop runs the same turns. -/
theorem agree_await {size : σ → Nat} {body : Proc σ ProfileStatus Unit}
    {hsize : ∀ s s', body s = (.done (), s') → size s' < size s}
    (hq : ∀ s t, R s t → q.apdus s = q.apdus t) (hbody : Proc.Agree R body body) :
    Proc.Agree R (q.await size body hsize) (q.await size body hsize) := by
  intro s t hst
  by_cases hs : q.apdus s = []
  · rw [await_of_empty hs, await_of_empty (hq s t hst ▸ hs)]
    exact Proc.agree_repeatUntil (agree_turn hq hbody) s t hst
  · rw [await_of_pending hs, await_of_pending (hq s t hst ▸ hs)]
    exact ⟨rfl, hst⟩

theorem agree_copyFirst (output : ProfileMutableBuffer) (consume : Bool) {s t : σ}
    (hq : q.apdus s = q.apdus t) (hpop : R (q.pop s) (q.pop t)) (hst : R s t) :
    (q.copyFirst output consume s).1 = (q.copyFirst output consume t).1 ∧
      R (q.copyFirst output consume s).2 (q.copyFirst output consume t).2 := by
  unfold copyFirst
  simp only [hq]
  split
  · exact ⟨rfl, hst⟩
  · cases consume with
    | true => exact ⟨rfl, hpop⟩
    | false => exact ⟨rfl, hst⟩

/-- Either overload answers the same from related states. -/
theorem agree_call {reads : σ → List ReadEvent} (hq : ∀ s t, R s t → q.apdus s = q.apdus t)
    (hpop : ∀ s t, R s t → R (q.pop s) (q.pop t)) (hawait : Proc.Agree R await await)
    (r : ReceiveCall) (s t : σ) (hst : R s t) :
    ((q.channel await reads).call r s).1 = ((q.channel await reads).call r t).1 ∧
      R ((q.channel await reads).call r s).2 ((q.channel await reads).call r t).2 := by
  -- Both overloads wait and then look at the front, which is the same on both sides.
  cases r with
  | vector =>
      have hvector : Proc.Agree R (q.receiveVector await) (q.receiveVector await) := by
        refine Proc.agree_bind hawait fun _ s t hst => ?_
        rw [hq s t hst]
        exact ⟨rfl, hpop s t hst⟩
      rcases hvector s t hst with ⟨hout, hrel⟩
      exact ⟨congrArg Answer.vector hout, hrel⟩
  | into output =>
      simp only [ApduChannel.call, channel]
      unfold receiveBuffer
      split
      · exact ⟨rfl, hst⟩
      · rcases hawait s t hst with ⟨hout, hrel⟩
        rcases hs : await s with ⟨o, s1⟩
        rcases ht : await t with ⟨p, t1⟩
        rw [hs, ht] at hout hrel
        simp only at hout hrel
        subst hout
        cases o with
        | done =>
            have hcopy := agree_copyFirst (output.setWritten 0) true (hq s1 t1 hrel)
              (hpop s1 t1 hrel) hrel
            exact ⟨by rw [hcopy.1], hcopy.2⟩
        | fail status => exact ⟨rfl, hrel⟩
        | waiting => exact ⟨rfl, hrel⟩

end Agree

end PendingQueue

/-- One turn of a receive loop: it moves APDUs towards the pending queue and
    changes nothing else about the channel's queue of APDUs. -/
structure TakesIn {σ : Type} (q : PendingQueue σ) (body : Proc σ ProfileStatus Unit)
    (reads : σ → List ReadEvent) (inv : σ → Prop) (ahead : σ → List (List UInt8)) : Prop where
  done : ∀ {s s'}, inv s → body s = (.done (), s') →
    ahead s' = ahead s ∧ (reads s').length ≤ (reads s).length ∧ inv s'
  fail : ∀ {s s' status}, inv s → body s = (.fail status, s') →
    ahead s' = ahead s ∧ (reads s').length < (reads s).length ∧ inv s'
  waiting : ∀ {s s'}, inv s → q.apdus s = [] → body s = (.waiting, s') →
    ahead s = [] ∧ ahead s' = [] ∧ inv s'
  pop : ∀ {s}, inv s → q.apdus s ≠ [] →
    ahead s = (q.apdus s).headD [] :: ahead (q.pop s) ∧ inv (q.pop s)

/-- A receive loop in front of a pending queue: it ends with an APDU pending,
    moves nothing else, and the front of its queue is the front of the channel's
    queue of APDUs. -/
structure Awaits {σ : Type} (q : PendingQueue σ) (await : Proc σ ProfileStatus Unit)
    (reads : σ → List ReadEvent) (inv : σ → Prop) (ahead : σ → List (List UInt8)) : Prop where
  done : ∀ {s s'}, inv s → await s = (.done (), s') →
    q.apdus s' ≠ [] ∧ ahead s' = ahead s ∧ inv s'
  fail : ∀ {s s' status}, inv s → await s = (.fail status, s') →
    ahead s' = ahead s ∧ (reads s').length < (reads s).length ∧ inv s'
  waiting : ∀ {s s'}, inv s → await s = (.waiting, s') →
    ahead s = [] ∧ ahead s' = [] ∧ inv s'
  pop : ∀ {s}, inv s → q.apdus s ≠ [] →
    ahead s = (q.apdus s).headD [] :: ahead (q.pop s) ∧ inv (q.pop s)

/-- It is enough to look at one turn of the loop. -/
theorem TakesIn.awaits {σ : Type} {q : PendingQueue σ} {body : Proc σ ProfileStatus Unit}
    {reads : σ → List ReadEvent} {inv : σ → Prop} {ahead : σ → List (List UInt8)}
    (h : TakesIn q body reads inv ahead) (size : σ → Nat)
    (hsize : ∀ s s', body s = (.done (), s') → size s' < size s) :
    Awaits q (q.await size body hsize) reads inv ahead := by
  -- What a run that begins with nothing pending owes its caller.
  have hloop : ∀ {s o s'}, inv s → q.apdus s = [] → q.await size body hsize s = (o, s') →
      ahead s' = ahead s ∧ inv s' ∧
        (∀ status, o = .fail status → (reads s').length < (reads s).length) ∧
        (o = .waiting → ahead s' = []) := by
    intro s o s' hs hq hr
    rw [PendingQueue.await, if_pos hq] at hr
    obtain ⟨rfl, rfl⟩ := Prod.ext_iff.mp hr
    refine Proc.repeatUntil_induct (fun s o s' => inv s → q.apdus s = [] →
        ahead s' = ahead s ∧ inv s' ∧
          (∀ status, o = .fail status → (reads s').length < (reads s).length) ∧
          (o = .waiting → ahead s' = [])) ?_ ?_ ?_ ?_ s hs hq
    · intro s s1 e hb hs _
      rcases h.fail hs (PendingQueue.turn_fail hb) with ⟨ha, hlt, hi⟩
      exact ⟨ha, hi, fun _ _ => hlt, nofun⟩
    · intro s s1 hb hs hq
      rcases h.waiting hs hq (PendingQueue.turn_waiting hb) with ⟨ha, ha', hi⟩
      exact ⟨ha'.trans ha.symm, hi, nofun, fun _ => ha'⟩
    · intro s s1 hb hs _
      rcases h.done hs (PendingQueue.turn_done_iff.mp hb).1 with ⟨ha, -, hi⟩
      exact ⟨ha, hi, nofun, nofun⟩
    · -- Nothing became pending, so the next turn starts like this one.
      intro s s1 o s2 hb ih hs _
      rcases PendingQueue.turn_done_iff.mp hb with ⟨hb, hready⟩
      rcases h.done hs hb with ⟨ha, hle, hi⟩
      have hq1 : q.apdus s1 = [] := by
        simpa only [Bool.not_eq_false', List.isEmpty_iff] using hready
      rcases ih hi hq1 with ⟨ha', hi', hfail, hwait⟩
      exact ⟨ha'.trans ha, hi', fun st hst => Nat.lt_of_lt_of_le (hfail st hst) hle, hwait⟩
  refine ⟨fun {s s'} hs hw => ?_, fun {s s' status} hs hw => ?_, fun {s s'} hs hw => ?_, h.pop⟩
  · refine ⟨PendingQueue.await_pending hw, ?_⟩
    by_cases hq : q.apdus s = []
    · rcases hloop hs hq hw with ⟨ha, hi, -, -⟩
      exact ⟨ha, hi⟩
    · rw [PendingQueue.await_of_pending hq] at hw
      cases hw
      exact ⟨rfl, hs⟩
  · by_cases hq : q.apdus s = []
    · rcases hloop hs hq hw with ⟨ha, hi, hfail, -⟩
      exact ⟨ha, hfail status rfl, hi⟩
    · rw [PendingQueue.await_of_pending hq] at hw
      cases hw
  · by_cases hq : q.apdus s = []
    · rcases hloop hs hq hw with ⟨ha, hi, -, hwait⟩
      exact ⟨ha.symm.trans (hwait rfl), hwait rfl, hi⟩
    · rw [PendingQueue.await_of_pending hq] at hw
      cases hw

namespace Awaits

variable {σ : Type} {q : PendingQueue σ} {await : Proc σ ProfileStatus Unit}
  {reads : σ → List ReadEvent} {inv : σ → Prop} {ahead : σ → List (List UInt8)}

/-- Handing over the front of the pending queue takes the front of the queue
    the channel had when it began to wait. -/
theorem front (h : Awaits q await reads inv ahead) {s s1 : σ} (hs : inv s)
    (hw : await s = (.done (), s1)) :
    ahead s = (q.apdus s1).headD [] :: ahead (q.pop s1) ∧ inv (q.pop s1) := by
  rcases h.done hs hw with ⟨hne, hq, hi⟩
  rcases h.pop hi hne with ⟨hp, hi'⟩
  exact ⟨hq ▸ hp, hi'⟩

/-- A channel whose two overloads are the common bodies over such a loop takes
    its results from the queue. -/
theorem delivers (h : Awaits q await reads inv ahead) :
    Delivers (q.channel await reads) inv ahead where
  done := by
    intro (s : σ) (s' : σ) apdu hs hr
    change q.receiveVector await s = _ at hr
    rcases Proc.bind_done_iff.mp hr with ⟨_, s1, hw, hk⟩
    obtain ⟨ha, rfl⟩ := Prod.mk.inj hk
    rw [← Outcome.done.inj ha]
    exact h.front hs hw
  fail := by
    intro (s : σ) (s' : σ) status hs hr
    rcases Proc.bind_fail_iff.mp hr with hw | ⟨_, _, -, hk⟩
    · exact h.fail hs hw
    · cases hk
  waiting := by
    intro (s : σ) (s' : σ) hs hr
    rcases Proc.bind_waiting_iff.mp hr with hw | ⟨_, _, -, hk⟩
    · exact h.waiting hs hw
    · cases hk
  into_done := by
    intro (s : σ) (s' : σ) output output' hs hr
    change q.receiveBuffer await output s = _ at hr
    rcases PendingQueue.receiveBuffer_cases (q := q) await output s with
      ⟨-, hc⟩ | ⟨hv, s1, hw, hroom, hc⟩ | ⟨s1, -, -, hc⟩ | ⟨_, s1, -, hc⟩ | ⟨s1, -, hc⟩ <;>
      rw [hc] at hr <;> cases hr
    rw [ProfileMutableBuffer.received_copy _ _ (isValidMutableBuffer_setWritten hv) hroom]
    exact h.front hs hw
  into_fail := by
    intro (s : σ) (s' : σ) output output' status hs hr
    change q.receiveBuffer await output s = _ at hr
    rcases PendingQueue.receiveBuffer_cases (q := q) await output s with
      ⟨-, hc⟩ | ⟨-, s1, -, -, hc⟩ | ⟨s1, hw, -, hc⟩ | ⟨_, s1, hw, hc⟩ | ⟨s1, -, hc⟩ <;>
      rw [hc] at hr <;> cases hr
    · exact ⟨rfl, hs⟩
    · -- The APDU that does not fit is still pending.
      rcases h.done hs hw with ⟨-, hq, hi⟩
      exact ⟨hq, hi⟩
    · rcases h.fail hs hw with ⟨hq, -, hi⟩
      exact ⟨hq, hi⟩
  into_waiting := by
    intro (s : σ) (s' : σ) output output' hs hr
    exact h.waiting hs (PendingQueue.receiveBuffer_waiting hr)

end Awaits

end DlmsProfile
