import DlmsProfile.Core.Options
import DlmsProfile.Core.Transport

/-!
# The Channel Interface and what it is for

`IApduChannel` is one interface with three implementations. `ApduChannel` is
the receiving half of it with the state left open, so that a property of the
interface can be stated once and asked of each implementation.

What the receiving half is for can be said without frames, reads or buffers:
there is a queue of APDUs that have arrived or will arrive, a call that
returns `Ok` takes the front one, and no other call changes the queue.
`Delivers` ties a channel to such a queue. The three queues a channel really
has, of bytes in the decoder, of decoded frames and of decoded APDUs, appear
only in the proof that a particular channel delivers.

## Main definitions

* `ApduChannel`: The receiving half of `IApduChannel`.
* `ReceiveCall`: A call of one overload or the other.
* `Answer`: What a receive call gave back.
* `ApduChannel.calls`: Receive calls in order, up to one that does not return.
* `ApduChannel.Keeps`: An APDU that does not fit is not lost.
* `Delivers`: The channel takes its results from a queue.

## Theorems

* `Delivers.delivered_append`: Delivered and still to come make up the queue.
* `Delivers.all_delivered`: Enough calls empty the queue.
* `Delivers.delivered_then`: The same after any calls whatever.
-/

namespace DlmsProfile

/-- The receiving half of `IApduChannel`: both overloads of `ReceiveApdu`, and
    the transport answers a state has not consumed yet. -/
structure ApduChannel where
  State : Type
  receiveApdu : Proc State ProfileStatus (List UInt8)
  receiveApduInto : ProfileMutableBuffer → State →
    (Outcome ProfileStatus Unit × ProfileMutableBuffer) × State
  reads : State → List ReadEvent

/-- A call of one of the two overloads. -/
inductive ReceiveCall where
  | vector
  | into (output : ProfileMutableBuffer)
deriving DecidableEq, Repr

/-- What a receive call gave back. -/
inductive Answer where
  | vector (outcome : Outcome ProfileStatus (List UInt8))
  | into (outcome : Outcome ProfileStatus Unit) (output : ProfileMutableBuffer)
deriving DecidableEq, Repr

namespace Answer

/-- The APDU an `Ok` answer handed over. -/
def delivered : Answer → Option (List UInt8)
  | .vector (.done apdu) => some apdu
  | .into (.done ()) output => some output.received
  | _ => none

/-- The status of an answer that is not `Ok`. -/
def error : Answer → Option ProfileStatus
  | .vector outcome => outcome.error
  | .into outcome _ => outcome.error

/-- The call has not returned. -/
def isWaiting : Answer → Bool
  | .vector .waiting => true
  | .into .waiting _ => true
  | _ => false

end Answer

namespace ApduChannel

/-- One receive call. -/
def call (C : ApduChannel) : ReceiveCall → C.State → Answer × C.State
  | .vector, s => (.vector (C.receiveApdu s).1, (C.receiveApdu s).2)
  | .into output, s =>
    (.into (C.receiveApduInto output s).1.1 (C.receiveApduInto output s).1.2,
      (C.receiveApduInto output s).2)

/-- Receive calls in order. A call that does not return is the last. -/
def calls (C : ApduChannel) : List ReceiveCall → C.State → List Answer × C.State
  | [], s => ([], s)
  | r :: rs, s =>
    if (C.call r s).1.isWaiting then ([(C.call r s).1], (C.call r s).2)
    else
      ((C.call r s).1 :: (calls C rs (C.call r s).2).1, (calls C rs (C.call r s).2).2)

theorem calls_cons {C : ApduChannel} {r : ReceiveCall} {rs : List ReceiveCall} {s s1 : C.State}
    {a : Answer} (h : C.call r s = (a, s1)) (hw : a.isWaiting = false) :
    C.calls (r :: rs) s = (a :: (C.calls rs s1).1, (C.calls rs s1).2) := by
  rw [calls, h, hw, if_neg Bool.false_ne_true]

/-- The APDUs a list of receive calls handed over, in order. -/
def delivered (C : ApduChannel) (rs : List ReceiveCall) (s : C.State) : List (List UInt8) :=
  (C.calls rs s).1.filterMap Answer.delivered

/-- What becomes of an APDU that does not fit: each call with one of the given
    buffers reports it and touches the written size only, and afterwards either
    overload, given room, hands the APDU over without reading the transport. -/
def Keeps (C : ApduChannel) (apdu : List UInt8) (outputs : List ProfileMutableBuffer)
    (s : C.State) : Prop :=
  (C.calls (outputs.map .into) s).1 =
      outputs.map (fun output => .into (.fail .outputBufferTooSmall) (output.setWritten 0)) ∧
    ∀ r : ReceiveCall, (∀ room, r = .into room →
        isValidMutableBuffer room = true ∧ apdu.length ≤ room.size) →
      (C.call r (C.calls (outputs.map .into) s).2).1.delivered = some apdu ∧
        C.reads (C.call r (C.calls (outputs.map .into) s).2).2 =
          C.reads (C.calls (outputs.map .into) s).2

end ApduChannel

/-- The channel takes its results from a queue: from a state that satisfies
    the invariant an `Ok` takes the front of the queue and every other answer
    leaves the queue alone. A vector call that reports a status used up a
    transport answer, and one that waits has nothing left to hand over. -/
structure Delivers (C : ApduChannel) (inv : C.State → Prop)
    (ahead : C.State → List (List UInt8)) : Prop where
  done : ∀ {s s' apdu}, inv s → C.receiveApdu s = (.done apdu, s') →
    ahead s = apdu :: ahead s' ∧ inv s'
  fail : ∀ {s s' status}, inv s → C.receiveApdu s = (.fail status, s') →
    ahead s' = ahead s ∧ (C.reads s').length < (C.reads s).length ∧ inv s'
  waiting : ∀ {s s'}, inv s → C.receiveApdu s = (.waiting, s') →
    ahead s = [] ∧ ahead s' = [] ∧ inv s'
  into_done : ∀ {s s' output output'}, inv s →
    C.receiveApduInto output s = ((.done (), output'), s') →
    ahead s = output'.received :: ahead s' ∧ inv s'
  into_fail : ∀ {s s' output output' status}, inv s →
    C.receiveApduInto output s = ((.fail status, output'), s') → ahead s' = ahead s ∧ inv s'
  into_waiting : ∀ {s s' output output'}, inv s →
    C.receiveApduInto output s = ((.waiting, output'), s') →
    ahead s = [] ∧ ahead s' = [] ∧ inv s'

namespace Delivers

variable {C : ApduChannel} {inv : C.State → Prop} {ahead : C.State → List (List UInt8)}

/-- One call of either overload moves at most the front of the queue. -/
theorem call (h : Delivers C inv ahead) (r : ReceiveCall) {s : C.State} (hs : inv s) :
    ahead s = (C.call r s).1.delivered.toList ++ ahead (C.call r s).2 ∧ inv (C.call r s).2 := by
  -- By the overload and the way its call was found.
  cases r with
  | vector =>
      simp only [ApduChannel.call]
      rcases hr : C.receiveApdu s with ⟨apdu | status | _, s'⟩
      · exact h.done hs hr
      · rcases h.fail hs hr with ⟨hq, -, hi⟩
        exact ⟨hq.symm, hi⟩
      · rcases h.waiting hs hr with ⟨hq, hq', hi⟩
        exact ⟨hq.trans hq'.symm, hi⟩
  | into output =>
      simp only [ApduChannel.call]
      rcases hr : C.receiveApduInto output s with ⟨⟨⟨⟩ | status | _, output'⟩, s'⟩
      · exact h.into_done hs hr
      · rcases h.into_fail hs hr with ⟨hq, hi⟩
        exact ⟨hq.symm, hi⟩
      · rcases h.into_waiting hs hr with ⟨hq, hq', hi⟩
        exact ⟨hq.trans hq'.symm, hi⟩

/-- What every call keeps besides may be asked for besides. -/
theorem and (h : Delivers C inv ahead) {kept : C.State → Prop}
    (hcall : ∀ r s, kept s → kept (C.call r s).2) :
    Delivers C (fun s => inv s ∧ kept s) ahead := by
  have hvector : ∀ {s s' o}, C.receiveApdu s = (o, s') → kept s → kept s' := by
    intro s s' o hr hs
    have hkept := hcall .vector s hs
    rwa [ApduChannel.call, hr] at hkept
  have hinto : ∀ {s s' output o}, C.receiveApduInto output s = (o, s') → kept s → kept s' := by
    intro s s' output o hr hs
    have hkept := hcall (.into output) s hs
    rwa [ApduChannel.call, hr] at hkept
  -- Each of the six ways, with what is kept added to it.
  refine ⟨fun hs hr => ?_, fun hs hr => ?_, fun hs hr => ?_, fun hs hr => ?_, fun hs hr => ?_,
    fun hs hr => ?_⟩
  · exact ⟨(h.done hs.1 hr).1, (h.done hs.1 hr).2, hvector hr hs.2⟩
  · exact ⟨(h.fail hs.1 hr).1, (h.fail hs.1 hr).2.1, (h.fail hs.1 hr).2.2, hvector hr hs.2⟩
  · exact ⟨(h.waiting hs.1 hr).1, (h.waiting hs.1 hr).2.1, (h.waiting hs.1 hr).2.2,
      hvector hr hs.2⟩
  · exact ⟨(h.into_done hs.1 hr).1, (h.into_done hs.1 hr).2, hinto hr hs.2⟩
  · exact ⟨(h.into_fail hs.1 hr).1, (h.into_fail hs.1 hr).2, hinto hr hs.2⟩
  · exact ⟨(h.into_waiting hs.1 hr).1, (h.into_waiting hs.1 hr).2.1, (h.into_waiting hs.1 hr).2.2,
      hinto hr hs.2⟩

/-- What a run of calls handed over, followed by what is still queued, is the
    queue it started from. -/
theorem delivered_append (h : Delivers C inv ahead) (rs : List ReceiveCall) {s : C.State}
    (hs : inv s) :
    ahead s = C.delivered rs s ++ ahead (C.calls rs s).2 ∧ inv (C.calls rs s).2 := by
  -- On the calls. One that waits ends the run, so nothing is delivered behind it.
  induction rs generalizing s with
  | nil => exact ⟨rfl, hs⟩
  | cons r rs ih =>
      rcases h.call r hs with ⟨hq, hi⟩
      rw [ApduChannel.delivered, ApduChannel.calls]
      split
      · refine ⟨hq.trans ?_, hi⟩
        cases hd : (C.call r s).1.delivered <;>
          simp only [List.filterMap_cons, List.filterMap_nil, hd, Option.toList]
      · rcases ih hi with ⟨hq', hi'⟩
        refine ⟨?_, hi'⟩
        rw [hq, hq', ApduChannel.delivered]
        cases hd : (C.call r s).1.delivered <;>
          simp only [List.filterMap_cons, hd, Option.toList, List.nil_append, List.cons_append]

/-- A call that does not return found the queue empty and leaves it so. -/
theorem call_waiting (h : Delivers C inv ahead) (r : ReceiveCall) {s : C.State} (hs : inv s)
    (hw : (C.call r s).1.isWaiting = true) : ahead (C.call r s).2 = [] := by
  -- Of the ways to be found one is to wait, and then nothing is ahead.
  cases r with
  | vector =>
      simp only [ApduChannel.call] at hw ⊢
      rcases hr : C.receiveApdu s with ⟨apdu | status | _, s'⟩ <;> rw [hr] at hw
      · cases hw
      · cases hw
      · exact (h.waiting hs hr).2.1
  | into output =>
      simp only [ApduChannel.call] at hw ⊢
      rcases hr : C.receiveApduInto output s with ⟨⟨⟨⟩ | status | _, output'⟩, s'⟩ <;> rw [hr] at hw
      · cases hw
      · cases hw
      · exact (h.into_waiting hs hr).2.1

/-- From any state enough vector calls empty the queue: each takes its front,
    uses up a transport answer, or waits with nothing left to take. -/
theorem all_delivered (h : Delivers C inv ahead) {s : C.State} (hs : inv s) :
    ∃ n, C.delivered (List.replicate n .vector) s = ahead s := by
  induction hq : ahead s generalizing s with
  | nil => exact ⟨0, rfl⟩
  | cons a q ih =>
      -- Until the front is taken only transport answers are used up.
      induction hn : (C.reads s).length using Nat.strong_induction_on generalizing s with
      | _ n ihn =>
        rcases hr : C.receiveApdu s with ⟨apdu | status | _, s'⟩
        · rcases h.done hs hr with ⟨hd, hi⟩
          rw [hq, List.cons.injEq] at hd
          rcases ih hi hd.2.symm with ⟨m, hm⟩
          refine ⟨m + 1, ?_⟩
          rw [ApduChannel.delivered] at hm ⊢
          simp only [List.replicate_succ, ApduChannel.calls, ApduChannel.call, hr,
            Answer.isWaiting, Bool.false_eq_true, if_false, List.filterMap_cons, Answer.delivered,
            hm, hd.1]
        · rcases h.fail hs hr with ⟨hd, hlt, hi⟩
          rcases ihn _ (hn ▸ hlt) hi (hd.trans hq) rfl with ⟨m, hm⟩
          refine ⟨m + 1, ?_⟩
          rw [ApduChannel.delivered] at hm ⊢
          simp only [List.replicate_succ, ApduChannel.calls, ApduChannel.call, hr,
            Answer.isWaiting, Bool.false_eq_true, if_false, List.filterMap_cons, Answer.delivered,
            hm]
        · rw [(h.waiting hs hr).1] at hq
          cases hq

/-- Whatever calls were made first, enough vector calls after them deliver the
    rest of the queue, so that the whole of it was handed over exactly once. -/
theorem delivered_then (h : Delivers C inv ahead) (rs : List ReceiveCall) {s : C.State}
    (hs : inv s) : ∃ n, C.delivered (rs ++ List.replicate n .vector) s = ahead s := by
  -- On the calls before. If one of them waits there is nothing left to deliver.
  induction rs generalizing s with
  | nil => exact h.all_delivered hs
  | cons r rs ih =>
      rcases h.call r hs with ⟨hq, hi⟩
      cases hw : (C.call r s).1.isWaiting with
      | true =>
          refine ⟨0, ?_⟩
          rw [hq, h.call_waiting r hs hw, List.append_nil, ApduChannel.delivered, List.cons_append,
            ApduChannel.calls, if_pos hw]
          cases hd : (C.call r s).1.delivered <;>
            simp only [List.filterMap_cons, List.filterMap_nil, hd, Option.toList]
      | false =>
          rcases ih hi with ⟨n, hn⟩
          refine ⟨n, ?_⟩
          rw [hq, ← hn, ApduChannel.delivered, ApduChannel.delivered, List.cons_append,
            ApduChannel.calls, hw, if_neg Bool.false_ne_true]
          cases hd : (C.call r s).1.delivered <;>
            simp only [List.filterMap_cons, hd, Option.toList, List.nil_append, List.cons_append]

end Delivers

end DlmsProfile
