import DlmsProfile.Core.Status
import DlmsProfile.Library.Proc

/-!
# The Transport Beneath a Channel

The byte stream, the datagram transport and the timer are interfaces the
caller implements. A channel learns about them only through what their calls
answer, so the transport is modelled by those answers: one script for each
kind of call, consumed from the front. Quantifying over scripts is quantifying
over transports.

Reads differ from the other calls in that they may not come back. A channel
that asks for a read its script does not hold is waiting, and that is the only
way in which a call is ever found waiting. A call of another kind that the
script does not cover succeeds, which restricts nothing since the script may
cover any number of them.

## Main definitions

* `ReadEvent`: What one `ReadSome` or `Receive` call answered.
* `TransportCall`: A call a channel made to its transport.
* `check`: Return early unless a status is `Ok`.

## Theorems

* `check_done_iff`: A check passes exactly on `Ok`.
-/

namespace DlmsProfile

/-- What one completed `ReadSome` or `Receive` call answered: its status, and
    what the memory from the start of the read buffer holds over the count it
    reported. A transport that reports more than the buffer is long is a value
    of this type like any other. -/
structure ReadEvent where
  status : TransportStatus
  bytes : List UInt8
deriving DecidableEq, Repr

/-- A call a channel made to its transport, with the answer it got. On a
    datagram transport `read` is `Receive` and `write` is `Send`. -/
inductive TransportCall where
  | open (status : TransportStatus)
  | close (status : TransportStatus)
  | isOpen (answer : Bool)
  | read (event : ReadEvent)
  | write (bytes : List UInt8) (status : TransportStatus)
deriving DecidableEq, Repr

/-- The bytes a script of reads hands over: those of its successful reads. -/
def readBytes : List ReadEvent → List UInt8
  | [] => []
  | e :: rest => if e.status = .ok then e.bytes ++ readBytes rest else readBytes rest

/-- The bytes a list of calls put on the transport, a call that failed having put none. -/
def writtenBytes (calls : List TransportCall) : List UInt8 :=
  calls.flatMap fun
    | .write bytes .ok => bytes
    | _ => []

theorem readBytes_append (a b : List ReadEvent) :
    readBytes (a ++ b) = readBytes a ++ readBytes b := by
  induction a with
  | nil => rfl
  | cons e a ih =>
      simp only [List.cons_append, readBytes, ih]
      split
      · rw [List.append_assoc]
      · rfl

theorem writtenBytes_append (a b : List TransportCall) :
    writtenBytes (a ++ b) = writtenBytes a ++ writtenBytes b := List.flatMap_append

/-- A write that failed put nothing on the transport. -/
theorem writtenBytes_of_failed {status : TransportStatus} (h : status ≠ .ok) (bytes : List UInt8) :
    writtenBytes [.write bytes status] = [] := by
  cases status <;> first | rfl | exact absurd rfl h

/-- `if (status != Ok) return status;` -/
def check {σ : Type} (status : ProfileStatus) : Proc σ ProfileStatus Unit :=
  if status = .ok then pure () else Proc.fail status

theorem check_ok {σ : Type} (s : σ) : check .ok s = (.done (), s) := rfl

theorem check_of_ne {σ : Type} {status : ProfileStatus} (h : status ≠ .ok) (s : σ) :
    check status s = (.fail status, s) := by
  rw [check, if_neg h]
  rfl

/-- A check looks at its status and at nothing else. -/
theorem check_snd {σ : Type} (status : ProfileStatus) (s : σ) : (check status s).2 = s := by
  rw [check]
  split <;> rfl

/-- Nor does its answer depend on the state. -/
theorem check_fst {σ : Type} (status : ProfileStatus) (s t : σ) :
    (check status s).1 = (check status t).1 := by
  rw [check]
  split <;> rfl

theorem check_done_iff {σ : Type} {status : ProfileStatus} {s s' : σ} :
    check status s = (.done (), s') ↔ status = .ok ∧ s' = s := by
  by_cases h : status = .ok
  · rw [h, check_ok, Prod.mk.injEq, and_iff_right rfl, and_iff_right rfl, eq_comm]
  · rw [check_of_ne h, Prod.mk.injEq]
    simp only [reduceCtorEq, false_and, h]

theorem check_fail {σ : Type} {status e : ProfileStatus} {s s' : σ}
    (h : check status s = (.fail e, s')) : e = status := by
  by_cases hok : status = .ok
  · rw [hok, check_ok] at h
    cases h
  · rw [check_of_ne hok] at h
    exact (Outcome.fail.inj (Prod.mk.inj h).1).symm

theorem check_ne_waiting {σ : Type} {status : ProfileStatus} {s s' : σ} :
    check status s ≠ (.waiting, s') := by
  by_cases hok : status = .ok
  · rw [hok, check_ok]
    exact fun h => by cases h
  · rw [check_of_ne hok]
    exact fun h => by cases h

end DlmsProfile
