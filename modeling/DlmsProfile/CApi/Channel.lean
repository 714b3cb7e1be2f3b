import DlmsProfile.CApi.Types
import DlmsProfile.Exceptions

/-!
# Calls through the C Interface

Behind a handle is one of the three channels, and a call goes to whichever it is.
The link calls are those of one class only and are refused to the other two. What
no call lets through is an exception: all that is left of one is the status
`InternalError`. What may throw are the containers of the channels and their trace
sink. Transports, the callbacks behind them and the lower libraries do not.

A channel is given a caller's buffer, which it writes to before it knows whether it
has anything to write. So the buffer is part of what a receive call changes here,
also when the call is left by an exception.

## Main definitions

* `CApi.Impl`: The channel behind a handle.
* `CApi.Request`, `CApi.Reply`: A call, and what a C caller gets back.
* `CApi.Impl.calling`, `CApi.Impl.answering`: A call, and the call when nothing throws.
* `CApi.serve`: A call through the interface.

## Theorems

* `CApi.Impl.shadows_calling`: A call that may throw shadows the one that does not.
* `CApi.serve_of_clear`, `CApi.serve_of_fault`: What a caller gets back.
-/

namespace DlmsProfile

open Proc

namespace PendingQueue

variable {σ : Type}

/-- The body of `ReceiveApdu` into a caller's buffer, and the buffer with it. -/
def receivingInto (q : PendingQueue σ) (await : Throwing σ Unit) :
    Throwing (σ × ProfileMutableBuffer) Unit := fun s =>
  if isValidMutableBuffer s.state.2 = false then (.fail (.status .invalidArgument), s)
  else
    (do
      onPartFaulty (·, s.state.2.setWritten 0) s.state.1 await
      safely fun t => ((q.copyFirst t.2 true t.1).1.1,
        ((q.copyFirst t.2 true t.1).2, (q.copyFirst t.2 true t.1).1.2))) s

/-- The same when nothing throws. -/
def answeringInto (q : PendingQueue σ) (await : Proc σ ProfileStatus Unit) :
    Proc (σ × ProfileMutableBuffer) ProfileStatus Unit := fun t =>
  ((q.receiveBuffer await t.2 t.1).1.1,
    ((q.receiveBuffer await t.2 t.1).2, (q.receiveBuffer await t.2 t.1).1.2))

variable {q : PendingQueue σ} {await : Proc σ ProfileStatus Unit} {await' : Throwing σ Unit}

/-- With its buffer the body shadows what it shadows without. -/
theorem shadows_receivingInto (h : Shadows .internalError await await') :
    Shadows .internalError (q.answeringInto await) (q.receivingInto await') := by
  intro s
  -- A buffer that is not valid is refused, and is not written to.
  cases hv : isValidMutableBuffer s.2 with
  | false =>
      refine (shadows_fail .invalidArgument s).congr ?_ fun faults sites => ?_
      · simp only [answeringInto, receiveBuffer, if_pos hv]
        rfl
      · exact if_pos hv
  | true =>
      let copy : Proc (σ × ProfileMutableBuffer) ProfileStatus Unit := fun t =>
        ((q.copyFirst t.2 true t.1).1.1,
          ((q.copyFirst t.2 true t.1).2, (q.copyFirst t.2 true t.1).1.2))
      have hbody : ShadowsAt .internalError
          (onPart (·, s.2.setWritten 0) s.1 await >>= fun _ => copy)
          (onPartFaulty (·, s.2.setWritten 0) s.1 await' >>= fun _ => safely copy) s :=
        shadowsAt_bind (shadowsAt_onPart (h s.1) _ s) fun _ t _ => shadows_safely copy t
      refine hbody.congr ?_ fun faults sites => ?_
      · rcases hw : await s.1 with ⟨⟨⟩ | status | _, s1⟩
        · have hpart : onPart (·, s.2.setWritten 0) s.1 await s =
              (.done (), (s1, s.2.setWritten 0)) := by rw [onPart, hw]
          rw [bind_of_done _ hpart]
          simp only [answeringInto, receiveBuffer_of_done hv hw, copy]
        · have hpart : onPart (·, s.2.setWritten 0) s.1 await s =
              (.fail status, (s1, s.2.setWritten 0)) := by rw [onPart, hw]
          rw [bind_of_fail _ hpart]
          simp only [answeringInto, receiveBuffer_of_fail hv hw]
        · have hpart : onPart (·, s.2.setWritten 0) s.1 await s =
              (.waiting, (s1, s.2.setWritten 0)) := by rw [onPart, hw]
          rw [bind_of_waiting _ hpart]
          simp only [answeringInto, receiveBuffer_of_waiting hv hw]
      · have hvalid : ¬ isValidMutableBuffer s.2 = false := by
          rw [hv]
          exact Bool.true_eq_false.mp
        exact if_neg hvalid

/-- A body left by a status or by an exception has set the written size of a valid
    buffer to 0, and nothing else of the buffer. -/
theorem receivingInto_fail {s : σ} {output : ProfileMutableBuffer} {faults sites : List Bool}
    {e : Exit ProfileStatus} {t : Faulty (σ × ProfileMutableBuffer)}
    (h : q.receivingInto await' ⟨(s, output), faults, sites⟩ = (.fail e, t)) :
    t.state.2 = if isValidMutableBuffer output then output.setWritten 0 else output := by
  simp only [receivingInto] at h
  cases hv : isValidMutableBuffer output with
  | false =>
      rw [if_pos hv] at h
      rw [← (Prod.mk.inj h).2, if_neg Bool.false_ne_true]
  | true =>
      rw [if_neg (by rw [hv]; exact Bool.true_eq_false.mp)] at h
      rw [if_pos rfl]
      rcases bind_fail_iff.mp h with hfirst | ⟨⟨⟩, s1, hfirst, hcopy⟩
      · rw [← (Prod.mk.inj hfirst).2]
      · -- A copy that failed has copied nothing.
        have hbuffer : s1.state.2 = output.setWritten 0 := by rw [← (Prod.mk.inj hfirst).2]
        have hsame : t.state.2 = (q.copyFirst s1.state.2 true s1.state.1).1.2 := by
          rw [← (Prod.mk.inj hcopy).2]
        have hout : (q.copyFirst s1.state.2 true s1.state.1).1.1 ≠ .done () := by
          intro hdone
          simp only [safely, hdone] at hcopy
          cases hcopy
        rw [hsame, ← hbuffer]
        by_cases hroom : ((q.apdus s1.state.1).headD []).length ≤ s1.state.2.size
        · rw [copyFirst_fits hroom] at hout
          exact absurd rfl hout
        · rw [copyFirst_tooSmall (Nat.lt_of_not_le hroom)]

end PendingQueue

namespace Udp

/-- A call that hands nothing over sets the written size of a valid buffer to 0, and
    nothing else of the buffer. -/
theorem receiveApduInto_not_done {W : WrapperLib} {output : ProfileMutableBuffer} {s : State}
    (h : (receiveApduInto W output s).1.1 ≠ .done ()) : (receiveApduInto W output s).1.2 =
      if isValidMutableBuffer output then output.setWritten 0 else output := by
  unfold receiveApduInto at h ⊢
  cases hv : isValidMutableBuffer output with
  | false => rw [if_pos rfl, if_neg Bool.false_ne_true]
  | true =>
      rw [hv, if_neg Bool.true_eq_false.mp] at h
      rw [if_neg Bool.true_eq_false.mp, if_pos rfl]
      -- The size is written back before anything is received, and again if all went well.
      rcases hr : receiveFrame W s with ⟨frame | status | _, s1⟩ <;> rw [hr] at h
      · simp only [copyFrameData] at h ⊢
        split at h
        · next hsmall => rw [if_pos hsmall]
        · exact absurd rfl h

end Udp

namespace CApi

variable {W : WrapperLib} {L : HdlcLib}

/-- `IApduChannel*`: an object of one of the three classes. The wrapper channels ask
    their transport whether it is open and do nothing else about it, so what it will
    answer stands beside them. -/
inductive Impl (W : WrapperLib) (L : HdlcLib) where
  | wrapperTcp (isOpens : List Bool) (channel : Tcp.State W)
  | wrapperUdp (isOpens : List Bool) (channel : Udp.State)
  | hdlc (channel : Hdlc.State L)

/-- The constructors of the three classes. -/
def newImpl (W : WrapperLib) (L : HdlcLib) (options : ApduChannelOptions) (transport : Transport) :
    Implementation → Impl W L
  | .wrapperTcp => .wrapperTcp transport.isOpens
    { Tcp.newChannel W options with
      opens := transport.opens
      closes := transport.closes
      reads := transport.reads
      writes := transport.writes
      calls := []
      sink := [] }
  | .wrapperUdp => .wrapperUdp transport.isOpens
    { Udp.newChannel W options with
      opens := transport.opens
      closes := transport.closes
      reads := transport.reads
      writes := transport.writes
      calls := [] }
  | .hdlc => .hdlc
    { Hdlc.newChannel L options with
      opens := transport.opens
      closes := transport.closes
      isOpens := transport.isOpens
      reads := transport.reads
      writes := transport.writes
      sleeps := transport.sleeps
      trace := [] }

/-- The calls that answer a status and nothing else. -/
inductive Method where
  | open
  | close
  | connectDataLink
  | acceptDataLink
  | disconnectDataLink
  | send (apdu : ProfileByteView)

/-- A call a C caller makes with a handle. -/
inductive Request where
  | method (method : Method)
  | isOpen
  | receiveApdu (output : ProfileMutableBuffer)

/-- What a C caller gets back: the number of a status, with the buffer if there is
    one, or a flag. A call may also not return. -/
inductive Reply where
  | status (code : Int)
  | received (code : Int) (output : ProfileMutableBuffer)
  | flag (value : Int)
  | blocked
deriving DecidableEq, Repr

namespace Method

/-- The operation of `WrapperTcpProfileChannel`, if it is one. -/
def tcp : Method → Option Tcp.Operation
  | .open => some .open
  | .close => some .close
  | .send apdu => some (.send apdu)
  | _ => none

/-- The operation of `WrapperUdpProfileChannel`, if it is one. -/
def udp : Method → Option Udp.Operation
  | .open => some .open
  | .close => some .close
  | .send apdu => some (.send apdu)
  | _ => none

/-- The operation of `HdlcProfileChannel`. -/
def hdlc : Method → Hdlc.Operation
  | .open => .open
  | .close => .close
  | .connectDataLink => .connectDataLink
  | .acceptDataLink => .acceptDataLink
  | .disconnectDataLink => .disconnectDataLink
  | .send apdu => .send apdu

end Method

namespace Impl

/-- A method. The link calls are refused unless the channel is an HDLC channel
    (`AsHdlcChannel`). -/
def calling (method : Method) : Throwing (Impl W L) Unit := fun s =>
  match s.state with
  | .wrapperTcp isOpens t =>
    match method.tcp with
    | some op => onPartFaulty (.wrapperTcp isOpens) t (Tcp.Throwing.call Tcp.anywhere op) s
    | none => (.fail (.status .unsupportedFeature), s)
  | .wrapperUdp isOpens t =>
    match method.udp with
    | some op => onPartFaulty (.wrapperUdp isOpens) t (Udp.Throwing.call W op) s
    | none => (.fail (.status .unsupportedFeature), s)
  | .hdlc t => onPartFaulty .hdlc t (Hdlc.Throwing.call Hdlc.anywhere method.hdlc) s

/-- A method when nothing throws. -/
def answering (method : Method) : Proc (Impl W L) ProfileStatus Unit := fun s =>
  match s with
  | .wrapperTcp isOpens t =>
    match method.tcp with
    | some op => onPart (.wrapperTcp isOpens) t (Tcp.answer op) s
    | none => (.fail .unsupportedFeature, s)
  | .wrapperUdp isOpens t =>
    match method.udp with
    | some op => onPart (.wrapperUdp isOpens) t (Udp.answer W op) s
    | none => (.fail .unsupportedFeature, s)
  | .hdlc t => onPart .hdlc t (Hdlc.answer method.hdlc) s

/-- `ReceiveApdu` into a caller's buffer. -/
def receivingInto : Throwing (Impl W L × ProfileMutableBuffer) Unit := fun s =>
  match s.state with
  | (.wrapperTcp isOpens t, output) =>
    onPartFaulty (fun u => (.wrapperTcp isOpens u.1, u.2)) (t, output)
      (Tcp.pending.receivingInto (Tcp.Throwing.awaitFrame Tcp.anywhere)) s
  | (.wrapperUdp isOpens t, output) =>
    onPartFaulty (fun u => (.wrapperUdp isOpens u.1, u.2)) (t, output)
      (safely fun u => ((Udp.receiveApduInto W u.2 u.1).1.1,
        ((Udp.receiveApduInto W u.2 u.1).2, (Udp.receiveApduInto W u.2 u.1).1.2))) s
  | (.hdlc t, output) =>
    onPartFaulty (fun u => (.hdlc u.1, u.2)) (t, output)
      (Hdlc.pending.receivingInto (Hdlc.Throwing.awaitApdu Hdlc.anywhere)) s

/-- The same when nothing throws. -/
def answeringInto : Proc (Impl W L × ProfileMutableBuffer) ProfileStatus Unit := fun s =>
  match s with
  | (.wrapperTcp isOpens t, output) =>
    onPart (fun u => (.wrapperTcp isOpens u.1, u.2)) (t, output)
      (Tcp.pending.answeringInto Tcp.awaitFrame) s
  | (.wrapperUdp isOpens t, output) =>
    onPart (fun u => (.wrapperUdp isOpens u.1, u.2)) (t, output)
      (fun u => ((Udp.receiveApduInto W u.2 u.1).1.1,
        ((Udp.receiveApduInto W u.2 u.1).2, (Udp.receiveApduInto W u.2 u.1).1.2))) s
  | (.hdlc t, output) =>
    onPart (fun u => (.hdlc u.1, u.2)) (t, output)
      (Hdlc.pending.answeringInto Hdlc.awaitApdu) s

/-- `IsOpen`. -/
def isOpen : Impl W L → Bool × Impl W L
  | .wrapperTcp isOpens t => (isOpens.headD true, .wrapperTcp isOpens.tail t)
  | .wrapperUdp isOpens t => (isOpens.headD true, .wrapperUdp isOpens.tail t)
  | .hdlc t => (t.isOpens.headD true, .hdlc (Hdlc.isOpen t).2)

theorem shadows_calling (method : Method) :
    Shadows .internalError (answering method : Proc (Impl W L) ProfileStatus Unit)
      (calling method) := by
  intro s
  -- By the class of the channel. A class that lacks the method answers without it.
  cases s with
  | wrapperTcp isOpens t =>
      cases hop : method.tcp with
      | some op =>
          refine (shadowsAt_onPart (Tcp.Throwing.shadows_call Tcp.anywhere op t)
            (.wrapperTcp isOpens) (.wrapperTcp isOpens t)).congr ?_ fun faults sites => ?_
          · simp only [answering, hop]
          · simp only [calling, hop]
      | none =>
          refine (shadows_fail .unsupportedFeature (.wrapperTcp isOpens t)).congr ?_
            fun faults sites => ?_
          · simp only [answering, hop]
            rfl
          · simp only [calling, hop]
            rfl
  | wrapperUdp isOpens t =>
      cases hop : method.udp with
      | some op =>
          refine (shadowsAt_onPart (Udp.Throwing.shadows_call (W := W) op t) (.wrapperUdp isOpens)
            (.wrapperUdp isOpens t)).congr ?_ fun faults sites => ?_
          · simp only [answering, hop]
          · simp only [calling, hop]
      | none =>
          refine (shadows_fail .unsupportedFeature (.wrapperUdp isOpens t)).congr ?_
            fun faults sites => ?_
          · simp only [answering, hop]
            rfl
          · simp only [calling, hop]
            rfl
  | hdlc t =>
      exact (shadowsAt_onPart (Hdlc.Throwing.shadows_call Hdlc.anywhere method.hdlc t) .hdlc
        (.hdlc t)).congr rfl fun _ _ => rfl

theorem shadows_receivingInto :
    Shadows .internalError
      (answeringInto : Proc (Impl W L × ProfileMutableBuffer) ProfileStatus Unit)
      receivingInto := by
  rintro ⟨impl, output⟩
  cases impl with
  | wrapperTcp isOpens t =>
      have hawait : Shadows .internalError (Tcp.awaitFrame : Tcp.Call W Unit)
          (Tcp.Throwing.awaitFrame Tcp.anywhere) := Tcp.Throwing.shadows_awaitFrame Tcp.anywhere
      exact (shadowsAt_onPart (PendingQueue.shadows_receivingInto hawait (t, output))
        (fun u => (Impl.wrapperTcp isOpens u.1, u.2)) (.wrapperTcp isOpens t, output)).congr
          rfl fun _ _ => rfl
  | wrapperUdp isOpens t =>
      exact (shadowsAt_onPart (shadows_safely _ (t, output))
        (fun u => (Impl.wrapperUdp isOpens u.1, u.2)) (.wrapperUdp isOpens t, output)).congr
          rfl fun _ _ => rfl
  | hdlc t =>
      have hawait : Shadows .internalError (Hdlc.awaitApdu : Hdlc.Call L Unit)
          (Hdlc.Throwing.awaitApdu Hdlc.anywhere) := Hdlc.Throwing.shadows_awaitApdu Hdlc.anywhere
      exact (shadowsAt_onPart (PendingQueue.shadows_receivingInto hawait (t, output))
        (fun u => (Impl.hdlc u.1, u.2)) (.hdlc t, output)).congr rfl fun _ _ => rfl

/-- Whatever it is left by, a receive call that handed nothing over has set the
    written size of a valid buffer to 0, and nothing else of the buffer. -/
theorem receivingInto_fail {impl : Impl W L} {output : ProfileMutableBuffer}
    {faults sites : List Bool} {e : Exit ProfileStatus}
    {t : Faulty (Impl W L × ProfileMutableBuffer)}
    (h : receivingInto ⟨(impl, output), faults, sites⟩ = (.fail e, t)) :
    t.state.2 = if isValidMutableBuffer output then output.setWritten 0 else output := by
  cases impl with
  | wrapperTcp isOpens t1 =>
      rcases hr : Tcp.pending.receivingInto (Tcp.Throwing.awaitFrame Tcp.anywhere)
        ⟨(t1, output), faults, sites⟩ with ⟨o, u⟩
      simp only [receivingInto, onPartFaulty, hr] at h
      rw [← (Prod.mk.inj h).2]
      rw [(Prod.mk.inj h).1] at hr
      have hbuffer := PendingQueue.receivingInto_fail hr
      exact hbuffer
  | wrapperUdp isOpens t1 =>
      simp only [receivingInto, onPartFaulty, safely] at h
      rw [← (Prod.mk.inj h).2]
      refine Udp.receiveApduInto_not_done fun hdone => ?_
      rw [hdone] at h
      cases h
  | hdlc t1 =>
      rcases hr : Hdlc.pending.receivingInto (Hdlc.Throwing.awaitApdu Hdlc.anywhere)
        ⟨(t1, output), faults, sites⟩ with ⟨o, u⟩
      simp only [receivingInto, onPartFaulty, hr] at h
      rw [← (Prod.mk.inj h).2]
      rw [(Prod.mk.inj h).1] at hr
      have hbuffer := PendingQueue.receivingInto_fail hr
      exact hbuffer

end Impl

/-- `try`, `ToCStatus` and `catch (...)`: the number a call returns, if it does. -/
def returned : Outcome (Exit ProfileStatus) Unit → Option Int
  | .done () => some (toCStatus .ok)
  | .fail (.status status) => some (toCStatus status)
  | .fail .exception => some (toCStatus .internalError)
  | .waiting => none

namespace Reply

/-- The reply that is a status. -/
def ofStatus : Option Int → Reply
  | some code => .status code
  | none => .blocked

/-- The reply that is a status and a buffer. -/
def ofReceived (output : ProfileMutableBuffer) : Option Int → Reply
  | some code => .received code output
  | none => .blocked

end Reply

/-- A call through the interface. A transport and its callbacks are taken not to throw, so
    the handler of `dlms_profile_is_open` has nothing to catch. -/
def serve (request : Request) (faults : List Bool) (impl : Impl W L) : Reply × Impl W L :=
  match request with
  | .method method =>
    let r := Impl.calling method ⟨impl, faults, []⟩
    (.ofStatus (returned r.1), r.2.state)
  | .isOpen => (.flag (if impl.isOpen.1 then 1 else 0), impl.isOpen.2)
  | .receiveApdu output =>
    let r := Impl.receivingInto ⟨(impl, output), faults, []⟩
    (.ofReceived r.2.state.2 (returned r.1), r.2.state.1)

/-- The call of the channel itself, when nothing throws. -/
def answered (request : Request) (impl : Impl W L) : Reply × Impl W L :=
  match request with
  | .method method =>
    let r := Impl.answering method impl
    (.ofStatus (returned (unthrown r.1)), r.2)
  | .isOpen => (.flag (if impl.isOpen.1 then 1 else 0), impl.isOpen.2)
  | .receiveApdu output =>
    let r := Impl.answeringInto (impl, output)
    (.ofReceived r.2.2 (returned (unthrown r.1)), r.2.1)

/-- The sites a call passes when nothing throws. -/
def sites (request : Request) (impl : Impl W L) : List Bool :=
  match request with
  | .method method => sitesOf (Impl.calling method) impl
  | .isOpen => []
  | .receiveApdu output => sitesOf Impl.receivingInto (impl, output)

/-- What is left of an exception. -/
def troubled : Request → Reply
  | .method _ => .status (toCStatus .internalError)
  | .isOpen => .flag 0
  | .receiveApdu output => .received (toCStatus .internalError)
    (if isValidMutableBuffer output then output.setWritten 0 else output)

/-- An outcome without exceptions returns the same. -/
theorem returned_endsAt (site : Bool) :
    returned (endsAt .internalError site) = some (toCStatus .internalError) := by
  cases site <;> rfl

/-- Shadows, seen through the interface. -/
theorem returned_of_shadows {σ : Type} {x : Proc σ ProfileStatus Unit} {y : Throwing σ Unit}
    {s : σ} (h : ShadowsAt .internalError x y s) (faults : List Bool) :
    (firstFault faults (sitesOf y s) = none →
      (y ⟨s, faults, []⟩).1 = unthrown (x s).1 ∧ (y ⟨s, faults, []⟩).2.state = (x s).2) ∧
    (firstFault faults (sitesOf y s) ≠ none →
      returned (y ⟨s, faults, []⟩).1 = some (toCStatus .internalError)) := by
  rcases h with ⟨passed, hpassed⟩
  have hsites : sitesOf y s = passed := by
    rw [sitesOf, (hpassed [] []).1 (firstFault_nil passed), List.nil_append]
  rw [hsites]
  rcases hpassed faults [] with ⟨hnone, hsome⟩
  -- Either no site throws, and all is as without them, or the first to throw decides.
  constructor
  · intro hclear
    rw [hnone hclear]
    exact ⟨rfl, rfl⟩
  · intro hfault
    rcases Option.ne_none_iff_exists'.mp hfault with ⟨site, hsite⟩
    rw [hsome site hsite, returned_endsAt]

/-- If no site on its way throws, a call through the interface is the call of the
    channel. -/
theorem serve_of_clear {request : Request} {faults : List Bool} {impl : Impl W L}
    (h : firstFault faults (sites request impl) = none) :
    serve request faults impl = answered request impl := by
  cases request with
  | method method =>
      rcases (returned_of_shadows (Impl.shadows_calling method impl) faults).1 h with ⟨hout, hstate⟩
      simp only [serve, answered, hout, hstate]
  | isOpen => rfl
  | receiveApdu output =>
      rcases (returned_of_shadows (Impl.shadows_receivingInto (impl, output)) faults).1 h with
        ⟨hout, hstate⟩
      simp only [serve, answered, hout, hstate]

/-- If one throws, it answers `InternalError`. -/
theorem serve_of_fault {request : Request} {faults : List Bool} {impl : Impl W L}
    (h : firstFault faults (sites request impl) ≠ none) :
    (serve request faults impl).1 = troubled request := by
  -- By the request. `IsOpen` passes no site, so it is not among those troubled.
  cases request with
  | method method =>
      have hout := (returned_of_shadows (Impl.shadows_calling method impl) faults).2 h
      simp only [serve, hout]
      rfl
  | isOpen => exact absurd rfl h
  | receiveApdu output =>
      have hout := (returned_of_shadows (Impl.shadows_receivingInto (impl, output)) faults).2 h
      simp only [serve, hout, Reply.ofReceived, troubled]
      congr 1
      rcases hr : Impl.receivingInto ⟨(impl, output), faults, []⟩ with ⟨⟨⟩ | e | _, t⟩
      · rw [hr] at hout
        cases hout
      · exact Impl.receivingInto_fail hr
      · rw [hr] at hout
        cases hout

end CApi

end DlmsProfile
