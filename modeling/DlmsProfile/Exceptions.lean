import DlmsProfile.Hdlc.Exposure
import DlmsProfile.Reference.Channels
import DlmsProfile.Wrapper.Throwing

/-!
# What Leaves the Interface

The interface answers statuses and is not supposed to throw. It keeps that in one
channel only. The datagram channel allocates in one place of its own, and that is
inside a handler. The other two have places inside a handler and places outside: a
copy of an APDU is covered, a copy of a frame is not, and of the emissions of a trace
that of a decoded frame is. Whether a call comes to a place outside is told by the
state before it.

## Theorems

* `exceptions_contained_iff`: When the three channels contain exceptions.
* `exceptions_contained_refuted`: Two that get out.
-/

namespace DlmsProfile

open Proc

/-- For every call of each channel, in every state and whatever container operations and
    sink calls fail, where `may` says which of these can fail at all. Over UDP no
    exception leaves, and a failure is answered with `InternalError`. Over TCP and HDLC
    the same holds if only what a handler encloses can fail.

    Over TCP it holds exactly if the call is not `Exposed`, whatever can fail. Over HDLC
    that is so if everything can. If only some of it can, an `Exposed` call is still one
    that an exception may leave. -/
theorem exceptions_contained_iff {W : WrapperLib} {L : HdlcLib}
    (tcpCall : Tcp.Operation) (tcp : Tcp.State W) (udpCall : Udp.Operation) (udp : Udp.State)
    (hdlcCall : Hdlc.Operation) (hdlc : Hdlc.State L) :
    (∀ faults, Contained .internalError (Udp.Throwing.call W udpCall) udp faults) ∧
      (∀ faults,
        Contained .internalError (Tcp.Throwing.call Tcp.Site.enclosed tcpCall) tcp faults) ∧
      (∀ may, (∀ faults, Contained .internalError (Tcp.Throwing.call may tcpCall) tcp faults) ↔
        ¬ Tcp.Exposed may tcpCall tcp) ∧
      (∀ faults,
        Contained .internalError (Hdlc.Throwing.call Hdlc.Site.enclosed hdlcCall) hdlc faults) ∧
      ((∀ faults,
        Contained .internalError (Hdlc.Throwing.call Hdlc.anywhere hdlcCall) hdlc faults) ↔
          ¬ Hdlc.Exposed Hdlc.anywhere hdlcCall hdlc) ∧
      ∀ may, Hdlc.Exposed may hdlcCall hdlc →
        ∃ faults, ¬ Contained .internalError (Hdlc.Throwing.call may hdlcCall) hdlc faults := by
  refine ⟨?_, ?_, fun may => ?_, ?_, ?_, fun may hexposed => ?_⟩
  · exact (contained_forall_iff (Udp.Throwing.shadows_call udpCall udp)).mpr
      (Udp.Throwing.not_exposes_call udpCall udp)
  · rw [contained_forall_iff (Tcp.Throwing.shadows_call Tcp.Site.enclosed tcpCall tcp),
      Tcp.Throwing.exposes_call]
    exact Tcp.not_exposed_enclosed tcpCall tcp
  · rw [contained_forall_iff (Tcp.Throwing.shadows_call may tcpCall tcp),
      Tcp.Throwing.exposes_call]
  -- What a handler encloses is covered, whatever the call.
  · exact (contained_forall_iff (Hdlc.Throwing.shadows_call Hdlc.Site.enclosed hdlcCall hdlc)).mpr
      (Hdlc.Throwing.covers_call hdlcCall hdlc)
  · rw [contained_forall_iff (Hdlc.Throwing.shadows_call Hdlc.anywhere hdlcCall hdlc)]
    -- That it is enough holds of any sites. That it is needed takes all of them.
    rcases Hdlc.Throwing.toldBy_call hdlcCall hdlc with ⟨henough, honly⟩
    exact not_congr ⟨honly rfl, henough⟩
  · rw [← not_forall, contained_forall_iff (Hdlc.Throwing.shadows_call may hdlcCall hdlc), not_not]
    exact (Hdlc.Throwing.toldBy_call hdlcCall hdlc).1 hexposed

/-- A sink that throws when the stream channel shows it the WPDU it is about to write,
    and a frame that cannot be copied out of the push that completed it: both
    exceptions leave. -/
theorem exceptions_contained_refuted :
    let options := defaultApduChannelOptions
    let tracing := Reference.tcpChannel { options with wrapperTcpTraceSink := true } []
    let stream := Reference.hdlcChannel options
      [Reference.arrived (Reference.toClient 0x10 [0xe6, 0xe7, 0, 1])]
    ¬ Contained .internalError (Tcp.Throwing.call Tcp.anywhere (.send (.of [1]))) tracing [true] ∧
      ¬ Contained .internalError (Hdlc.Throwing.call Hdlc.anywhere (.receive .vector)) stream
        [true] := by
  refine ⟨fun h => h.1 ?_, fun h => h.1 ?_⟩
  · decide +kernel
  · decide +kernel

end DlmsProfile
