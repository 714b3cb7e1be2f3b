import DlmsProfile.Reference.Channels

/-!
# One Interface, Three Implementations

A caller that holds an `IApduChannel` does not know which channel is behind it.
What the interface promises about a receive buffer that turns out too small is
kept by the two channels with a pending queue, whatever the transport and the
lower libraries do, since an APDU leaves the queue only when it was copied. The
datagram channel has no queue, and no state of it can keep the promise.

## Main definitions

* `Implementation`: The three channels.
* `Implementation.channel`: The receiving half of each.

## Theorems

* `Implementation.keeps_iff`: Which channels keep an APDU that does not fit.
* `Implementation.keeps_refuted`: An APDU lost to a small buffer.
-/

namespace DlmsProfile

/-- The implementations of `IApduChannel`. The HDLC channel is one of them with
    and without a session. -/
inductive Implementation where
  | wrapperTcp
  | wrapperUdp
  | hdlc
deriving DecidableEq, Repr

namespace Implementation

/-- The receiving half of an implementation. -/
@[reducible] def channel (W : WrapperLib) (L : HdlcLib) : Implementation → ApduChannel
  | .wrapperTcp => Tcp.channel W
  | .wrapperUdp => Udp.channel W
  | .hdlc => Hdlc.channel L

/-- Suppose a receive call into a vector would hand over an APDU, and calls are
    made instead with one or more buffers too small for it. The APDU is kept,
    and handed over by the next call with room, exactly if the channel is not
    the datagram channel. -/
theorem keeps_iff (W : WrapperLib) (L : HdlcLib) (i : Implementation)
    {s s' : (i.channel W L).State} {apdu : List UInt8} {outputs : List ProfileMutableBuffer}
    (hapdu : (i.channel W L).receiveApdu s = (.done apdu, s')) (hne : outputs ≠ [])
    (hsmall : ∀ output ∈ outputs, isValidMutableBuffer output = true ∧
      output.size < apdu.length) :
    (i.channel W L).Keeps apdu outputs s ↔ i ≠ .wrapperUdp := by
  -- Two of them have a queue to keep it in. A datagram is gone once it is received.
  cases i with
  | wrapperTcp =>
      refine iff_of_true ?_ nofun
      exact Tcp.pending.keeps (fun _ => rfl) hapdu hne hsmall
  | wrapperUdp => exact iff_of_false (Udp.not_keeps apdu outputs s) fun h => h rfl
  | hdlc =>
      refine iff_of_true ?_ nofun
      exact Hdlc.pending.keeps (fun _ => rfl) hapdu hne hsmall

/-- An APDU of two bytes over Wrapper/TCP, and two calls with one byte of room. -/
theorem keeps_two_bytes :
    ((Implementation.wrapperTcp).channel Reference.wrapperLib Reference.hdlcLib).Keeps
        [0xC0, 0x01] [⟨.of [0], some 7⟩, ⟨.of [0], some 7⟩]
        (Reference.tcpChannel defaultApduChannelOptions
          [Reference.arrived [0x00, 0x01, 0x00, 0x10, 0x00, 0x01, 0x00, 0x02, 0xC0, 0x01]]) ↔
      Implementation.wrapperTcp ≠ .wrapperUdp :=
  keeps_iff Reference.wrapperLib Reference.hdlcLib .wrapperTcp
    (Prod.ext (by decide +kernel) rfl :
      Tcp.receiveApdu (Reference.tcpChannel defaultApduChannelOptions
        [Reference.arrived [0x00, 0x01, 0x00, 0x10, 0x00, 0x01, 0x00, 0x02, 0xC0, 0x01]]) =
        (.done [0xC0, 0x01], (Tcp.receiveApdu (Reference.tcpChannel defaultApduChannelOptions
          [Reference.arrived [0x00, 0x01, 0x00, 0x10, 0x00, 0x01, 0x00, 0x02, 0xC0, 0x01]])).2))
    (by decide) (by decide)

/-- Over Wrapper/UDP the first of two APDUs does not fit the buffer, and the next
    call with room hands over the second. -/
theorem keeps_refuted :
    let s := Reference.udpChannel defaultApduChannelOptions
      [Reference.arrived [0x00, 0x01, 0x00, 0x10, 0x00, 0x01, 0x00, 0x02, 0xC0, 0x01],
        Reference.arrived [0x00, 0x01, 0x00, 0x10, 0x00, 0x01, 0x00, 0x01, 0xC4]]
    (Udp.receiveApdu Reference.wrapperLib s).1 = .done [0xC0, 0x01] ∧
      ((Udp.channel Reference.wrapperLib).calls [.into ⟨.of [0], some 7⟩, .vector] s).1 =
        [.into (.fail .outputBufferTooSmall) ⟨.of [0], some 0⟩, .vector (.done [0xC4])] := by
  decide +kernel

end Implementation

end DlmsProfile
