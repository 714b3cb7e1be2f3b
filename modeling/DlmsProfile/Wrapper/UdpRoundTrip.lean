import DlmsProfile.Reference.Channels

/-!
# What Wrapper/UDP can carry

What the channel agrees to send is bounded by the codec's limits, and what it
can receive by the read buffer it was constructed with. Nothing ties the two
together: with the default options an APDU of 65527 bytes is sent and the read
buffer holds 2048 bytes. `Udp.round_trip_iff` is the exact condition under
which a datagram survives, that the read buffer has room for the header too.

## Main definitions

* `Udp.Handed`: What the transport makes of a datagram and a buffer.

## Theorems

* `Udp.round_trip_iff`: When a datagram that was sent is received.
* `Udp.round_trip_refuted`: A datagram that was sent and cannot be received.
-/

namespace DlmsProfile

namespace Udp

variable {W : WrapperLib}

/-- What a datagram transport may answer when the given datagram is next and
    the buffer has the given size: the datagram whole if it fits, otherwise
    the status for that or part of the datagram. -/
def Handed (datagram : List UInt8) (capacity : Nat) (e : ReadEvent) : Prop :=
  if datagram.length ≤ capacity then e = ⟨.ok, datagram⟩
  else e.status = .outputBufferTooSmall ∨
    e.status = .ok ∧ e.bytes <+: datagram ∧ e.bytes.length < datagram.length

instance (datagram : List UInt8) (capacity : Nat) (e : ReadEvent) :
    Decidable (Handed datagram capacity e) :=
  inferInstanceAs (Decidable (if datagram.length ≤ capacity then e = ⟨.ok, datagram⟩
    else e.status = .outputBufferTooSmall ∨
      e.status = .ok ∧ e.bytes <+: datagram ∧ e.bytes.length < datagram.length))

/-- A datagram that was sent is received exactly when the read buffer has room
    for the APDU and the header in front of it. -/
theorem round_trip_iff {options peer : ApduChannelOptions} {sender sender' receiver : State}
    {apdu : ProfileByteView} {e : ReadEvent} {rest : List ReadEvent}
    (law : WrapperCodecLaw W (makeWrapperLimits W options))
    (hmax : peer.maximumApduSize = options.maximumApduSize)
    (hscratch : peer.scratchBufferSize = options.scratchBufferSize)
    (hsender : Reachable W options sender) (hreceiver : Reachable W peer receiver)
    (hsend : sendApdu W apdu sender = (.done (), sender'))
    (hreads : receiver.reads = e :: rest)
    (hhanded : Handed (writtenBytes (sender'.calls.drop sender.calls.length))
      receiver.readBufferSize e) :
    (∃ receiver', receiveApdu W receiver = (.done apdu.data, receiver')) ↔
      wrapperHeaderSize + apdu.size ≤ scratchSize options := by
  have hs := toChannel_of_reachable hsender
  have hr := toChannel_of_reachable hreceiver
  rcases sendApdu_done hsend with ⟨frame, wpdu, henc, hdata, hvalid, hcalls⟩
  have hlimits : receiver.wrapperLimits = makeWrapperLimits W options := by
    rw [hr, newChannel, makeWrapperLimits, makeWrapperLimits, hmax]
  have hbuffer : receiver.readBufferSize = scratchSize options := by
    rw [hr, newChannel, scratchSize, scratchSize, hscratch]
  rw [hs] at henc
  have hlen : wpdu.length = wrapperHeaderSize + apdu.size := by
    rw [law.encode_length henc, hdata, size_eq_length hvalid]
  have hwire : writtenBytes (sender'.calls.drop sender.calls.length) = wpdu := by
    rw [hcalls, List.drop_left]
    exact List.append_nil wpdu
  rw [hwire, Handed, hbuffer, hlen] at hhanded
  constructor
  · rintro ⟨receiver', hrecv⟩
    rcases receiveApdu_done_iff.mp hrecv with ⟨got, hgot, hgotdata⟩
    rcases receiveFrame_done_iff.mp hgot with ⟨-, e', rest', hreads', hok, -, hdec, -⟩
    obtain ⟨rfl, rfl⟩ := List.cons.inj (hreads.symm.trans hreads')
    by_contra hroom
    rw [if_neg hroom] at hhanded
    rcases hhanded with hbad | ⟨-, -, hshort⟩
    · rw [hok] at hbad
      cases hbad
    · -- A datagram cut short cannot decode to an APDU of the full size.
      rw [hlimits] at hdec
      have hfull := law.encode_length (law.encode_decode hdec)
      rw [hgotdata, ← size_eq_length hvalid] at hfull
      omega
  · intro hroom
    rw [if_pos hroom] at hhanded
    refine ⟨_, receiveApdu_done_iff.mpr ⟨frame, receiveFrame_done_iff.mpr
      ⟨?_, e, rest, hreads, ?_, ?_, ?_, rfl⟩, hdata⟩⟩
    · rw [hbuffer]
      exact (scratchSize_pos options).ne'
    · rw [hhanded]
    · rw [hhanded]
      refine List.ne_nil_of_length_pos ?_
      rw [hlen]
      exact Nat.lt_of_lt_of_le (by decide) (Nat.le_add_right _ _)
    · rw [hhanded, hlimits]
      exact law.decode_encode henc

/-- With room for the header the datagram is received. -/
theorem round_trip_small :
    (∃ receiver', receiveApdu Reference.wrapperLib
      (Reference.udpChannel defaultApduChannelOptions
        [Reference.arrived [0x00, 0x01, 0x00, 0x10, 0x00, 0x01, 0x00, 0x02, 0xC0, 0x01]]) =
          (.done [0xC0, 0x01], receiver')) ↔
      wrapperHeaderSize + (ProfileByteView.of [0xC0, 0x01]).size ≤
        scratchSize defaultApduChannelOptions :=
  round_trip_iff (Reference.wrapperCodecLaw _) rfl rfl (Reachable.new rfl) (Reachable.new rfl)
    (Prod.ext (by decide +kernel) rfl :
      sendApdu Reference.wrapperLib (.of [0xC0, 0x01])
        (Reference.udpChannel defaultApduChannelOptions []) =
        (.done (), (sendApdu Reference.wrapperLib (.of [0xC0, 0x01])
          (Reference.udpChannel defaultApduChannelOptions [])).2))
    rfl (by decide +kernel)

/-- With the default options an APDU of 2041 bytes is sent, and the peer's read
    buffer is one byte short of its datagram. -/
theorem round_trip_refuted :
    let options := defaultApduChannelOptions
    let apdu := ProfileByteView.of (List.replicate 2041 0x00)
    let sent := sendApdu Reference.wrapperLib apdu (Reference.udpChannel options [])
    let receiver := Reference.udpChannel options [⟨.outputBufferTooSmall, []⟩]
    sent.1 = .done () ∧
      Handed (writtenBytes sent.2.calls) receiver.readBufferSize ⟨.outputBufferTooSmall, []⟩ ∧
      (receiveApdu Reference.wrapperLib receiver).1 = .fail .outputBufferTooSmall := by
  decide +kernel

end Udp

end DlmsProfile
