import DlmsProfile.Core.Channel
import DlmsProfile.Wrapper.Codec

/-!
# The Wrapper/UDP Channel

`WrapperUdpProfileChannel`, call by call. One datagram is one WPDU, so there is
no decoder object and nothing pending: a receive call takes one datagram,
decodes it and hands it over or drops it. A caller's buffer that turns out too
small is found out only when the datagram is already taken.

## Main definitions

* `Udp.Channel`, `Udp.State`: The object, and the object in its surroundings.
* `Udp.sendApdu`: `SendApdu`.
* `Udp.receiveFrame`: `ReceiveFrame`.
* `Udp.receiveApdu`, `Udp.receiveApduInto`: The two overloads of `ReceiveApdu`.
* `Udp.Reachable`: A channel operated on in any order over any transport.

## Theorems

* `Udp.sendApdu_done`: `Ok` means one datagram, the WPDU of the APDU.
* `Udp.receiveApdu_done_iff`: `Ok` means the next datagram decoded.
* `Udp.toChannel_of_reachable`: The object never changes.
* `Udp.receiveApduInto_tooSmall`, `Udp.not_keeps`: An APDU that does not fit is gone.
-/

namespace DlmsProfile

namespace Udp

/-- The members of a `WrapperUdpProfileChannel`, the read buffer again by its
    size. -/
structure Channel where
  options : ApduChannelOptions
  wrapperLimits : WrapperCodecLimits
  readBufferSize : Nat
deriving DecidableEq, Repr

/-- The constructor. -/
def newChannel (W : WrapperLib) (options : ApduChannelOptions) : Channel where
  options := options
  wrapperLimits := makeWrapperLimits W options
  readBufferSize := scratchSize options

/-- A channel in its surroundings: what the transport will answer, and the
    calls it has answered. -/
structure State extends Channel where
  opens : List TransportStatus
  closes : List TransportStatus
  reads : List ReadEvent
  writes : List TransportStatus
  calls : List TransportCall
deriving DecidableEq, Repr

/-- A call of the channel. -/
abbrev Call (α : Type) : Type := Proc State ProfileStatus α

variable {W : WrapperLib}

/-- `datagram_.Send`, its status mapped and checked. -/
def sendDatagram (bytes : List UInt8) : Call Unit := fun s =>
  check (mapTransportStatus (s.writes.headD .ok))
    { s with writes := s.writes.tail, calls := s.calls ++ [.write bytes (s.writes.headD .ok)] }

/-- `Open`. -/
def openDatagram : Call Unit := fun s =>
  check (mapTransportStatus (s.opens.headD .ok))
    { s with opens := s.opens.tail, calls := s.calls ++ [.open (s.opens.headD .ok)] }

/-- `Close`: the channel keeps nothing that would have to go. -/
def closeDatagram : Call Unit := fun s =>
  check (mapTransportStatus (s.closes.headD .ok))
    { s with closes := s.closes.tail, calls := s.calls ++ [.close (s.closes.headD .ok)] }

/-- `SendApdu`. -/
def sendApdu (W : WrapperLib) (apdu : ProfileByteView) : Call Unit := fun s =>
  if isValidByteView apdu = false then (.fail .invalidArgument, s)
  else if s.options.maximumApduSize ≠ 0 ∧ s.options.maximumApduSize < apdu.size then
    (.fail .payloadTooLarge, s)
  else
    let frame : WrapperFrame :=
      { sourcePort := s.options.localWrapperPort
        destinationPort := s.options.remoteWrapperPort
        data := apdu.data }
    let encoded := W.encodeWpdu frame s.wrapperLimits
    if mapWrapperStatus encoded.1 ≠ .ok then (.fail (mapWrapperStatus encoded.1), s)
    else sendDatagram encoded.2 s

/-- `ReceiveFrame`: one datagram, and a WPDU cut short is a wrong length. -/
def receiveFrame (W : WrapperLib) : Call WrapperFrame := fun s =>
  if s.readBufferSize = 0 then (.fail .invalidArgument, s)
  else
    match s.reads with
    | [] => (.waiting, s)
    | e :: rest =>
      let s := { s with reads := rest, calls := s.calls ++ [.read e] }
      if mapTransportStatus e.status ≠ .ok then (.fail (mapTransportStatus e.status), s)
      else if e.bytes = [] then (.fail .needMoreData, s)
      else
        let decoded := W.decodeWpdu e.bytes s.wrapperLimits
        let decodeStatus := mapWrapperStatus decoded.1
        if decodeStatus = .ok then (.done decoded.2, s)
        else if decodeStatus = .needMoreData then (.fail .invalidLength, s)
        else (.fail decodeStatus, s)

/-- `ReceiveApdu` into a vector. -/
def receiveApdu (W : WrapperLib) : Call (List UInt8) :=
  receiveFrame W >>= fun frame => pure frame.data

/-- `CopyFrameData`. -/
def copyFrameData (frame : WrapperFrame) (output : ProfileMutableBuffer) :
    Outcome ProfileStatus Unit × ProfileMutableBuffer :=
  if output.size < frame.data.length then (.fail .outputBufferTooSmall, output)
  else (.done (), (output.copy frame.data).setWritten frame.data.length)

/-- `ReceiveApdu` into a caller's buffer. -/
def receiveApduInto (W : WrapperLib) (output : ProfileMutableBuffer) (s : State) :
    (Outcome ProfileStatus Unit × ProfileMutableBuffer) × State :=
  if isValidMutableBuffer output = false then ((.fail .invalidArgument, output), s)
  else
    match receiveFrame W s with
    | (.done frame, s1) => (copyFrameData frame (output.setWritten 0), s1)
    | (.fail status, s1) => ((.fail status, output.setWritten 0), s1)
    | (.waiting, s1) => ((.waiting, output.setWritten 0), s1)

/-- The receiving half of the channel. -/
@[reducible] def channel (W : WrapperLib) : ApduChannel where
  State := State
  receiveApdu := receiveApdu W
  receiveApduInto := receiveApduInto W
  reads := fun s => s.reads

/-- A call that changes the channel. -/
inductive Operation where
  | open
  | close
  | send (apdu : ProfileByteView)
  | receive (call : ReceiveCall)

/-- The state an operation leaves behind, whatever it answers. -/
def exec (W : WrapperLib) : Operation → State → State
  | .open, s => (openDatagram s).2
  | .close, s => (closeDatagram s).2
  | .send apdu, s => (sendApdu W apdu s).2
  | .receive call, s => ((channel W).call call s).2

/-- A channel constructed with the options and operated on in any order over
    any transport. -/
inductive Reachable (W : WrapperLib) (options : ApduChannelOptions) : State → Prop where
  | new {s : State} (h : s.toChannel = newChannel W options) : Reachable W options s
  | step {s : State} (op : Operation) (h : Reachable W options s) :
    Reachable W options (exec W op s)

/-- `Ok` from `SendApdu`: one datagram was sent, the WPDU of the APDU. -/
theorem sendApdu_done {apdu : ProfileByteView} {s s' : State}
    (h : sendApdu W apdu s = (.done (), s')) :
    ∃ frame wpdu, W.encodeWpdu frame s.wrapperLimits = (.ok, wpdu) ∧ frame.data = apdu.data ∧
      isValidByteView apdu = true ∧ s'.calls = s.calls ++ [.write wpdu .ok] := by
  rw [sendApdu] at h
  -- Past the checks the datagram is built and sent.
  split at h
  · cases h
  next hvalid =>
    split at h
    · cases h
    simp only at h
    split at h
    · cases h
    next henc =>
      rw [not_not, mapWrapperStatus_eq_ok] at henc
      rw [sendDatagram, check_done_iff, mapTransportStatus_eq_ok] at h
      rcases h with ⟨hwrite, rfl⟩
      rw [Bool.not_eq_false] at hvalid
      exact ⟨_, _, Prod.ext henc rfl, rfl, hvalid, by rw [hwrite]⟩

theorem sendApdu_frame (apdu : ProfileByteView) (s : State) :
    (sendApdu W apdu s).2.toChannel = s.toChannel := by
  rw [sendApdu]
  split
  · rfl
  split
  · rfl
  simp only
  split
  · rfl
  · rw [sendDatagram, check_snd]

/-- A receive call keeps the object as it is and uses up at most one datagram. -/
theorem receiveFrame_frame (s : State) :
    (receiveFrame W s).2.toChannel = s.toChannel := by
  -- Nothing but the reads and the calls is touched, whichever way it ends.
  rw [receiveFrame]
  split
  · rfl
  split
  · rfl
  · simp only
    split
    · rfl
    split
    · rfl
    split
    · rfl
    split <;> rfl

/-- A frame is received when the next datagram arrives and decodes. -/
theorem receiveFrame_done_iff {s s' : State} {frame : WrapperFrame} :
    receiveFrame W s = (.done frame, s') ↔
      s.readBufferSize ≠ 0 ∧ ∃ e rest, s.reads = e :: rest ∧ e.status = .ok ∧ e.bytes ≠ [] ∧
        W.decodeWpdu e.bytes s.wrapperLimits = (.ok, frame) ∧
        s' = { s with reads := rest, calls := s.calls ++ [.read e] } := by
  rw [receiveFrame]
  -- Each branch but one returns an error, and that one has decoded the datagram.
  by_cases hb : s.readBufferSize = 0
  · rw [if_pos hb]
    exact iff_of_false nofun fun h => h.1 hb
  rw [if_neg hb, and_iff_right hb]
  rcases hreads : s.reads with _ | ⟨e, rest⟩
  · exact iff_of_false nofun fun ⟨_, _, h, _⟩ => nomatch h
  · simp only [List.cons.injEq]
    rcases hd : W.decodeWpdu e.bytes s.wrapperLimits with ⟨st, got⟩
    constructor
    · intro h
      split at h
      · cases h
      next hok =>
        split at h
        · cases h
        next hne =>
          split at h
          · next hst =>
              rw [not_not, mapTransportStatus_eq_ok] at hok
              rw [mapWrapperStatus_eq_ok] at hst
              obtain ⟨hgot, hs'⟩ := Prod.mk.inj h
              exact ⟨e, rest, ⟨rfl, rfl⟩, hok, hne,
                hd.trans (Prod.ext hst (Outcome.done.inj hgot)), hs'.symm⟩
          · split at h <;> cases h
    · rintro ⟨e', rest', ⟨rfl, rfl⟩, hok, hne, hdec, rfl⟩
      obtain ⟨rfl, rfl⟩ := Prod.mk.inj (hd.symm.trans hdec)
      rw [if_neg (not_not.mpr (mapTransportStatus_eq_ok.mpr hok)), if_neg hne,
        if_pos (mapWrapperStatus_eq_ok.mpr rfl)]

/-- `Ok` from the vector overload: the data of the frame received. -/
theorem receiveApdu_done_iff {s s' : State} {apdu : List UInt8} :
    receiveApdu W s = (.done apdu, s') ↔
      ∃ frame, receiveFrame W s = (.done frame, s') ∧ frame.data = apdu := by
  rw [receiveApdu, Proc.bind_done_iff]
  constructor
  · rintro ⟨frame, s1, hf, hk⟩
    obtain ⟨hd, rfl⟩ := Prod.mk.inj hk
    exact ⟨frame, hf, Outcome.done.inj hd⟩
  · rintro ⟨frame, hf, rfl⟩
    exact ⟨frame, s', hf, rfl⟩

/-- Either overload leaves the state `ReceiveFrame` left, or was refused. -/
theorem call_snd (r : ReceiveCall) (s : State) :
    ((channel W).call r s).2 = (receiveFrame W s).2 ∨ ((channel W).call r s).2 = s := by
  -- Only a buffer that is not valid keeps the datagram from being received.
  cases r with
  | vector =>
      refine Or.inl ?_
      rcases hf : receiveFrame W s with ⟨frame | status | _, s1⟩
      · exact congrArg Prod.snd (Proc.bind_of_done _ hf)
      · exact congrArg Prod.snd (Proc.bind_of_fail _ hf)
      · exact congrArg Prod.snd (Proc.bind_of_waiting _ hf)
  | into output =>
      simp only [ApduChannel.call, receiveApduInto]
      split
      · exact Or.inr rfl
      · refine Or.inl ?_
        rcases receiveFrame W s with ⟨frame | status | _, s1⟩ <;> rfl

/-- The object never changes: a datagram leaves no trace in it. -/
theorem toChannel_of_reachable {options : ApduChannelOptions} {s : State}
    (h : Reachable W options s) : s.toChannel = newChannel W options := by
  induction h with
  | new h => exact h
  | @step s op _ ih =>
      refine Eq.trans ?_ ih
      -- No call assigns to a member of the channel.
      cases op with
      | «open» => rw [exec, openDatagram, check_snd]
      | close => rw [exec, closeDatagram, check_snd]
      | send apdu => exact sendApdu_frame apdu s
      | receive call =>
          rcases call_snd call s with h | h
          · rw [exec, h, receiveFrame_frame]
          · rw [exec, h]

/-- A call with a buffer too small leaves the state a call that handed the
    APDU over would have left: the datagram is gone. -/
theorem receiveApduInto_tooSmall {s s' : State} {apdu : List UInt8}
    {output : ProfileMutableBuffer} (hapdu : receiveApdu W s = (.done apdu, s'))
    (hv : isValidMutableBuffer output = true) (hsmall : output.size < apdu.length) :
    receiveApduInto W output s = ((.fail .outputBufferTooSmall, output.setWritten 0), s') := by
  rcases receiveApdu_done_iff.mp hapdu with ⟨frame, hf, rfl⟩
  rw [receiveApduInto, hv, if_neg Bool.true_eq_false.mp, hf]
  simp only [copyFrameData]
  rw [if_pos (by exact hsmall)]

/-- No state keeps an APDU: whatever is handed over was read just then. -/
theorem not_keeps (apdu : List UInt8) (outputs : List ProfileMutableBuffer) (s : State) :
    ¬ (channel W).Keeps apdu outputs s := by
  rintro ⟨-, hnext⟩
  rcases hnext .vector nofun with ⟨hdel, hreads⟩
  simp only [ApduChannel.call] at hdel hreads
  rcases hr : receiveApdu W ((channel W).calls (outputs.map .into) s).2 with ⟨got | status | _, s'⟩
    <;> rw [hr] at hdel hreads
  · rcases receiveApdu_done_iff.mp hr with ⟨frame, hf, -⟩
    rcases receiveFrame_done_iff.mp hf with ⟨-, e, rest, hpre, -, -, -, rfl⟩
    exact absurd (hpre.symm.trans hreads.symm) (List.cons_ne_self e rest)
  · cases hdel
  · cases hdel

end Udp

end DlmsProfile
