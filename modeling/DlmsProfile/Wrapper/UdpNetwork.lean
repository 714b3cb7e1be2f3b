import DlmsProfile.Core.Link
import DlmsProfile.Library.Lossy
import DlmsProfile.Wrapper.UdpRoundTrip

/-!
# Two UDP Channels on a Network

Datagrams get lost, arrive twice and overtake each other, and one that is longer than the
receiver's buffer may be cut. The channel has no means against the first three, having no
state at all, and the codec notices the last. So two channels are as good as the network
between them, with APDUs for datagrams: no APDU is ever received that was not sent, not
even in part, and nothing more can be said.

## Main definitions

* `Udp.Network`, `Udp.Network.Step`: Two channels and what has been sent to each of them.
* `Udp.Came`: What may come of the datagrams sent.
* `Udp.Sendable`, `Udp.Room`: The APDUs that can be sent, and received.

## Theorems

* `Udp.no_part`: A part of a WPDU is not one.
* `Udp.followed`, `Udp.follows`: Each of the two networks can follow the other.
* `Udp.network_exact`: What two channels can do.
-/

namespace DlmsProfile

namespace Udp

variable {W : WrapperLib} {limits : WrapperCodecLimits} {options : Side → ApduChannelOptions}

/-- The datagrams a list of calls sent. A call that failed sent none. -/
def datagrams (calls : List TransportCall) : List (List UInt8) :=
  calls.filterMap fun
    | .write bytes .ok => some bytes
    | _ => none

/-- Two channels, and the datagrams ever sent to each of them. -/
structure Network where
  ends : Side → State
  sent : Side → List (List UInt8)

/-- What `Receive` may answer: a failure, an empty datagram, or what becomes of one that was
    sent, not necessarily the first or one that did not come before. -/
def Came (sent : List (List UInt8)) (capacity : Nat) (e : ReadEvent) : Prop :=
  e.status ≠ .ok ∨ e.bytes = [] ∨ ∃ datagram ∈ sent, Handed datagram capacity e

namespace Network

/-- `SendApdu` at one end. -/
def sends (W : WrapperLib) (n : Network) (side : Side) (apdu : ProfileByteView)
    (writes : List TransportStatus) : Outcome ProfileStatus Unit × Network :=
  let r := sendApdu W apdu { n.ends side with writes := writes }
  let sent := datagrams (r.2.calls.drop (n.ends side).calls.length)
  (r.1, ⟨Function.update n.ends side r.2,
    Function.update n.sent side.other (n.sent side.other ++ sent)⟩)

/-- `ReceiveApdu` at one end, and what came if something did. -/
def receives (W : WrapperLib) (n : Network) (side : Side) (call : ReceiveCall)
    (came : Option ReadEvent) : Answer × Network :=
  let r := (channel W).call call { n.ends side with reads := came.toList }
  (r.1, ⟨Function.update n.ends side r.2, n.sent⟩)

/-- A call at one of the ends. -/
inductive Step (W : WrapperLib) : Network → Fifo.Label Side (List UInt8) → Network → Prop
  | send (n : Network) (side : Side) (apdu : ProfileByteView) (writes : List TransportStatus) :
      Step W n (sentLabel side apdu.data (n.sends W side apdu writes).1)
        (n.sends W side apdu writes).2
  | receive (n : Network) (side : Side) (call : ReceiveCall) (came : Option ReadEvent)
      (hcame : ∀ e ∈ came, Came (n.sent side) (n.ends side).readBufferSize e) :
      Step W n (receivedLabel side (n.receives W side call came).1.delivered)
        (n.receives W side call came).2
  | open (n : Network) (side : Side) (opens : List TransportStatus) :
      Step W n .idle
        ⟨Function.update n.ends side (openDatagram { n.ends side with opens := opens }).2, n.sent⟩
  | close (n : Network) (side : Side) (closes : List TransportStatus) :
      Step W n .idle
        ⟨Function.update n.ends side (closeDatagram { n.ends side with closes := closes }).2,
          n.sent⟩

end Network

/-- The frame in which an APDU goes to an end. -/
def frameTo (options : Side → ApduChannelOptions) (side : Side) (apdu : List UInt8) :
    WrapperFrame where
  sourcePort := (options side.other).localWrapperPort
  destinationPort := (options side.other).remoteWrapperPort
  data := apdu

/-- What may be sent to an end. -/
def Sendable (W : WrapperLib) (limits : WrapperCodecLimits) (options : Side → ApduChannelOptions)
    (side : Side) (apdu : List UInt8) : Prop :=
  ((options side.other).maximumApduSize = 0 ∨
    apdu.length ≤ (options side.other).maximumApduSize) ∧
  (W.encodeWpdu (frameTo options side apdu) limits).1 = .ok

/-- What an end has room for. -/
def Room (options : Side → ApduChannelOptions) (side : Side) (apdu : List UInt8) : Prop :=
  wrapperHeaderSize + apdu.length ≤ scratchSize (options side)

/-- The datagrams sent are the WPDUs of the APDUs put, and the ends are as constructed. -/
structure Logged (W : WrapperLib) (limits : WrapperCodecLimits)
    (options : Side → ApduChannelOptions) (n : Network) (log : Side → List (List UInt8)) :
    Prop where
  ends : ∀ side, (n.ends side).toChannel = newChannel W (options side)
  sent : ∀ side, List.Forall₂ (fun apdu datagram =>
    W.encodeWpdu (frameTo options side apdu) limits = (.ok, datagram)) (log side) (n.sent side)

/-- A strict part of a WPDU is not one. -/
theorem no_part (codec : WrapperCodecLaw W limits) (stream : WrapperStreamLaw W limits)
    {frame got : WrapperFrame} {datagram bytes : List UInt8}
    (henc : W.encodeWpdu frame limits = (.ok, datagram)) (hpart : bytes <+: datagram)
    (hlt : bytes.length < datagram.length) : W.decodeWpdu bytes limits ≠ (.ok, got) := by
  intro hdec
  have hpiece := stream.encodes (codec.encode_decode hdec)
  have hne : bytes ≠ datagram := fun heq => absurd (congrArg List.length heq) hlt.ne
  rcases Framing.Framer.scan_part (stream.encodes henc) hpart hne with ⟨k, hscan⟩
  rw [Framing.Framer.scan_encodes hpiece] at hscan
  exact List.cons_ne_nil _ _ (Prod.mk.inj hscan).1

/-- What is handed over is the data of the datagram that came. -/
theorem call_delivered {call : ReceiveCall} {s : State} {apdu : List UInt8}
    (h : ((channel W).call call s).1.delivered = some apdu) :
    ∃ frame s', receiveFrame W s = (.done frame, s') ∧ frame.data = apdu := by
  -- Whichever the overload, it is the data of the frame just received.
  cases call with
  | vector =>
      rcases hr : receiveApdu W s with ⟨got | status | _, s'⟩ <;>
        simp only [ApduChannel.call, hr, Answer.delivered, reduceCtorEq] at h
      rcases receiveApdu_done_iff.mp hr with ⟨frame, hframe, hdata⟩
      exact ⟨frame, s', hframe, hdata.trans (Option.some.inj h)⟩
  | into output =>
      simp only [ApduChannel.call, receiveApduInto] at h
      split at h
      · simp only [Answer.delivered, reduceCtorEq] at h
      next hvalid =>
        rw [Bool.not_eq_false] at hvalid
        rcases hr : receiveFrame W s with ⟨frame | status | _, s'⟩ <;>
          simp only [hr, copyFrameData, Answer.delivered, reduceCtorEq] at h
        -- What is too large for the buffer is not copied, and so not delivered.
        by_cases hroom : (output.setWritten 0).size < frame.data.length
        · simp only [if_pos hroom, reduceCtorEq] at h
        · simp only [if_neg hroom, Option.some.injEq] at h
          rw [ProfileMutableBuffer.received_copy _ _ (isValidMutableBuffer_setWritten hvalid)
            (Nat.not_lt.mp hroom)] at h
          exact ⟨frame, s', rfl, h⟩

/-- No call changes the object. -/
theorem call_toChannel (call : ReceiveCall) (s : State) :
    ((channel W).call call s).2.toChannel = s.toChannel := by
  rcases call_snd (W := W) call s with h | h
  · rw [h, receiveFrame_frame]
  · rw [h]

/-- What is handed over was sent in full, and there was room for it. -/
theorem came_delivered (codec : WrapperCodecLaw W limits) (stream : WrapperStreamLaw W limits)
    (hlimits : ∀ side, makeWrapperLimits W (options side) = limits) {n : Network}
    {log : Side → List (List UInt8)} (h : Logged W limits options n log) {side : Side}
    {call : ReceiveCall} {came : Option ReadEvent}
    (hcame : ∀ e ∈ came, Came (n.sent side) (n.ends side).readBufferSize e) {apdu : List UInt8}
    (hdelivered : (n.receives W side call came).1.delivered = some apdu) :
    apdu ∈ log side ∧ Room options side apdu := by
  rcases call_delivered hdelivered with ⟨frame, s', hframe, rfl⟩
  rcases receiveFrame_done_iff.mp hframe with ⟨-, e, rest, hreads, hok, hne, hdec, -⟩
  have hmem : e ∈ came := by
    refine Option.mem_toList.mp ?_
    rw [show came.toList = e :: rest from hreads]
    exact List.mem_cons_self
  have hsetup := h.ends side
  have hbuffer : (n.ends side).readBufferSize = scratchSize (options side) := by
    rw [hsetup]
    rfl
  have hlim : (n.ends side).wrapperLimits = limits := by
    rw [hsetup]
    exact hlimits side
  simp only [hlim] at hdec
  -- The read succeeded and was not empty, so it was a datagram that had been sent.
  rcases hcame e hmem with hbad | hempty | ⟨datagram, hsent, hhanded⟩
  · exact absurd hok hbad
  · exact absurd hempty hne
  rcases Lossy.matched (h.sent side).flip hsent with ⟨sent, hlog, henc⟩
  rw [Handed, hbuffer] at hhanded
  by_cases hfits : datagram.length ≤ scratchSize (options side)
  · rw [if_pos hfits] at hhanded
    rw [hhanded, codec.decode_encode henc] at hdec
    obtain rfl := (Prod.mk.inj hdec).2
    refine ⟨hlog, ?_⟩
    rw [Room]
    exact (codec.encode_length henc).symm.trans_le hfits
  -- One that was cut short to the buffer would not have been decoded.
  · rw [if_neg hfits] at hhanded
    rcases hhanded with hbad | ⟨-, hpart, hlt⟩
    · rw [hok] at hbad
      cases hbad
    · exact absurd hdec (no_part codec stream henc hpart hlt)

/-- A send that is not refused is one of the WPDU. -/
theorem sendApdu_sendable {side : Side} {s : State} {apdu : ProfileByteView}
    {datagram : List UInt8} (hsetup : s.toChannel = newChannel W (options side.other))
    (hlimits : makeWrapperLimits W (options side.other) = limits)
    (hvalid : isValidByteView apdu = true)
    (hsendable : Sendable W limits options side apdu.data)
    (henc : W.encodeWpdu (frameTo options side apdu.data) limits = (.ok, datagram)) :
    sendApdu W apdu s = sendDatagram datagram s := by
  have hoptions : s.options = options side.other := congrArg Channel.options hsetup
  have hlim : s.wrapperLimits = limits :=
    (congrArg Channel.wrapperLimits hsetup).trans hlimits
  -- An APDU that may be sent passes each check, and its frame is the one agreed on.
  have hsize : ¬ (s.options.maximumApduSize ≠ 0 ∧ s.options.maximumApduSize < apdu.size) := by
    rw [hoptions, size_eq_length hvalid]
    rcases hsendable.1 with hzero | hle
    · exact fun h => h.1 hzero
    · exact fun h => absurd h.2 (Nat.not_lt.mpr hle)
  have hframe : ({ sourcePort := s.options.localWrapperPort
                   destinationPort := s.options.remoteWrapperPort
                   data := apdu.data } : WrapperFrame) = frameTo options side apdu.data := by
    rw [hoptions, frameTo]
  rw [sendApdu, hvalid, if_neg Bool.true_eq_false.mp, if_neg hsize]
  simp only [hframe, hlim, henc]
  rw [if_neg (not_not.mpr (mapWrapperStatus_eq_ok.mpr rfl))]

/-- And one that completed was not refused. -/
theorem sendable_of_done {side : Side} {s s' : State} {apdu : ProfileByteView}
    (hsetup : s.toChannel = newChannel W (options side.other))
    (hlimits : makeWrapperLimits W (options side.other) = limits)
    (h : sendApdu W apdu s = (.done (), s')) :
    isValidByteView apdu = true ∧ Sendable W limits options side apdu.data := by
  have hoptions : s.options = options side.other := congrArg Channel.options hsetup
  have hlim : s.wrapperLimits = limits :=
    (congrArg Channel.wrapperLimits hsetup).trans hlimits
  rw [sendApdu] at h
  -- Past the checks each condition of `Sendable` has been tested.
  split at h
  · cases h
  next hvalid =>
    rw [Bool.not_eq_false] at hvalid
    split at h
    · cases h
    next hsize =>
      simp only at h
      split at h
      · cases h
      next henc =>
        rw [not_not, mapWrapperStatus_eq_ok, hoptions, hlim] at henc
        rw [hoptions, size_eq_length hvalid] at hsize
        exact ⟨hvalid, by omega, henc⟩

/-- A send that did not complete sent nothing. -/
theorem datagrams_of_not_done {apdu : ProfileByteView} {s s' : State}
    {o : Outcome ProfileStatus Unit} (h : sendApdu W apdu s = (o, s')) (ho : o ≠ .done ()) :
    datagrams (s'.calls.drop s.calls.length) = [] := by
  rw [sendApdu] at h
  split at h
  · rw [← (Prod.mk.inj h).2, List.drop_length]
    rfl
  split at h
  · rw [← (Prod.mk.inj h).2, List.drop_length]
    rfl
  simp only at h
  split at h
  · rw [← (Prod.mk.inj h).2, List.drop_length]
    rfl
  -- It was not refused, so the write failed, and a failed write carries nothing.
  · rw [sendDatagram] at h
    by_cases hstatus : s.writes.headD .ok = .ok
    · rw [hstatus, mapTransportStatus_eq_ok.mpr rfl, check_ok] at h
      exact absurd (Prod.mk.inj h).1.symm ho
    · have hleft := congrArg Prod.snd h
      rw [check_snd] at hleft
      simp only at hleft
      rw [← hleft, List.drop_left]
      cases hwrite : s.writes.headD .ok <;> first | rfl | exact absurd hwrite hstatus

/-- A send that is not refused and does not fail is a datagram more. -/
theorem sends_sendable (hlimits : ∀ side, makeWrapperLimits W (options side) = limits)
    {n : Network} {side : Side} {apdu : ProfileByteView} {writes : List TransportStatus}
    {datagram : List UInt8} (hsetup : (n.ends side).toChannel = newChannel W (options side))
    (hvalid : isValidByteView apdu = true)
    (hsendable : Sendable W limits options side.other apdu.data)
    (henc : W.encodeWpdu (frameTo options side.other apdu.data) limits = (.ok, datagram))
    (hwrite : writes.headD .ok = .ok) :
    ∃ s' : State, s'.toChannel = (n.ends side).toChannel ∧
      n.sends W side apdu writes = (.done (), ⟨Function.update n.ends side s',
        Function.update n.sent side.other (n.sent side.other ++ [datagram])⟩) := by
  -- The datagram is sent whole, and one more lies ready for the other side.
  have hsend : sendApdu W apdu { n.ends side with writes := writes } =
      (.done (), { n.ends side with
        writes := writes.tail, calls := (n.ends side).calls ++ [.write datagram .ok] }) := by
    have hend : { n.ends side with writes := writes }.toChannel =
        newChannel W (options side.other.other) := by
      rw [Side.other_other]
      exact hsetup
    rw [sendApdu_sendable hend (hlimits _) hvalid hsendable henc, sendDatagram, hwrite,
      mapTransportStatus_eq_ok.mpr rfl, check_ok]
  refine ⟨{ n.ends side with
    writes := writes.tail, calls := (n.ends side).calls ++ [.write datagram .ok] }, rfl, ?_⟩
  simp only [Network.sends, hsend, List.drop_left]
  rfl

/-- More was sent to one end. -/
theorem Logged.put {n : Network} {log : Side → List (List UInt8)}
    (h : Logged W limits options n log) {side : Side} {s' : State}
    (hsame : s'.toChannel = (n.ends side).toChannel) {apdu datagram : List UInt8}
    (henc : W.encodeWpdu (frameTo options side.other apdu) limits = (.ok, datagram)) :
    Logged W limits options ⟨Function.update n.ends side s',
      Function.update n.sent side.other (n.sent side.other ++ [datagram])⟩
      (Function.update log side.other (log side.other ++ [apdu])) := by
  -- One end has moved, and one direction has one more datagram.
  refine ⟨fun other => ?_, fun other => ?_⟩
  · by_cases hother : other = side
    · simp only [hother, Function.update_self, hsame]
      exact h.ends side
    · simp only [Function.update_of_ne hother]
      exact h.ends other
  · by_cases hother : other = side.other
    · simp only [hother, Function.update_self]
      exact List.rel_append (h.sent side.other) (.cons henc .nil)
    · simp only [Function.update_of_ne hother]
      exact h.sent other

/-- Nothing was sent. -/
theorem Logged.same {n : Network} {log : Side → List (List UInt8)}
    (h : Logged W limits options n log) {side : Side} {s' : State}
    (hsame : s'.toChannel = (n.ends side).toChannel) :
    Logged W limits options ⟨Function.update n.ends side s', n.sent⟩ log := by
  refine ⟨fun other => ?_, h.sent⟩
  by_cases hother : other = side
  · simp only [hother, Function.update_self, hsame]
    exact h.ends side
  · simp only [Function.update_of_ne hother]
    exact h.ends other

/-- A send is an APDU put to the other end, or nothing. -/
theorem logged_send (hlimits : ∀ side, makeWrapperLimits W (options side) = limits) {n : Network}
    {log : Side → List (List UInt8)} (h : Logged W limits options n log) (side : Side)
    (apdu : ProfileByteView) (writes : List TransportStatus) :
    ∃ log', Lossy.Step (Sendable W limits options) (Room options) log
        (sentLabel side apdu.data (n.sends W side apdu writes).1) log' ∧
      Logged W limits options (n.sends W side apdu writes).2 log' := by
  have hsetup : { n.ends side with writes := writes }.toChannel =
      newChannel W (options side.other.other) := by
    rw [Side.other_other]
    exact h.ends side
  have hsame := sendApdu_frame (W := W) apdu { n.ends side with writes := writes }
  rcases hsend : sendApdu W apdu { n.ends side with writes := writes } with ⟨o, s'⟩
  rw [hsend] at hsame
  by_cases ho : o = .done ()
  · subst ho
    rcases sendable_of_done hsetup (hlimits _) hsend with ⟨hvalid, hsendable⟩
    rcases henc : W.encodeWpdu (frameTo options side.other apdu.data) limits with ⟨st, datagram⟩
    obtain rfl : st = .ok := by rw [← hsendable.2, henc]
    -- It completed, so the write did.
    have hwrite : writes.headD .ok = .ok := by
      rw [sendApdu_sendable hsetup (hlimits _) hvalid hsendable henc, sendDatagram,
        check_done_iff, mapTransportStatus_eq_ok] at hsend
      exact hsend.1
    rcases sends_sendable hlimits (h.ends side) hvalid hsendable henc hwrite with
      ⟨s1, hsame1, hsends⟩
    rw [hsends]
    exact ⟨_, ⟨hsendable, rfl⟩, h.put hsame1 henc⟩
  · have hsends : n.sends W side apdu writes = (o, ⟨Function.update n.ends side s', n.sent⟩) := by
      have hnone := datagrams_of_not_done hsend ho
      simp only [Network.sends, hsend]
      rw [hnone, List.append_nil, Function.update_eq_self]
    have hlabel : sentLabel side apdu.data o = .idle := by
      rcases o with ⟨⟩ | status | _
      · exact absurd rfl ho
      · rfl
      · rfl
    rw [hsends, hlabel]
    exact ⟨log, ⟨trivial, rfl⟩, h.same hsame⟩

/-- A receive call is an APDU taken that was put, or nothing. -/
theorem logged_receive (codec : WrapperCodecLaw W limits) (stream : WrapperStreamLaw W limits)
    (hlimits : ∀ side, makeWrapperLimits W (options side) = limits) {n : Network}
    {log : Side → List (List UInt8)} (h : Logged W limits options n log) {side : Side}
    (call : ReceiveCall) {came : Option ReadEvent}
    (hcame : ∀ e ∈ came, Came (n.sent side) (n.ends side).readBufferSize e) :
    ∃ log', Lossy.Step (Sendable W limits options) (Room options) log
        (receivedLabel side (n.receives W side call came).1.delivered) log' ∧
      Logged W limits options (n.receives W side call came).2 log' := by
  refine ⟨log, ?_, h.same (call_toChannel call _)⟩
  cases hdelivered : (n.receives W side call came).1.delivered with
  | some apdu => exact ⟨came_delivered codec stream hlimits h hcame hdelivered, rfl⟩
  | none => exact ⟨trivial, rfl⟩

/-- The network of APDUs can do what the network of datagrams does. -/
theorem followed (codec : WrapperCodecLaw W limits) (stream : WrapperStreamLaw W limits)
    (hlimits : ∀ side, makeWrapperLimits W (options side) = limits) :
    Simulates (Network.Step W) (Lossy.Step (Sendable W limits options) (Room options))
      (Logged W limits options) := by
  intro n log label n' h hstep
  -- `Open` and `Close` of a datagram transport are no steps of the abstract network.
  cases hstep with
  | send side apdu writes => exact logged_send hlimits h side apdu writes
  | receive side call came hcame => exact logged_receive codec stream hlimits h call hcame
  | «open» side opens =>
      refine ⟨log, ⟨trivial, rfl⟩, h.same ?_⟩
      rw [openDatagram, check_snd]
  | close side closes =>
      refine ⟨log, ⟨trivial, rfl⟩, h.same ?_⟩
      rw [closeDatagram, check_snd]

/-- A datagram that comes as it was sent, to a buffer that has room for it. -/
theorem receives_sent (codec : WrapperCodecLaw W limits)
    (hlimits : ∀ side, makeWrapperLimits W (options side) = limits) {n : Network} {side : Side}
    (hsetup : (n.ends side).toChannel = newChannel W (options side)) {apdu datagram : List UInt8}
    (henc : W.encodeWpdu (frameTo options side apdu) limits = (.ok, datagram))
    (hroom : Room options side apdu) :
    Handed datagram (n.ends side).readBufferSize ⟨.ok, datagram⟩ ∧
      ∃ s' : State, s'.toChannel = (n.ends side).toChannel ∧
        n.receives W side .vector (some ⟨.ok, datagram⟩) =
          (.vector (.done apdu), ⟨Function.update n.ends side s', n.sent⟩) := by
  have hbuffer : (n.ends side).readBufferSize = scratchSize (options side) := by
    rw [hsetup]
    rfl
  have hlim : (n.ends side).wrapperLimits = limits := by
    rw [hsetup]
    exact hlimits side
  -- The datagram fits the read buffer, so it is handed over whole.
  have hlen := codec.encode_length henc
  refine ⟨?_, { n.ends side with
    reads := [], calls := (n.ends side).calls ++ [.read ⟨.ok, datagram⟩] }, rfl, ?_⟩
  · rw [Handed, hbuffer, if_pos (hlen.trans_le hroom)]
  · have hframe : receiveFrame W { n.ends side with reads := [⟨.ok, datagram⟩] } =
        (.done (frameTo options side apdu), { n.ends side with
          reads := [], calls := (n.ends side).calls ++ [.read ⟨.ok, datagram⟩] }) := by
      refine receiveFrame_done_iff.mpr ⟨?_, ⟨.ok, datagram⟩, [], rfl, rfl, ?_, ?_, rfl⟩
      · rw [show (n.ends side).readBufferSize = _ from hbuffer]
        exact (scratchSize_pos _).ne'
      · refine List.ne_nil_of_length_pos ?_
        rw [hlen]
        exact Nat.lt_of_lt_of_le (by decide) (Nat.le_add_right _ _)
      · rw [show (n.ends side).wrapperLimits = _ from hlim]
        exact codec.decode_encode henc
    have hcall := receiveApdu_done_iff.mpr ⟨_, hframe, rfl⟩
    simp only [Network.receives, ApduChannel.call, Option.toList_some, hcall]
    rfl

/-- And the other way round. -/
theorem follows (codec : WrapperCodecLaw W limits)
    (hlimits : ∀ side, makeWrapperLimits W (options side) = limits) :
    Simulates (Lossy.Step (Sendable W limits options) (Room options)) (Network.Step W)
      (fun log n => Logged W limits options n log) := by
  intro log n label log' h hstep
  rcases hstep with ⟨hpermitted, rfl⟩
  cases label with
  | put side apdu =>
      -- The other end sends it, and the write succeeds.
      rw [← Side.other_other side] at hpermitted
      rcases henc : W.encodeWpdu (frameTo options side.other.other apdu) limits with
        ⟨st, datagram⟩
      obtain rfl : st = .ok := by rw [← hpermitted.2, henc]
      have hsent : ∃ s' : State, s'.toChannel = (n.ends side.other).toChannel ∧
          n.sends W side.other (.of apdu) [] = (.done (), ⟨Function.update n.ends side.other s',
            Function.update n.sent side.other.other (n.sent side.other.other ++ [datagram])⟩) :=
        sends_sendable hlimits (h.ends side.other) rfl hpermitted henc rfl
      rcases hsent with ⟨s', hsame, hsends⟩
      have hstep := Network.Step.send (W := W) n side.other (.of apdu) []
      have hput := h.put hsame henc
      rw [hsends] at hstep
      rw [Side.other_other] at hput
      refine ⟨_, ?_, hput⟩
      simp only [sentLabel, Side.other_other] at hstep
      exact hstep
  | take side apdu =>
      -- A datagram of it comes, as it was sent.
      rcases hpermitted with ⟨hmem, hroom⟩
      rcases Lossy.matched (h.sent side) hmem with ⟨datagram, hsent, henc⟩
      rcases receives_sent codec hlimits (h.ends side) henc hroom with
        ⟨hhanded, s', hsame, hreceives⟩
      have hcame : ∀ e ∈ some (⟨.ok, datagram⟩ : ReadEvent),
          Came (n.sent side) (n.ends side).readBufferSize e := by
        intro e he
        obtain rfl := Option.mem_some_iff.mp he
        exact Or.inr (Or.inr ⟨datagram, hsent, hhanded⟩)
      have hstep := Network.Step.receive (W := W) n side .vector _ hcame
      rw [hreceives] at hstep
      exact ⟨_, hstep, h.same hsame⟩
  -- Nothing to be seen: an end is opened.
  | idle =>
      refine ⟨_, .open n .left [], h.same ?_⟩
      rw [openDatagram, check_snd]

end Udp

end DlmsProfile
