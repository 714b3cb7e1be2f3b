import DlmsProfile.Hdlc.Codec

/-!
# What the HDLC Libraries Promise

The results about session mode rest on what the session, the reassembler and
the codecs do. Each promise is one the protocol makes, stated through views of
objects the channel never looks into: the state variables V(S), V(R) and V(A)
of a session, the sequence numbers N(S) and N(R) of a control field, and the
segments a reassembler has collected.

Sequence numbers are numbers modulo 8, and how many I-frames are outstanding is
told by the distance from V(A) to V(S).

## Main definitions

* `HdlcLinkLaw`: The commands that establish and release a link.
* `HdlcSessionLaw`: Numbering and acknowledgement while connected.
* `HdlcUnnumberedLaw`: A connected session rejects commands and their answers.
* `HdlcRefusalLaw`: A session keeps its numbers when it builds nothing.
* `HdlcWindowLaw`: How many I-frames may be outstanding.
* `HdlcVerdictLaw`: A session judges every frame it is shown.
* `HdlcReassemblerLaw`: Segments are collected and put together.
* `HdlcReassemblyLimitLaw`: They are, up to a limit.
* `HdlcWireLaw`: The bytes of a frame are that frame.
* `HdlcPollLaw`: The poll/final bit is the one asked for.
* `HdlcCodecLaw`, `HdlcFramingLaw`: The stream decoder finds it again.
* `HdlcResetLaw`, `HdlcRestLaw`: What is left of an object that was reset, and of a
  session that is disconnected.
* `HdlcConnectLaw`: How a session becomes connected.
* `HdlcDormantLaw`: A client session nobody asked for a link.
* `HdlcGreetingLaw`: Two sessions just made establish a link.
* `LlcLaw`: An LPDU is decoded again.
-/

namespace DlmsProfile

/-- The data link is established as far as this end knows. -/
def HdlcLib.Connected (L : HdlcLib) (σ : L.Session) : Prop := L.sessionState σ = .connected

instance (L : HdlcLib) (σ : L.Session) : Decidable (L.Connected σ) :=
  inferInstanceAs (Decidable (L.sessionState σ = .connected))

/-- The session is not changed by what it rejects. -/
def HdlcLib.Steady (L : HdlcLib) (σ : L.Session) : Prop :=
  ∀ frame, (L.receiveFrame σ frame).1 ≠ .ok → (L.receiveFrame σ frame).2 = σ

/-- A command whose answer a session waits for. -/
inductive HdlcCommand where
  | connect
  | disconnect
deriving DecidableEq, Repr

/-- The state of a session whose command was answered. -/
def HdlcCommand.answered : HdlcCommand → HdlcSessionState
  | .connect => .connected
  | .disconnect => .disconnected

/-- A session is constructed disconnected, and only a disconnected one asks for a
    connection. Once a command is built the session awaits its answer, which the
    UA is. What a waiting session makes of other frames is left open, except
    that those it rejects do not change it. -/
structure HdlcLinkLaw (L : HdlcLib) where
  ua : L.Control → Prop
  snrm : L.Control → Prop
  awaits : HdlcCommand → L.Session → Prop
  new : ∀ options, L.sessionState (L.newSession options) = .disconnected
  request : ∀ {options : L.SessionOptions}, options.role = .client →
    (L.buildConnectRequest (L.newSession options)).1 = .ok
  connectRequest : ∀ {σ σ' bytes}, L.buildConnectRequest σ = (.ok, bytes, σ') →
    L.sessionState σ = .disconnected ∧ awaits .connect σ'
  connectResponse : ∀ {σ σ' bytes}, L.buildConnectResponse σ = (.ok, bytes, σ') → L.Connected σ'
  disconnectRequest : ∀ {σ σ' bytes}, L.buildDisconnectRequest σ = (.ok, bytes, σ') →
    awaits .disconnect σ'
  answer : ∀ {command σ} {frame : L.Frame}, awaits command σ → ua frame.control →
    (L.receiveFrame σ frame).1 = .ok ∧
      L.sessionState (L.receiveFrame σ frame).2 = command.answered
  steady : ∀ {command σ}, awaits command σ → L.Steady σ

/-- A connected session numbers its I-frames with V(S), and accepts an I-frame
    numbered V(R) and what acknowledges I-frames between V(A) and V(S). Of the frames
    that have a number it accepts no other, and no frame it rejects changes it. What
    becomes of unnumbered frames is left open. At most seven I-frames are outstanding,
    and a session with none outstanding may send. -/
structure HdlcSessionLaw (L : HdlcLib) where
  vs : L.Session → Fin 8
  vr : L.Session → Fin 8
  va : L.Session → Fin 8
  sendSequence : L.Control → Fin 8
  receiveSequence : L.Control → Fin 8
  information : ∀ {σ σ' info pollFinal bytes}, L.Connected σ →
    L.buildInformationFrame σ info pollFinal = (.ok, bytes, σ') →
    L.Connected σ' ∧ vs σ' = vs σ + 1 ∧ vr σ' = vr σ ∧ va σ' = va σ ∧ (vs σ - va σ).val < 7
  receiveReady : ∀ {σ} (pollFinal : Bool), L.Connected σ →
    (L.buildReceiveReadyFrame σ pollFinal).1 = .ok ∧
      L.Connected (L.buildReceiveReadyFrame σ pollFinal).2.2 ∧
      vs (L.buildReceiveReadyFrame σ pollFinal).2.2 = vs σ ∧
      vr (L.buildReceiveReadyFrame σ pollFinal).2.2 = vr σ ∧
      va (L.buildReceiveReadyFrame σ pollFinal).2.2 = va σ
  accepts : ∀ {σ} {frame : L.Frame}, L.Connected σ →
    L.frameKind frame.control ≠ .unnumbered → ((L.receiveFrame σ frame).1 = .ok ↔
      (receiveSequence frame.control - va σ).val ≤ (vs σ - va σ).val ∧
        (L.frameKind frame.control = .information → sendSequence frame.control = vr σ))
  accepted : ∀ {σ σ'} {frame : L.Frame}, L.Connected σ →
    L.frameKind frame.control ≠ .unnumbered → L.receiveFrame σ frame = (.ok, σ') →
      L.Connected σ' ∧ vs σ' = vs σ ∧ va σ' = receiveSequence frame.control ∧
        vr σ' = if L.frameKind frame.control = .information then vr σ + 1 else vr σ
  rejected : ∀ {σ σ'} {frame : L.Frame} {status}, L.Connected σ →
    L.receiveFrame σ frame = (status, σ') → status ≠ .ok → σ' = σ
  idle : ∀ {σ}, L.Connected σ → va σ = vs σ → L.canSendInformationFrame σ = true

/-- An I-frame has a number. -/
theorem numbered_of_information {L : HdlcLib} {frame : L.Frame}
    (hkind : L.frameKind frame.control = .information) :
    L.frameKind frame.control ≠ .unnumbered := fun hc => by cases hkind.symm.trans hc

/-- And so has an S-frame. -/
theorem numbered_of_supervisory {L : HdlcLib} {frame : L.Frame}
    (hkind : L.frameKind frame.control = .supervisory) :
    L.frameKind frame.control ≠ .unnumbered := fun hc => by cases hkind.symm.trans hc

/-- A connected session rejects unnumbered frames: neither a command nor an answer to
    one is taken once there is a link. -/
structure HdlcUnnumberedLaw (L : HdlcLib) : Prop where
  rejects : ∀ {σ} {frame : L.Frame}, L.Connected σ →
    L.frameKind frame.control = .unnumbered → (L.receiveFrame σ frame).1 ≠ .ok

/-- So every frame it accepts has a number. -/
theorem HdlcUnnumberedLaw.numbered {L : HdlcLib} (unnumbered : HdlcUnnumberedLaw L)
    {σ : L.Session} {frame : L.Frame} (hσ : L.Connected σ)
    (hok : (L.receiveFrame σ frame).1 = .ok) : L.frameKind frame.control ≠ .unnumbered :=
  fun hkind => unnumbered.rejects hσ hkind hok

/-- And what is said of numbered frames that are accepted is said of all. -/
theorem HdlcUnnumberedLaw.accepted {L : HdlcLib} (unnumbered : HdlcUnnumberedLaw L)
    (law : HdlcSessionLaw L) {σ σ' : L.Session} {frame : L.Frame} (hσ : L.Connected σ)
    (h : L.receiveFrame σ frame = (.ok, σ')) :
    L.Connected σ' ∧ law.vs σ' = law.vs σ ∧ law.va σ' = law.receiveSequence frame.control ∧
      law.vr σ' = if L.frameKind frame.control = .information then law.vr σ + 1
        else law.vr σ :=
  law.accepted hσ (unnumbered.numbered hσ (congrArg Prod.fst h)) h

/-- A connected session is not changed by an I-frame it does not build. -/
structure HdlcRefusalLaw (L : HdlcLib) : Prop where
  information : ∀ {σ info pollFinal}, L.Connected σ →
    (L.buildInformationFrame σ info pollFinal).1 ≠ .ok →
    (L.buildInformationFrame σ info pollFinal).2.2 = σ

/-- A connected session may send while fewer I-frames are outstanding than its window
    holds, and the window stays what it was negotiated to be. -/
structure HdlcWindowLaw (L : HdlcLib) (law : HdlcSessionLaw L) where
  window : L.Session → Nat
  canSend : ∀ {σ}, L.Connected σ →
    (L.canSendInformationFrame σ = true ↔ (law.vs σ - law.va σ).val < window σ)
  information : ∀ {σ σ' info pollFinal bytes}, L.Connected σ →
    L.buildInformationFrame σ info pollFinal = (.ok, bytes, σ') → window σ' = window σ
  accepted : ∀ {σ σ'} {frame : L.Frame}, L.Connected σ → L.receiveFrame σ frame = (.ok, σ') →
    window σ' = window σ

/-- A session is shown whole frames, and never asks for more of one. -/
structure HdlcVerdictLaw (L : HdlcLib) : Prop where
  whole : ∀ σ frame, mapHdlcStatus (L.receiveFrame σ frame).1 ≠ .needMoreData

/-- A reassembler collects segments, answering that there is more to come, and
    puts them together with the first I-frame that is not a segment, under the
    control field of the first or of the last of them. Other frames pass. -/
structure HdlcReassemblerLaw (L : HdlcLib) where
  collected : L.Reassembler → List L.Frame
  new : ∀ limits, collected (L.newReassembler limits) = []
  reset : ∀ r, collected (L.resetReassembler r) = []
  other : ∀ {r} {frame : L.Frame}, L.frameKind frame.control ≠ .information →
    (L.pushFrame r frame).1 = .ok ∧ (L.pushFrame r frame).2.1 = (frame, false) ∧
      collected (L.pushFrame r frame).2.2 = collected r
  segment : ∀ {r} {frame : L.Frame}, L.frameKind frame.control = .information →
    frame.segmented = true → mapHdlcStatus (L.pushFrame r frame).1 = .needMoreData ∧
      collected (L.pushFrame r frame).2.2 = collected r ++ [frame]
  last : ∀ {r} {frame : L.Frame}, L.frameKind frame.control = .information →
    frame.segmented = false → (L.pushFrame r frame).1 = .ok ∧
      (L.pushFrame r frame).2.1.2 = true ∧
      (L.pushFrame r frame).2.1.1.information =
        (collected r ++ [frame]).flatMap (·.information) ∧
      ((L.pushFrame r frame).2.1.1.control = frame.control ∨
        (L.pushFrame r frame).2.1.1.control = ((collected r).headD frame).control) ∧
      collected (L.pushFrame r frame).2.2 = []

/-- A reassembler that collects up to the limit it was made with: information that
    would be longer is refused as too large, be it complete or not. -/
structure HdlcReassemblyLimitLaw (L : HdlcLib) where
  collected : L.Reassembler → List L.Frame
  limit : L.Reassembler → Nat
  new : ∀ limits, collected (L.newReassembler limits) = [] ∧
    limit (L.newReassembler limits) = limits.maximumReassembledInformationSize
  reset : ∀ r, collected (L.resetReassembler r) = [] ∧ limit (L.resetReassembler r) = limit r
  keeps : ∀ r (frame : L.Frame), limit (L.pushFrame r frame).2.2 = limit r
  tooLarge : ∀ {r} {frame : L.Frame}, L.frameKind frame.control = .information →
    limit r < ((collected r ++ [frame]).flatMap (·.information)).length →
    mapHdlcStatus (L.pushFrame r frame).1 = .payloadTooLarge
  segment : ∀ {r} {frame : L.Frame}, L.frameKind frame.control = .information →
    frame.segmented = true →
    ((collected r ++ [frame]).flatMap (·.information)).length ≤ limit r →
    mapHdlcStatus (L.pushFrame r frame).1 = .needMoreData ∧
      collected (L.pushFrame r frame).2.2 = collected r ++ [frame]
  last : ∀ {r} {frame : L.Frame}, L.frameKind frame.control = .information →
    frame.segmented = false →
    ((collected r ++ [frame]).flatMap (·.information)).length ≤ limit r →
    (L.pushFrame r frame).1 = .ok ∧ (L.pushFrame r frame).2.1.2 = true ∧
      (L.pushFrame r frame).2.1.1.information = (collected r ++ [frame]).flatMap (·.information)

/-- The bytes of a frame on the wire are that frame, be it built by a session,
    taken apart or put together again. -/
structure HdlcWireLaw (L : HdlcLib) (law : HdlcSessionLaw L) where
  spells : List UInt8 → L.Frame → Prop
  information : ∀ {σ σ' info pollFinal bytes}, L.Connected σ →
    L.buildInformationFrame σ info pollFinal = (.ok, bytes, σ') →
    ∃ frame, spells bytes frame ∧ L.frameKind frame.control = .information ∧
      frame.segmented = false ∧ frame.information = info ∧
      law.sendSequence frame.control = law.vs σ ∧ law.receiveSequence frame.control = law.vr σ
  receiveReady : ∀ {σ} (pollFinal : Bool), L.Connected σ →
    ∃ frame, spells (L.buildReceiveReadyFrame σ pollFinal).2.1 frame ∧
      L.frameKind frame.control = .supervisory ∧
      law.receiveSequence frame.control = law.vr σ
  decode : ∀ {bytes} {frame frame' : L.Frame} {limits}, spells bytes frame →
    L.decodeFrame bytes limits = (.ok, frame') → frame' = frame
  encode : ∀ {bytes} {frame : L.Frame} {limits}, L.encodeFrame frame limits = (.ok, bytes) →
    spells bytes frame

/-- The poll/final bit of an I-frame is the one it was built with. -/
structure HdlcPollLaw (L : HdlcLib) (law : HdlcSessionLaw L) (wire : HdlcWireLaw L law) where
  pollFinal : L.Control → Bool
  information : ∀ {σ σ' info bit bytes} {frame : L.Frame}, L.Connected σ →
    L.buildInformationFrame σ info bit = (.ok, bytes, σ') → wire.spells bytes frame →
    pollFinal frame.control = bit

/-- What `EncodeFrame` produces is one frame to a stream decoder made with the
    same limits, and nothing else. -/
structure HdlcCodecLaw (L : HdlcLib) {limits : HdlcCodecLimits}
    (law : HdlcStreamLaw L limits) : Prop where
  encodes : ∀ {frame : L.Frame} {bytes}, L.encodeFrame frame limits = (.ok, bytes) →
    law.framer.Encodes bytes frame

/-- A stream decoder finds a frame on the wire again if its information is within the
    limits it was made with, and an RR in any case. -/
structure HdlcFramingLaw (L : HdlcLib) {limits : HdlcCodecLimits} {law : HdlcSessionLaw L}
    (stream : HdlcStreamLaw L limits) (wire : HdlcWireLaw L law) : Prop where
  encodes : ∀ {bytes} {frame : L.Frame}, wire.spells bytes frame →
    frame.information.length ≤ limits.maximumInformationFieldSize →
    stream.framer.Encodes bytes frame
  receiveReady : ∀ {σ} {frame : L.Frame} (pollFinal : Bool), L.Connected σ →
    wire.spells (L.buildReceiveReadyFrame σ pollFinal).2.1 frame →
    stream.framer.Encodes (L.buildReceiveReadyFrame σ pollFinal).2.1 frame

/-- What has been reset is what was made with the same limits. -/
structure HdlcResetLaw (L : HdlcLib) where
  decoderMade : L.Decoder → HdlcCodecLimits → Prop
  newDecoder : ∀ limits, decoderMade (L.newDecoder limits) limits
  push : ∀ {d limits} (bytes), decoderMade d limits → decoderMade (L.push d bytes).2.2 limits
  resetDecoder : ∀ {d limits}, decoderMade d limits → L.resetDecoder d = L.newDecoder limits
  reassemblerMade : L.Reassembler → HdlcCodecLimits → Prop
  newReassembler : ∀ limits, reassemblerMade (L.newReassembler limits) limits
  pushFrame : ∀ {r limits} (frame), reassemblerMade r limits →
    reassemblerMade (L.pushFrame r frame).2.2 limits
  resetReassembler : ∀ {r limits}, reassemblerMade r limits →
    L.resetReassembler r = L.newReassembler limits

/-- A call that may change a session. -/
inductive HdlcLib.Moves (L : HdlcLib) (σ : L.Session) : L.Session → Prop
  | receive (frame : L.Frame) : Moves L σ (L.receiveFrame σ frame).2
  | connectRequest : Moves L σ (L.buildConnectRequest σ).2.2
  | connectResponse : Moves L σ (L.buildConnectResponse σ).2.2
  | disconnectRequest : Moves L σ (L.buildDisconnectRequest σ).2.2
  | information (info : List UInt8) (pollFinal : Bool) :
    Moves L σ (L.buildInformationFrame σ info pollFinal).2.2
  | receiveReady (pollFinal : Bool) : Moves L σ (L.buildReceiveReadyFrame σ pollFinal).2.2

/-- Two sessions build the same frame, and what is left of them is related. -/
def HdlcLib.SameBuild (L : HdlcLib) (S : L.Session → L.Session → Prop)
    (build : L.Session → HdlcStatus × List UInt8 × L.Session) : Prop :=
  ∀ {σ τ}, S σ τ → (build σ).1 = (build τ).1 ∧ (build σ).2.1 = (build τ).2.1 ∧
    S (build σ).2.2 (build τ).2.2

/-- Two sessions judge a frame alike, and what is left of them is related. -/
def HdlcLib.SameVerdict (L : HdlcLib) (S : L.Session → L.Session → Prop) : Prop :=
  ∀ {σ τ} (frame : L.Frame), S σ τ → (L.receiveFrame σ frame).1 = (L.receiveFrame τ frame).1 ∧
    S (L.receiveFrame σ frame).2 (L.receiveFrame τ frame).2

/-- A disconnected session keeps nothing of the link before: by what it builds and
    accepts it cannot be told from a session just made, and once a link is
    established there is nothing left to tell. -/
structure HdlcRestLaw (L : HdlcLib) where
  made : L.Session → L.SessionOptions → Prop
  new : ∀ options, made (L.newSession options) options
  moves : ∀ {σ σ' options}, made σ options → L.Moves σ σ' → made σ' options
  alike : L.Session → L.Session → Prop
  refl : ∀ σ, alike σ σ
  rest : ∀ {σ options}, made σ options → L.sessionState σ = .disconnected →
    alike σ (L.newSession options)
  state : ∀ {σ τ}, alike σ τ → L.sessionState σ = L.sessionState τ
  connected : ∀ {σ τ}, alike σ τ → L.Connected σ → σ = τ
  receive : L.SameVerdict alike
  connectRequest : L.SameBuild alike L.buildConnectRequest
  connectResponse : L.SameBuild alike L.buildConnectResponse
  disconnectRequest : L.SameBuild alike L.buildDisconnectRequest
  receiveReady : ∀ pollFinal, L.SameBuild alike fun σ => L.buildReceiveReadyFrame σ pollFinal

/-- A session becomes connected in two ways only: one that awaits the answer to its
    request takes a UA, or a UA is built. -/
structure HdlcConnectLaw (L : HdlcLib) where
  ua : L.Control → Prop
  new : ∀ options, ¬ L.Connected (L.newSession options)
  receive : ∀ {σ} {frame : L.Frame}, ¬ L.Connected σ → L.Connected (L.receiveFrame σ frame).2 →
    (L.receiveFrame σ frame).1 = .ok ∧ L.sessionState σ = .connecting ∧ ua frame.control
  connectResponse : ∀ {σ}, ¬ L.Connected σ → L.Connected (L.buildConnectResponse σ).2.2 →
    (L.buildConnectResponse σ).1 = .ok
  connectRequest : ∀ {σ}, ¬ L.Connected σ → ¬ L.Connected (L.buildConnectRequest σ).2.2
  disconnectRequest : ∀ {σ}, ¬ L.Connected σ → ¬ L.Connected (L.buildDisconnectRequest σ).2.2
  receiveReady : ∀ {σ} (pollFinal), ¬ L.Connected σ →
    ¬ L.Connected (L.buildReceiveReadyFrame σ pollFinal).2.2

/-- A client session just made accepts no frame and builds no command that releases a
    link, and trying does not wake it. -/
structure HdlcDormantLaw (L : HdlcLib) where
  dormant : L.Session → Prop
  new : ∀ {options : L.SessionOptions}, options.role = .client → dormant (L.newSession options)
  disconnected : ∀ {σ}, dormant σ → L.sessionState σ = .disconnected
  receive : ∀ {σ} (frame : L.Frame), dormant σ →
    (L.receiveFrame σ frame).1 ≠ .ok ∧ dormant (L.receiveFrame σ frame).2
  disconnectRequest : ∀ {σ}, dormant σ →
    (L.buildDisconnectRequest σ).1 ≠ .ok ∧ dormant (L.buildDisconnectRequest σ).2.2

/-- A session made for a client and one made for a server establish a link: the SNRM the one
    builds is found by the decoder of the other, which takes it and builds a UA, which the
    first finds and takes. Both then count from zero. -/
structure HdlcGreetingLaw (L : HdlcLib) (law : HdlcSessionLaw L) {own peer : HdlcCodecLimits}
    (ownStream : HdlcStreamLaw L own) (peerStream : HdlcStreamLaw L peer)
    (client server : L.SessionOptions) where
  snrm : L.Frame
  ua : L.Frame
  unnumbered : L.frameKind snrm.control = .unnumbered
  request : (L.buildConnectRequest (L.newSession client)).1 = .ok
  requestEncodes :
    peerStream.framer.Encodes (L.buildConnectRequest (L.newSession client)).2.1 snrm
  indication : (L.receiveFrame (L.newSession server) snrm).1 = .ok
  response : (L.buildConnectResponse (L.receiveFrame (L.newSession server) snrm).2).1 = .ok
  responseEncodes : ownStream.framer.Encodes
    (L.buildConnectResponse (L.receiveFrame (L.newSession server) snrm).2).2.1 ua
  confirmation : (L.receiveFrame (L.buildConnectRequest (L.newSession client)).2.2 ua).1 = .ok
  connected : ∀ σ,
    σ = (L.receiveFrame (L.buildConnectRequest (L.newSession client)).2.2 ua).2 ∨
      σ = (L.buildConnectResponse (L.receiveFrame (L.newSession server) snrm).2).2.2 →
    L.Connected σ ∧ law.vs σ = 0 ∧ law.vr σ = 0 ∧ law.va σ = 0

/-- An LPDU has a header, and the APDU behind it is found again. -/
structure LlcLaw (L : HdlcLib) : Prop where
  decode : ∀ {direction apdu lpdu}, L.encodeLpdu (L.makeLlcHeader direction) apdu = (.ok, lpdu) →
    L.decodeLpdu lpdu false = (.ok, apdu)
  nonempty : ∀ {direction apdu lpdu},
    L.encodeLpdu (L.makeLlcHeader direction) apdu = (.ok, lpdu) → lpdu ≠ []

end DlmsProfile
