import DlmsProfile.Core.Options
import DlmsProfile.Core.Transport
import DlmsProfile.Library.Framing

/-!
# The HDLC and LLC Libraries

The HDLC codec, stream decoder, reassembler and session and the LLC codec are
other repositories, so they are a parameter here: `HdlcLib` lists the types
the channel holds and the calls it makes. What those calls promise is stated
where it is used, as hypotheses of the results that need it.

The channel never looks into a control field, an address or a session. Their
types are left open, and what the laws have to say about sequence numbers is
said through views of them.

## Main definitions

* `HdlcFrame`: A decoded frame.
* `HdlcCodecLimits`, `HdlcSessionNegotiationLimits`, `HdlcSessionOptions`: The
  option records the channel fills in.
* `HdlcLib`: The types and calls of the lower libraries.
* `HdlcStreamLaw`: The stream decoder parses frames incrementally.
-/

namespace DlmsProfile

/-- The direction an LLC header is made for. -/
inductive LlcDirection where
  | clientToServer
  | serverToClient
deriving DecidableEq, Repr

/-- Which end of the link a session is. -/
inductive HdlcSessionRole where
  | client
  | server
deriving DecidableEq, Repr

/-- The state of a session. The channel distinguishes the first two from the
    rest and nothing else. -/
inductive HdlcSessionState where
  | disconnected
  | connected
  | connecting
  | disconnecting
deriving DecidableEq, Repr

/-- The three kinds of HDLC frame. -/
inductive HdlcFrameKind where
  | information
  | supervisory
  | unnumbered
deriving DecidableEq, Repr

/-- `HdlcFrame` and `HdlcFrameBuffer`, which differ in who owns the bytes. -/
structure HdlcFrame (Address Control : Type) where
  segmented : Bool
  destination : Address
  source : Address
  control : Control
  information : List UInt8
deriving DecidableEq, Repr

/-- The codec limits the channel reads or sets. -/
structure HdlcCodecLimits where
  maximumInformationFieldSize : Nat
  maximumReassembledInformationSize : Nat
deriving DecidableEq, Repr

/-- The parameters two sessions negotiate. -/
structure HdlcSessionNegotiationLimits where
  maxInformationFieldLengthTransmit : Nat
  maxInformationFieldLengthReceive : Nat
  windowSizeTransmit : UInt8
  windowSizeReceive : UInt8
deriving DecidableEq, Repr

/-- What a session is made from. -/
structure HdlcSessionOptions (Address : Type) where
  role : HdlcSessionRole
  clientAddress : Address
  serverAddress : Address
  limits : HdlcCodecLimits
  negotiationLimits : HdlcSessionNegotiationLimits
deriving DecidableEq, Repr

/-- The types the channel holds and the calls it makes. Calls that change an
    object give the object back; calls with output parameters give those back
    next to the status, meaningful only where the status says so. Decoders are
    made with the noise policy `IgnoreUntilOpeningFlag`. -/
structure HdlcLib where
  Address : Type
  Control : Type
  Decoder : Type
  Reassembler : Type
  Session : Type
  LlcHeader : Type
  makeClientAddress : UInt8 → HdlcStatus × Address
  makeServerAddress : UInt16 → UInt16 → HdlcStatus × Address
  decodeControl : UInt8 → HdlcStatus × Control
  frameKind : Control → HdlcFrameKind
  defaultCodecLimits : HdlcCodecLimits
  encodeFrame : HdlcFrame Address Control → HdlcCodecLimits → HdlcStatus × List UInt8
  decodeFrame : List UInt8 → HdlcCodecLimits → HdlcStatus × HdlcFrame Address Control
  newDecoder : HdlcCodecLimits → Decoder
  push : Decoder → List UInt8 → HdlcStatus × List (HdlcFrame Address Control) × Decoder
  resetDecoder : Decoder → Decoder
  newReassembler : HdlcCodecLimits → Reassembler
  pushFrame : Reassembler → HdlcFrame Address Control →
    HdlcStatus × (HdlcFrame Address Control × Bool) × Reassembler
  resetReassembler : Reassembler → Reassembler
  defaultNegotiationLimits : HdlcSessionNegotiationLimits
  newSession : HdlcSessionOptions Address → Session
  sessionState : Session → HdlcSessionState
  negotiatedLimits : Session → HdlcSessionNegotiationLimits
  canSendInformationFrame : Session → Bool
  buildConnectRequest : Session → HdlcStatus × List UInt8 × Session
  buildConnectResponse : Session → HdlcStatus × List UInt8 × Session
  buildDisconnectRequest : Session → HdlcStatus × List UInt8 × Session
  buildInformationFrame : Session → List UInt8 → Bool → HdlcStatus × List UInt8 × Session
  buildReceiveReadyFrame : Session → Bool → HdlcStatus × List UInt8 × Session
  receiveFrame : Session → HdlcFrame Address Control → HdlcStatus × Session
  makeLlcHeader : LlcDirection → LlcHeader
  encodeLpdu : LlcHeader → List UInt8 → LlcStatus × List UInt8
  decodeLpdu : List UInt8 → Bool → LlcStatus × List UInt8

namespace HdlcLib

/-- A frame of the library. -/
abbrev Frame (L : HdlcLib) : Type := HdlcFrame L.Address L.Control

/-- The options of a session of the library. -/
abbrev SessionOptions (L : HdlcLib) : Type := HdlcSessionOptions L.Address

end HdlcLib

/-- A stream decoder made with the given limits is an incremental parser of
    frames: it keeps a partial frame, hands over every frame a push completes
    in order, and hands those over also when the push ends in a rejection. -/
structure HdlcStreamLaw (L : HdlcLib) (limits : HdlcCodecLimits) where
  framer : Framing.Framer UInt8 L.Frame HdlcStatus
  live : L.Decoder → Prop
  view : L.Decoder → List UInt8
  follows : Framing.Follows framer live view L.push
    (fun st => mapHdlcStatus st = .ok) (fun st => mapHdlcStatus st = .needMoreData)
  new : live (L.newDecoder limits) ∧ view (L.newDecoder limits) = []
  reset : ∀ {d}, live d → live (L.resetDecoder d) ∧ view (L.resetDecoder d) = []

/-- `ToLlcDirection`. -/
def toLlcDirection : HdlcProfileDirection → LlcDirection
  | .serverToClient => .serverToClient
  | .clientToServer => .clientToServer

/-- `ToHdlcSessionRole`. -/
def toHdlcSessionRole : HdlcProfileRole → HdlcSessionRole
  | .server => .server
  | .client => .client

end DlmsProfile
