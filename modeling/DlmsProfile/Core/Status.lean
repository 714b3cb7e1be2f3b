/-!
# Status Codes

The profile layer's own status and those of the four libraries beneath it.
Every public call answers with a `ProfileStatus`; a status of a lower library
never leaves a channel unmapped.

The maps are not injective, and two of the collisions decide how the receive
loops behave. `mapHdlcStatus` sends both "no frame yet" and "segment taken,
more to come" to `NeedMoreData`, and `mapLlcStatus` sends a too short LPDU
there as well, so one value stands for three different situations.

## Main definitions

* `ProfileStatus`: What a channel call answers.
* `mapTransportStatus`, `mapWrapperStatus`, `mapLlcStatus`, `mapHdlcStatus`:
  The translations from below.

## Theorems

* `mapTransportStatus_eq_ok`: Only a transport `Ok` is mapped to `Ok`.
* `mapWrapperStatus_eq_ok`, `mapLlcStatus_eq_ok`, `mapHdlcStatus_eq_ok`: The
  same for the other three.
-/

namespace DlmsProfile

/-- The status every channel call answers with. -/
inductive ProfileStatus where
  | ok
  | needMoreData
  | outputBufferTooSmall
  | invalidArgument
  | notOpen
  | alreadyOpen
  | openFailed
  | readFailed
  | writeFailed
  | timeout
  | connectionClosed
  | wouldBlock
  | invalidFrame
  | invalidLength
  | invalidAddress
  | payloadTooLarge
  | unsupportedFeature
  | internalError
deriving DecidableEq, Repr

/-- The status of a transport call. -/
inductive TransportStatus where
  | ok
  | invalidArgument
  | notOpen
  | alreadyOpen
  | openFailed
  | readFailed
  | writeFailed
  | timeout
  | connectionClosed
  | wouldBlock
  | outputBufferTooSmall
  | unsupportedFeature
  | internalError
deriving DecidableEq, Repr

/-- The status of the wrapper codec and its stream decoder. -/
inductive WrapperStatus where
  | ok
  | needMoreData
  | outputBufferTooSmall
  | invalidArgument
  | invalidVersion
  | invalidSourcePort
  | invalidDestinationPort
  | invalidLength
  | dataTooLarge
  | frameTooLarge
  | unsupportedFeature
  | internalError
deriving DecidableEq, Repr

/-- The status of the LLC codec. -/
inductive LlcStatus where
  | ok
  | needMoreData
  | outputBufferTooSmall
  | invalidArgument
  | invalidHeader
  | invalidDsap
  | invalidSsap
  | invalidControl
  | invalidLpduLength
  | lsduTooLarge
  | broadcastEncodeForbidden
  | unsupportedAddress
  | unsupportedControl
  | unsupportedFeature
  | internalError
deriving DecidableEq, Repr

/-- The status of the HDLC codec, decoder, reassembler and session. -/
inductive HdlcStatus where
  | ok
  | needMoreData
  | segmentationIncomplete
  | outputBufferTooSmall
  | invalidArgument
  | invalidFlag
  | invalidFrameFormat
  | invalidFrameType
  | invalidControlField
  | invalidHeaderChecksum
  | invalidFrameChecksum
  | segmentationError
  | invalidFrameLength
  | invalidAddress
  | frameTooLarge
  | informationFieldTooLarge
  | segmentationOverflow
  | unsupportedFrame
  | unsupportedAddress
  | unsupportedFeature
  | internalError
deriving DecidableEq, Repr

/-- `MapTransportStatus`. -/
def mapTransportStatus : TransportStatus → ProfileStatus
  | .ok => .ok
  | .invalidArgument => .invalidArgument
  | .notOpen => .notOpen
  | .alreadyOpen => .alreadyOpen
  | .openFailed => .openFailed
  | .readFailed => .readFailed
  | .writeFailed => .writeFailed
  | .timeout => .timeout
  | .connectionClosed => .connectionClosed
  | .wouldBlock => .wouldBlock
  | .outputBufferTooSmall => .outputBufferTooSmall
  | .unsupportedFeature => .unsupportedFeature
  | .internalError => .internalError

/-- `MapWrapperStatus`. -/
def mapWrapperStatus : WrapperStatus → ProfileStatus
  | .ok => .ok
  | .needMoreData => .needMoreData
  | .outputBufferTooSmall => .outputBufferTooSmall
  | .invalidArgument => .invalidArgument
  | .invalidVersion | .invalidSourcePort | .invalidDestinationPort => .invalidFrame
  | .invalidLength => .invalidLength
  | .dataTooLarge | .frameTooLarge => .payloadTooLarge
  | .unsupportedFeature => .unsupportedFeature
  | .internalError => .internalError

/-- `MapLlcStatus`. -/
def mapLlcStatus : LlcStatus → ProfileStatus
  | .ok => .ok
  | .needMoreData => .needMoreData
  | .outputBufferTooSmall => .outputBufferTooSmall
  | .invalidArgument => .invalidArgument
  | .invalidHeader | .invalidDsap | .invalidSsap | .invalidControl => .invalidFrame
  | .invalidLpduLength => .invalidLength
  | .lsduTooLarge => .payloadTooLarge
  | .broadcastEncodeForbidden | .unsupportedAddress | .unsupportedControl
  | .unsupportedFeature => .unsupportedFeature
  | .internalError => .internalError

/-- `MapHdlcStatus`. -/
def mapHdlcStatus : HdlcStatus → ProfileStatus
  | .ok => .ok
  | .needMoreData | .segmentationIncomplete => .needMoreData
  | .outputBufferTooSmall => .outputBufferTooSmall
  | .invalidArgument => .invalidArgument
  | .invalidFlag | .invalidFrameFormat | .invalidFrameType | .invalidControlField
  | .invalidHeaderChecksum | .invalidFrameChecksum | .segmentationError => .invalidFrame
  | .invalidFrameLength => .invalidLength
  | .invalidAddress => .invalidAddress
  | .frameTooLarge | .informationFieldTooLarge | .segmentationOverflow => .payloadTooLarge
  | .unsupportedFrame | .unsupportedAddress | .unsupportedFeature => .unsupportedFeature
  | .internalError => .internalError

theorem mapTransportStatus_eq_ok {st : TransportStatus} :
    mapTransportStatus st = .ok ↔ st = .ok := by
  cases st <;> simp only [mapTransportStatus, reduceCtorEq]

/-- A transport never asks for more data, so that status always comes from above. -/
theorem mapTransportStatus_ne_needMoreData (st : TransportStatus) :
    mapTransportStatus st ≠ .needMoreData := by
  cases st <;> simp only [mapTransportStatus, ne_eq, reduceCtorEq, not_false_eq_true]

theorem mapWrapperStatus_eq_ok {st : WrapperStatus} : mapWrapperStatus st = .ok ↔ st = .ok := by
  cases st <;> simp only [mapWrapperStatus, reduceCtorEq]

theorem mapLlcStatus_eq_ok {st : LlcStatus} : mapLlcStatus st = .ok ↔ st = .ok := by
  cases st <;> simp only [mapLlcStatus, reduceCtorEq]

theorem mapHdlcStatus_eq_ok {st : HdlcStatus} : mapHdlcStatus st = .ok ↔ st = .ok := by
  cases st <;> simp only [mapHdlcStatus, reduceCtorEq]

end DlmsProfile
