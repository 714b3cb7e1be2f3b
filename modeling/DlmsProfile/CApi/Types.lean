import DlmsProfile.ReadBuffer

/-!
# The Types of the C Interface

A C caller has no classes and no enumerations with a fixed set of values. What it
passes in and gets back are integers, records of integers and pointers, some of
them to functions.

Statuses cross the interface in both directions. A channel's status leaves as its
number, and what a callback answers comes in as a number and is taken for a
transport's. The way in knows fewer statuses than the way out, so one that has
been both ways may not be the one that set out.

A transport is given by pointer or made out of callbacks. Either way a channel
learns about it through its answers only, and an adapter changes no more about
the answers than how they are spelled.

## Main definitions

* `CApi.toCStatus`, `CApi.cStatus`: Statuses as numbers.
* `CApi.ChannelOptions`, `CApi.toCppOptions`: The option record.
* `CApi.Transport`: What a transport and the timer will answer.
* `CApi.ByteStreamCallbacks`, `CApi.DatagramCallbacks`: Functions of the caller.
* `CApi.byteStreamAdapter`, `CApi.datagramAdapter`: Transports made of them.

## Theorems

* `CApi.cStatus_toCStatus`: No status is lost on the way out.
* `CApi.relayed_eq_iff`: Which ones are not changed by a callback transport.
* `CApi.exists_toCppOptions_iff`: Which options a C caller can express.
-/

namespace DlmsProfile

namespace CApi

/-- `ToCStatus`: the number of a `ProfileStatus`. -/
def toCStatus : ProfileStatus → Int
  | .ok => 0
  | .needMoreData => 1
  | .outputBufferTooSmall => 2
  | .invalidArgument => 3
  | .notOpen => 4
  | .alreadyOpen => 5
  | .openFailed => 6
  | .readFailed => 7
  | .writeFailed => 8
  | .timeout => 9
  | .connectionClosed => 10
  | .wouldBlock => 11
  | .invalidFrame => 12
  | .invalidLength => 13
  | .invalidAddress => 14
  | .payloadTooLarge => 15
  | .unsupportedFeature => 16
  | .internalError => 17

/-- `dlms_profile_status_t`: what the header names a number, if it does. -/
def cStatus : Int → Option ProfileStatus
  | 0 => some .ok
  | 1 => some .needMoreData
  | 2 => some .outputBufferTooSmall
  | 3 => some .invalidArgument
  | 4 => some .notOpen
  | 5 => some .alreadyOpen
  | 6 => some .openFailed
  | 7 => some .readFailed
  | 8 => some .writeFailed
  | 9 => some .timeout
  | 10 => some .connectionClosed
  | 11 => some .wouldBlock
  | 12 => some .invalidFrame
  | 13 => some .invalidLength
  | 14 => some .invalidAddress
  | 15 => some .payloadTooLarge
  | 16 => some .unsupportedFeature
  | 17 => some .internalError
  | _ => none

/-- The two tables of numbers are one. -/
theorem cStatus_toCStatus (status : ProfileStatus) : cStatus (toCStatus status) = some status := by
  cases status <;> rfl

/-- What becomes of a status a callback answers when a channel hands it on. -/
def relayed (status : Option ProfileStatus) : ProfileStatus :=
  mapTransportStatus (toTransportStatus status)

/-- A callback's status is handed on as it is, unless it is one that no transport has: a
    channel's own word on what it was sent. -/
theorem relayed_eq_iff (given : ProfileStatus) :
    relayed (some given) = given ↔
      given ∉ [.needMoreData, .invalidFrame, .invalidLength, .invalidAddress,
        .payloadTooLarge] := by
  cases given <;> decide

/-- `dlms_profile_hdlc_direction_t` is compared with one of its values only. -/
def toCppDirection (direction : Int) : HdlcProfileDirection :=
  if direction = 1 then .serverToClient else .clientToServer

/-- `ToCppRole`. -/
def toCppRole (role : Int) : HdlcProfileRole := if role = 1 then .server else .client

/-- `dlms_profile_channel_options_t`. It has no trace sink. -/
structure ChannelOptions where
  localWrapperPort : UInt16
  remoteWrapperPort : UInt16
  hdlcClientAddress : UInt8
  hdlcLogicalDeviceAddress : UInt16
  hdlcPhysicalDeviceAddress : UInt16
  hdlcDirection : Int
  maximumApduSize : Nat
  scratchBufferSize : Nat
  hdlcRole : Int
  hdlcUseSession : Int
  hdlcMaxInformationFieldLengthTransmit : Nat
  hdlcMaxInformationFieldLengthReceive : Nat
  hdlcWindowSizeTransmit : UInt8
  hdlcWindowSizeReceive : UInt8
  hdlcRetryCount : UInt8
  hdlcRetryDelayMilliseconds : UInt32
deriving DecidableEq, Repr

/-- `ToCppOptions`: the default options where the caller passes none, and the default
    sink, which is none, in any case. -/
def toCppOptions : Option ChannelOptions → ApduChannelOptions
  | none => defaultApduChannelOptions
  | some options =>
    { defaultApduChannelOptions with
      localWrapperPort := options.localWrapperPort
      remoteWrapperPort := options.remoteWrapperPort
      hdlcClientAddress := options.hdlcClientAddress
      hdlcLogicalDeviceAddress := options.hdlcLogicalDeviceAddress
      hdlcPhysicalDeviceAddress := options.hdlcPhysicalDeviceAddress
      hdlcDirection := toCppDirection options.hdlcDirection
      maximumApduSize := options.maximumApduSize
      scratchBufferSize := options.scratchBufferSize
      hdlcRole := toCppRole options.hdlcRole
      hdlcUseSession := options.hdlcUseSession != 0
      hdlcMaxInformationFieldLengthTransmit := options.hdlcMaxInformationFieldLengthTransmit
      hdlcMaxInformationFieldLengthReceive := options.hdlcMaxInformationFieldLengthReceive
      hdlcWindowSizeTransmit := options.hdlcWindowSizeTransmit
      hdlcWindowSizeReceive := options.hdlcWindowSizeReceive
      hdlcRetryCount := options.hdlcRetryCount
      hdlcRetryDelayMilliseconds := options.hdlcRetryDelayMilliseconds }

/-- A C++ option record, spelled for C. -/
def spelled (options : ApduChannelOptions) : ChannelOptions where
  localWrapperPort := options.localWrapperPort
  remoteWrapperPort := options.remoteWrapperPort
  hdlcClientAddress := options.hdlcClientAddress
  hdlcLogicalDeviceAddress := options.hdlcLogicalDeviceAddress
  hdlcPhysicalDeviceAddress := options.hdlcPhysicalDeviceAddress
  hdlcDirection := if options.hdlcDirection = .serverToClient then 1 else 0
  maximumApduSize := options.maximumApduSize
  scratchBufferSize := options.scratchBufferSize
  hdlcRole := if options.hdlcRole = .server then 1 else 0
  hdlcUseSession := if options.hdlcUseSession then 1 else 0
  hdlcMaxInformationFieldLengthTransmit := options.hdlcMaxInformationFieldLengthTransmit
  hdlcMaxInformationFieldLengthReceive := options.hdlcMaxInformationFieldLengthReceive
  hdlcWindowSizeTransmit := options.hdlcWindowSizeTransmit
  hdlcWindowSizeReceive := options.hdlcWindowSizeReceive
  hdlcRetryCount := options.hdlcRetryCount
  hdlcRetryDelayMilliseconds := options.hdlcRetryDelayMilliseconds

/-- `dlms_profile_default_channel_options`, which does nothing to a null pointer. -/
def dlmsProfileDefaultChannelOptions (options : Option ChannelOptions) : Option ChannelOptions :=
  options.map fun _ => spelled defaultApduChannelOptions

/-- What was spelled for C is read as it was, but for the sink. -/
theorem toCppOptions_spelled (options : ApduChannelOptions) :
    toCppOptions (some (spelled options)) = { options with wrapperTcpTraceSink := false } := by
  rcases options with ⟨_, _, _, _, _, _, direction, role, session, _⟩
  cases direction <;> cases role <;> cases session <;> rfl

theorem toCppOptions_sink (options : Option ChannelOptions) :
    (toCppOptions options).wrapperTcpTraceSink = false := by
  cases options <;> rfl

/-- A C caller can express exactly the options without a trace sink. -/
theorem exists_toCppOptions_iff (options : ApduChannelOptions) :
    (∃ given, toCppOptions given = options) ↔ options.wrapperTcpTraceSink = false := by
  constructor
  · rintro ⟨given, rfl⟩
    exact toCppOptions_sink given
  · intro hsink
    refine ⟨some (spelled options), ?_⟩
    rw [toCppOptions_spelled, ← hsink]

/-- What the transport of a channel and its timer will answer. A datagram transport
    answers `Receive` and `Send` where a byte stream answers `ReadSome` and
    `WriteAll`. -/
structure Transport where
  opens : List TransportStatus
  closes : List TransportStatus
  isOpens : List Bool
  reads : List ReadEvent
  writes : List TransportStatus
  sleeps : List TransportStatus

/-- `dlms_profile_byte_stream_callbacks_t`: each function is null, or given by what
    it will answer. -/
structure ByteStreamCallbacks where
  open_ : Option (List (Option ProfileStatus))
  close : Option (List (Option ProfileStatus))
  isOpen : Option (List Int)
  readSome : Option (List CallbackRead)
  writeAll : Option (List (Option ProfileStatus))

/-- `dlms_profile_datagram_callbacks_t`. -/
structure DatagramCallbacks where
  open_ : Option (List (Option ProfileStatus))
  close : Option (List (Option ProfileStatus))
  isOpen : Option (List Int)
  send : Option (List (Option ProfileStatus))
  receive : Option (List CallbackRead)

/-- `ValidByteStreamCallbacks`. -/
def validByteStreamCallbacks : Option ByteStreamCallbacks → Bool
  | none => false
  | some callbacks =>
    callbacks.open_.isSome && callbacks.close.isSome && callbacks.isOpen.isSome &&
      callbacks.readSome.isSome && callbacks.writeAll.isSome

/-- `ValidDatagramCallbacks`. -/
def validDatagramCallbacks : Option DatagramCallbacks → Bool
  | none => false
  | some callbacks =>
    callbacks.open_.isSome && callbacks.close.isSome && callbacks.isOpen.isSome &&
      callbacks.send.isSome && callbacks.receive.isSome

/-- An adapter over five functions: their statuses become those of a transport, the
    flag is compared with zero, and reads are handed on as they are. -/
def adapter (open_ close : List (Option ProfileStatus)) (isOpen : List Int)
    (read : List CallbackRead) (write : List (Option ProfileStatus))
    (sleeps : List TransportStatus) : Transport where
  opens := open_.map toTransportStatus
  closes := close.map toTransportStatus
  isOpens := isOpen.map (· != 0)
  reads := read.map DlmsProfile.readSome
  writes := write.map toTransportStatus
  sleeps := sleeps

/-- `CByteStreamAdapter`, and the timer. -/
def byteStreamAdapter (callbacks : ByteStreamCallbacks) (sleeps : List TransportStatus) :
    Transport :=
  adapter (callbacks.open_.getD []) (callbacks.close.getD []) (callbacks.isOpen.getD [])
    (callbacks.readSome.getD []) (callbacks.writeAll.getD []) sleeps

/-- `CDatagramAdapter`. -/
def datagramAdapter (callbacks : DatagramCallbacks) : Transport :=
  adapter (callbacks.open_.getD []) (callbacks.close.getD []) (callbacks.isOpen.getD [])
    (callbacks.receive.getD []) (callbacks.send.getD []) []

end CApi

end DlmsProfile
