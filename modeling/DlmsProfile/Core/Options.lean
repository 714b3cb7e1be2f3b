import DlmsProfile.Core.Status
import Mathlib.Algebra.Ring.Nat

/-!
# Options, Views and Buffers

What a caller hands to a channel: the option record, the view of the bytes to
send and the buffer to receive into.

A view is a pointer and a size, and the two can disagree: a null pointer with
a positive size is a value the caller can build, and the first thing a channel
does is refuse it. `ProfileByteView` keeps that case apart rather than
excluding it, so that the check has something to refuse.

Sizes are natural numbers. The two places where the source adds sizes and the
sum can leave `size_t` go through `sizeAdd`.

## Main definitions

* `ApduChannelOptions`: The option record.
* `ProfileByteView`: A possibly null view of bytes.
* `ProfileMutableBuffer`: A possibly null buffer and its written size.
* `scratchSize`: The size of the read buffer a channel is built with.

## Theorems

* `scratchSize_pos`: A channel never has an empty read buffer.
* `ProfileMutableBuffer.received_copy`: What fits is read back unchanged.
-/

namespace DlmsProfile

/-- Addition of two `size_t` values. -/
def sizeAdd (a b : Nat) : Nat := (a + b) % 2 ^ 64

/-- Which LLC header the channel sends. -/
inductive HdlcProfileDirection where
  | clientToServer
  | serverToClient
deriving DecidableEq, Repr

/-- Which end of the data link the channel is. -/
inductive HdlcProfileRole where
  | client
  | server
deriving DecidableEq, Repr

/-- `ApduChannelOptions`. The trace sink is kept as whether one is set: what
    it does with an event is outside the channel. -/
structure ApduChannelOptions where
  localWrapperPort : UInt16
  remoteWrapperPort : UInt16
  wrapperTcpTraceSink : Bool
  hdlcClientAddress : UInt8
  hdlcLogicalDeviceAddress : UInt16
  hdlcPhysicalDeviceAddress : UInt16
  hdlcDirection : HdlcProfileDirection
  hdlcRole : HdlcProfileRole
  hdlcUseSession : Bool
  hdlcMaxInformationFieldLengthTransmit : Nat
  hdlcMaxInformationFieldLengthReceive : Nat
  hdlcWindowSizeTransmit : UInt8
  hdlcWindowSizeReceive : UInt8
  hdlcRetryCount : UInt8
  hdlcRetryDelayMilliseconds : UInt32
  maximumApduSize : Nat
  scratchBufferSize : Nat
deriving DecidableEq, Repr

/-- `DefaultApduChannelOptions`: public client to management logical device. -/
def defaultApduChannelOptions : ApduChannelOptions where
  localWrapperPort := 0x10
  remoteWrapperPort := 0x01
  wrapperTcpTraceSink := false
  hdlcClientAddress := 0x10
  hdlcLogicalDeviceAddress := 0x01
  hdlcPhysicalDeviceAddress := 0x00
  hdlcDirection := .clientToServer
  hdlcRole := .client
  hdlcUseSession := false
  hdlcMaxInformationFieldLengthTransmit := 0
  hdlcMaxInformationFieldLengthReceive := 0
  hdlcWindowSizeTransmit := 0
  hdlcWindowSizeReceive := 0
  hdlcRetryCount := 3
  hdlcRetryDelayMilliseconds := 10
  maximumApduSize := 65535
  scratchBufferSize := 2048

/-- The size `readBuffer_` is constructed with. -/
def scratchSize (options : ApduChannelOptions) : Nat :=
  if options.scratchBufferSize = 0 then 2048 else options.scratchBufferSize

theorem scratchSize_pos (options : ApduChannelOptions) : 0 < scratchSize options := by
  unfold scratchSize
  split <;> omega

/-- A non-owning view: a null pointer with some size, or a pointer to bytes. -/
inductive ProfileByteView where
  | null (size : Nat)
  | of (bytes : List UInt8)
deriving DecidableEq, Repr

namespace ProfileByteView

/-- The bytes the view covers. -/
def data : ProfileByteView → List UInt8
  | .null _ => []
  | .of bytes => bytes

/-- The size member of the view. -/
def size : ProfileByteView → Nat
  | .null n => n
  | .of bytes => bytes.length

end ProfileByteView

/-- `IsValidByteView`. -/
def isValidByteView : ProfileByteView → Bool
  | .null n => n == 0
  | .of _ => true

/-- A view that passed its check covers as many bytes as it says. -/
theorem size_eq_length {view : ProfileByteView} (h : isValidByteView view = true) :
    view.size = view.data.length := by
  cases view with
  | null n => exact beq_iff_eq.mp h
  | of bytes => rfl

/-- A caller's output buffer: its storage, and the value behind the written
    size pointer if that pointer is not null. -/
structure ProfileMutableBuffer where
  data : ProfileByteView
  writtenSize : Option Nat
deriving DecidableEq, Repr

/-- `IsValidMutableBuffer`. -/
def isValidMutableBuffer (buffer : ProfileMutableBuffer) : Bool :=
  buffer.writtenSize.isSome && isValidByteView buffer.data

namespace ProfileMutableBuffer

/-- The size member of the buffer. -/
def size (buffer : ProfileMutableBuffer) : Nat := buffer.data.size

/-- `*output.writtenSize = n`. -/
def setWritten (buffer : ProfileMutableBuffer) (n : Nat) : ProfileMutableBuffer :=
  { buffer with writtenSize := buffer.writtenSize.map fun _ => n }

/-- `std::copy` of the APDU to the front of the storage. -/
def copy (buffer : ProfileMutableBuffer) (apdu : List UInt8) : ProfileMutableBuffer :=
  match buffer.data with
  | .null _ => buffer
  | .of bytes => { buffer with data := .of (apdu ++ bytes.drop apdu.length) }

/-- The bytes a caller reads after an `Ok`: as many as were written. -/
def received (buffer : ProfileMutableBuffer) : List UInt8 :=
  buffer.data.data.take (buffer.writtenSize.getD 0)

/-- A buffer that passed its check and has room reads back what was copied
    into it. -/
theorem received_copy (buffer : ProfileMutableBuffer) (apdu : List UInt8)
    (hvalid : isValidMutableBuffer buffer = true) (hroom : apdu.length ≤ buffer.size) :
    ((buffer.copy apdu).setWritten apdu.length).received = apdu := by
  rcases buffer with ⟨_ | bytes, _ | written⟩
  all_goals simp only [isValidMutableBuffer, isValidByteView, Option.isSome_none,
    Option.isSome_some, Bool.false_and, Bool.true_and, Bool.false_eq_true, beq_iff_eq] at hvalid
  · -- A null buffer has no size, so only the empty APDU fits.
    simp only [size, ProfileByteView.size, hvalid, Nat.le_zero, List.length_eq_zero_iff] at hroom
    simp only [hroom, received, copy, setWritten, ProfileByteView.data, List.take_nil]
  · simp only [received, copy, setWritten, ProfileByteView.data, Option.map_some, Option.getD_some,
      List.take_left]

end ProfileMutableBuffer

/-- Resetting the written size does not undo the check. -/
theorem isValidMutableBuffer_setWritten {buffer : ProfileMutableBuffer} {n : Nat}
    (h : isValidMutableBuffer buffer = true) :
    isValidMutableBuffer (buffer.setWritten n) = true := by
  simpa only [isValidMutableBuffer, ProfileMutableBuffer.setWritten, Option.isSome_map] using h

end DlmsProfile
