import DlmsProfile.Core.Options
import DlmsProfile.Core.Transport
import DlmsProfile.Library.Framing

/-!
# The Wrapper Library

The wrapper codec and its stream decoder are another repository, so they are a
parameter here: `WrapperLib` lists what the two wrapper channels call, and the
structures below it state what those calls promise. A result about a channel
takes the promises it needs as hypotheses.

## Main definitions

* `WrapperLib`: The calls the wrapper channels make.
* `makeWrapperLimits`: The codec limits a channel is built with.
* `WrapperStreamLaw`: The stream decoder parses WPDUs incrementally.
* `WrapperCodecLaw`: Encoding and decoding are inverse within their limits.
-/

namespace DlmsProfile

/-- A wrapper frame: the two ports and the data. -/
structure WrapperFrame where
  sourcePort : UInt16
  destinationPort : UInt16
  data : List UInt8
deriving DecidableEq, Repr

/-- The limits a wrapper codec works within. -/
structure WrapperCodecLimits where
  maximumDataSize : Nat
  maximumFrameSize : Nat
deriving DecidableEq, Repr

/-- `kWrapperHeaderSize`. -/
def wrapperHeaderSize : Nat := 8

/-- What the wrapper channels call of the wrapper library. -/
structure WrapperLib where
  Decoder : Type
  defaultLimits : WrapperCodecLimits
  encodeWpdu : WrapperFrame → WrapperCodecLimits → WrapperStatus × List UInt8
  decodeWpdu : List UInt8 → WrapperCodecLimits → WrapperStatus × WrapperFrame
  newDecoder : WrapperCodecLimits → Decoder
  push : Decoder → List UInt8 → WrapperStatus × List WrapperFrame × Decoder
  reset : Decoder → Decoder

/-- `MakeWrapperLimits`: the configured APDU size narrows the library's data
    limit, never widens it. -/
def makeWrapperLimits (W : WrapperLib) (options : ApduChannelOptions) : WrapperCodecLimits :=
  if options.maximumApduSize ≠ 0 ∧ options.maximumApduSize < W.defaultLimits.maximumDataSize then
    { maximumDataSize := options.maximumApduSize
      maximumFrameSize := sizeAdd wrapperHeaderSize options.maximumApduSize }
  else W.defaultLimits

/-- A stream decoder made with the given limits is an incremental parser of
    WPDUs: it keeps a partial frame, hands over every frame a push completes
    in order, and hands those over also when the push ends in a rejection. -/
structure WrapperStreamLaw (W : WrapperLib) (limits : WrapperCodecLimits) where
  framer : Framing.Framer UInt8 WrapperFrame WrapperStatus
  live : W.Decoder → Prop
  view : W.Decoder → List UInt8
  follows : Framing.Follows framer live view W.push
    (fun st => mapWrapperStatus st = .ok) (fun st => mapWrapperStatus st = .needMoreData)
  new : live (W.newDecoder limits) ∧ view (W.newDecoder limits) = []
  reset : ∀ {d}, live d → live (W.reset d) ∧ view (W.reset d) = []
  encodes : ∀ {frame wpdu}, W.encodeWpdu frame limits = (.ok, wpdu) → framer.Encodes wpdu frame

/-- Encoding and decoding are inverse within the same limits, and a WPDU is
    its header and its data. -/
structure WrapperCodecLaw (W : WrapperLib) (limits : WrapperCodecLimits) : Prop where
  decode_encode : ∀ {frame wpdu}, W.encodeWpdu frame limits = (.ok, wpdu) →
    W.decodeWpdu wpdu limits = (.ok, frame)
  encode_decode : ∀ {frame wpdu}, W.decodeWpdu wpdu limits = (.ok, frame) →
    W.encodeWpdu frame limits = (.ok, wpdu)
  encode_length : ∀ {frame wpdu}, W.encodeWpdu frame limits = (.ok, wpdu) →
    wpdu.length = wrapperHeaderSize + frame.data.length

end DlmsProfile
