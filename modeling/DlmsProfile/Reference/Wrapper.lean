import DlmsProfile.Wrapper.Codec

/-!
# A Reference Wrapper Library

A wrapper library that can be run, in the same spirit as the reference HDLC
library: version 1, two ports and a length, each two bytes long and high byte
first, then the data.

## Main definitions

* `Reference.wpduBytes`: A WPDU on the wire.
* `Reference.wrapperFramer`: The WPDU at the front of a buffer.
* `Reference.wrapperLib`: The library.

## Theorems

* `Reference.wrapperStreamLaw`: The stream decoder keeps its promises.
* `Reference.wrapperCodecLaw`: The codec keeps its promises.
-/

namespace DlmsProfile

namespace Reference

/-- A number of two bytes, high byte first. -/
def word (value : Nat) : List UInt8 := [UInt8.ofNat (value / 256), UInt8.ofNat value]

/-- The number two bytes spell. -/
def ofWord (high low : UInt8) : Nat := high.toNat * 256 + low.toNat

theorem ofWord_word {value : Nat} (h : value < 65536) :
    ofWord (UInt8.ofNat (value / 256)) (UInt8.ofNat value) = value := by
  rw [ofWord, UInt8.toNat_ofNat', UInt8.toNat_ofNat']
  omega

theorem word_ofWord (high low : UInt8) : word (ofWord high low) = [high, low] := by
  have hhigh := high.toNat_lt
  have hlow := low.toNat_lt
  have h1 : (high.toNat * 256 + low.toNat) / 256 = high.toNat := by omega
  have h2 : UInt8.ofNat (high.toNat * 256 + low.toNat) = low := by
    refine UInt8.toNat_inj.mp ?_
    rw [UInt8.toNat_ofNat']
    omega
  rw [word, ofWord, h1, h2, UInt8.ofNat_toNat]

theorem ofWord_lt (high low : UInt8) : ofWord high low < 65536 := by
  have hhigh := high.toNat_lt
  have hlow := low.toNat_lt
  rw [ofWord]
  omega

/-- A WPDU on the wire. -/
def wpduBytes (frame : WrapperFrame) : List UInt8 :=
  word 1 ++ word frame.sourcePort.toNat ++ word frame.destinationPort.toNat ++
    word frame.data.length ++ frame.data

/-- `EncodeWpdu`. -/
def encodeWpdu (frame : WrapperFrame) (limits : WrapperCodecLimits) :
    WrapperStatus × List UInt8 :=
  if limits.maximumDataSize < frame.data.length ∨ 65535 < frame.data.length then
    (.dataTooLarge, [])
  else if limits.maximumFrameSize < wrapperHeaderSize + frame.data.length then
    (.frameTooLarge, [])
  else (.ok, wpduBytes frame)

/-- What stands at the front of a buffer. -/
def wrapperFront (limits : WrapperCodecLimits) (b : List UInt8) :
    Framing.Front UInt8 WrapperFrame WrapperStatus :=
  match b with
  | v0 :: v1 :: s0 :: s1 :: d0 :: d1 :: l0 :: l1 :: data =>
    if ofWord v0 v1 ≠ 1 then .reject .invalidVersion
    else if limits.maximumDataSize < ofWord l0 l1 then .reject .dataTooLarge
    else if limits.maximumFrameSize < wrapperHeaderSize + ofWord l0 l1 then
      .reject .frameTooLarge
    else if data.length < ofWord l0 l1 then .more b
    else
      .item ⟨UInt16.ofNat (ofWord s0 s1), UInt16.ofNat (ofWord d0 d1), data.take (ofWord l0 l1)⟩
        (data.drop (ofWord l0 l1))
  | _ => .more b

theorem wrapperFront_more {limits : WrapperCodecLimits} {b k : List UInt8}
    (h : wrapperFront limits b = .more k) : k = b := by
  unfold wrapperFront at h
  -- What is not complete is kept as it is, be it the header or the data.
  split at h
  · split at h
    · cases h
    split at h
    · cases h
    split at h
    · cases h
    split at h
    · exact (Framing.Front.more.inj h).symm
    · cases h
  · exact (Framing.Front.more.inj h).symm

/-- A verdict looks at the header and the announced data only. -/
theorem wrapperFront_append {limits : WrapperCodecLimits} {b : List UInt8} (c : List UInt8)
    (h : ∀ k, wrapperFront limits b ≠ .more k) :
    wrapperFront limits (b ++ c) = match wrapperFront limits b with
      | .more k => .more k
      | .item frame rest => .item frame (rest ++ c)
      | .reject status => .reject status := by
  unfold wrapperFront at h
  split at h
  · next v0 v1 s0 s1 d0 d1 l0 l1 data =>
      simp only [wrapperFront, List.cons_append]
      -- The checks look at the header only, and the data are there in full.
      by_cases hv : ofWord v0 v1 ≠ 1
      · simp only [if_pos hv]
      simp only [if_neg hv] at h ⊢
      by_cases hd : limits.maximumDataSize < ofWord l0 l1
      · simp only [if_pos hd]
      simp only [if_neg hd] at h ⊢
      by_cases hf : limits.maximumFrameSize < wrapperHeaderSize + ofWord l0 l1
      · simp only [if_pos hf]
      simp only [if_neg hf] at h ⊢
      by_cases hl : data.length < ofWord l0 l1
      · simp only [if_pos hl] at h
        exact absurd rfl (h _)
      have hl' : ¬ (data ++ c).length < ofWord l0 l1 := by
        rw [List.length_append]
        omega
      rw [Nat.not_lt] at hl
      simp only [if_neg hl', if_neg (Nat.not_lt.mpr hl), List.take_append_of_le_length hl,
        List.drop_append_of_le_length hl]
  · exact absurd rfl (h _)

/-- The WPDU at the front of a buffer, for WPDUs within the given limits. -/
def wrapperFramer (limits : WrapperCodecLimits) :
    Framing.Framer UInt8 WrapperFrame WrapperStatus where
  front := wrapperFront limits
  front_nil := rfl
  more_append := by
    intro b k c h
    rw [wrapperFront_more h]
  item_shorter := by
    intro b frame r h
    unfold wrapperFront at h
    split at h
    · next data =>
        split at h
        · cases h
        split at h
        · cases h
        split at h
        · cases h
        split at h
        · cases h
        · rw [← (Framing.Front.item.inj h).2]
          simp only [List.length_drop, List.length_cons]
          omega
    · cases h
  item_append := by
    intro b frame r c h
    rw [wrapperFront_append c (by rw [h]; nofun), h]
  reject_append := by
    intro b status c h
    rw [wrapperFront_append c (by rw [h]; nofun), h]

theorem wrapperFramer_front (limits : WrapperCodecLimits) :
    (wrapperFramer limits).front = wrapperFront limits := rfl

/-- A rejection is told apart from success and from waiting. -/
theorem wrapperFront_reject {limits : WrapperCodecLimits} {b : List UInt8} {status : WrapperStatus}
    (h : wrapperFront limits b = .reject status) :
    mapWrapperStatus status ≠ .ok ∧ mapWrapperStatus status ≠ .needMoreData := by
  unfold wrapperFront at h
  -- Each status it reports is one of an error.
  split at h
  · split at h
    · cases h
      decide
    split at h
    · cases h
      decide
    split at h
    · cases h
      decide
    split at h <;> cases h
  · cases h

/-- `DecodeWpdu`. -/
def decodeWpdu (bytes : List UInt8) (limits : WrapperCodecLimits) :
    WrapperStatus × WrapperFrame :=
  match wrapperFront limits bytes with
  | .item frame [] => (.ok, frame)
  | .item frame _ => (.invalidLength, frame)
  | .reject status => (status, ⟨0, 0, []⟩)
  | .more _ => (.needMoreData, ⟨0, 0, []⟩)

/-- The library. -/
def wrapperLib : WrapperLib where
  Decoder := Framing.Scanner WrapperCodecLimits UInt8
  defaultLimits := ⟨65527, 65535⟩
  encodeWpdu := encodeWpdu
  decodeWpdu := decodeWpdu
  newDecoder limits := ⟨limits, []⟩
  push := Framing.Scanner.push wrapperFramer .ok .needMoreData
  reset decoder := { decoder with kept := [] }

/-- A WPDU within the limits is all there is at the front of itself. -/
theorem wrapperFront_wpduBytes {limits : WrapperCodecLimits} {frame : WrapperFrame}
    (hdata : frame.data.length ≤ limits.maximumDataSize) (hword : frame.data.length < 65536)
    (hframe : wrapperHeaderSize + frame.data.length ≤ limits.maximumFrameSize) :
    wrapperFront limits (wpduBytes frame) = .item frame [] := by
  have hlen := ofWord_word hword
  have hsource := ofWord_word frame.sourcePort.toNat_lt
  have hdest := ofWord_word frame.destinationPort.toNat_lt
  have hversion : ¬ ofWord (UInt8.ofNat (1 / 256)) (UInt8.ofNat 1) ≠ 1 := by decide
  simp only [wpduBytes, word, List.cons_append, List.nil_append, wrapperFront, hlen, hsource,
    hdest]
  rw [if_neg hversion, if_neg (Nat.not_lt.mpr hdata), if_neg (Nat.not_lt.mpr hframe),
    if_neg (Nat.lt_irrefl _), List.take_length, List.drop_length, UInt16.ofNat_toNat,
    UInt16.ofNat_toNat]

/-- What encoding takes for granted. -/
theorem encodeWpdu_ok {frame : WrapperFrame} {limits : WrapperCodecLimits} {wpdu : List UInt8} :
    encodeWpdu frame limits = (.ok, wpdu) ↔
      frame.data.length ≤ limits.maximumDataSize ∧ frame.data.length < 65536 ∧
        wrapperHeaderSize + frame.data.length ≤ limits.maximumFrameSize ∧
        wpdu = wpduBytes frame := by
  rw [encodeWpdu]
  -- The two checks of the encoder, the first of which covers two bounds.
  split
  · exact iff_of_false nofun (by omega)
  next hdata =>
    split
    · exact iff_of_false nofun (by omega)
    next hframe =>
      rw [not_or, Nat.not_lt, Nat.not_lt] at hdata
      rw [Prod.mk.injEq, and_iff_right rfl, and_iff_right hdata.1,
        and_iff_right (Nat.lt_succ_of_le hdata.2), and_iff_right (Nat.not_lt.mp hframe), eq_comm]

/-- A WPDU on the wire is found again. -/
theorem wrapperFramer_encodes {limits : WrapperCodecLimits} {frame : WrapperFrame}
    {wpdu : List UInt8} (h : encodeWpdu frame limits = (.ok, wpdu)) :
    (wrapperFramer limits).Encodes wpdu frame := by
  rcases encodeWpdu_ok.mp h with ⟨hdata, hword, hframe, rfl⟩
  rw [Framing.Framer.Encodes, wrapperFramer_front]
  exact wrapperFront_wpduBytes hdata hword hframe

/-- A verdict about a buffer that holds one item and nothing else comes from the
    bytes of that item. -/
theorem wpduBytes_of_front {limits : WrapperCodecLimits} {b : List UInt8} {frame : WrapperFrame}
    (h : wrapperFront limits b = .item frame []) :
    encodeWpdu frame limits = (.ok, b) := by
  unfold wrapperFront at h
  split at h
  · next v0 v1 s0 s1 d0 d1 l0 l1 data =>
      split at h
      · cases h
      next hversion =>
      split at h
      · cases h
      next hdata =>
      split at h
      · cases h
      next hframe =>
      split at h
      · cases h
      next hlen =>
        obtain ⟨rfl, hdrop⟩ := Framing.Front.item.inj h
        -- Nothing is left over, so the data are all there is behind the header.
        have hall : data.length = ofWord l0 l1 :=
          Nat.le_antisymm (List.drop_eq_nil_iff.mp hdrop) (Nat.not_lt.mp hlen)
        have htake : data.take (ofWord l0 l1) = data := by rw [← hall, List.take_length]
        have hlow := ofWord_lt l0 l1
        have hsource : (UInt16.ofNat (ofWord s0 s1)).toNat = ofWord s0 s1 :=
          UInt16.toNat_ofNat_of_lt' (ofWord_lt s0 s1)
        have hdest : (UInt16.ofNat (ofWord d0 d1)).toNat = ofWord d0 d1 :=
          UInt16.toNat_ofNat_of_lt' (ofWord_lt d0 d1)
        refine encodeWpdu_ok.mpr ?_
        simp only [htake, hall, wpduBytes, hsource, hdest, word_ofWord]
        refine ⟨Nat.not_lt.mp hdata, hlow, Nat.not_lt.mp hframe, ?_⟩
        have hone := word_ofWord v0 v1
        rw [not_not.mp hversion] at hone
        rw [hone]
        rfl
  · cases h

theorem wrapperLib_decodeWpdu : wrapperLib.decodeWpdu = decodeWpdu := rfl

/-- The stream decoder keeps its promises. -/
def wrapperStreamLaw (limits : WrapperCodecLimits) : WrapperStreamLaw wrapperLib limits where
  framer := wrapperFramer limits
  live d := d.key = limits
  view := Framing.Scanner.kept
  follows := Framing.Scanner.follows wrapperFramer _ _ limits _ _ rfl rfl fun _ _ _ h =>
    have ⟨_, hfront⟩ := Framing.Framer.scan_reject h
    wrapperFront_reject hfront
  new := ⟨rfl, rfl⟩
  reset h := ⟨h, rfl⟩
  encodes h := wrapperFramer_encodes h

/-- The codec keeps its promises. -/
theorem wrapperCodecLaw (limits : WrapperCodecLimits) : WrapperCodecLaw wrapperLib limits where
  decode_encode := by
    intro frame wpdu h
    rcases encodeWpdu_ok.mp h with ⟨hdata, hword, hframe, rfl⟩
    rw [wrapperLib_decodeWpdu, decodeWpdu, wrapperFront_wpduBytes hdata hword hframe]
  -- What decodes is one WPDU and no more, so the encoder builds the same bytes.
  encode_decode := by
    intro frame wpdu h
    rw [wrapperLib_decodeWpdu, decodeWpdu] at h
    refine wpduBytes_of_front ?_
    split at h
    · next hf => rw [hf, (Prod.mk.inj h).2]
    · cases h
    · next hf =>
        rw [(Prod.mk.inj h).1] at hf
        exact absurd rfl (wrapperFront_reject hf).1
    · cases h
  encode_length := by
    intro frame wpdu h
    rcases encodeWpdu_ok.mp h with ⟨-, -, -, rfl⟩
    simp only [wpduBytes, word, List.length_append, List.length_cons, List.length_nil,
      wrapperHeaderSize]

end Reference

end DlmsProfile
