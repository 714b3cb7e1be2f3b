import DlmsProfile.Hdlc.Codec

/-!
# A Reference HDLC Library

A small HDLC and LLC library that can be run. The results about the channel are
about every library that keeps its promises; this is one that does, so that the
promises are seen to be keepable and a failing run can be computed rather than
described.

Frames are type 3 frames between two flags, with one-byte addresses, the header
check sequence where there is an information field, and the frame check
sequence. Bytes in front of an opening flag are noise. A session numbers
I-frames modulo 8 and judges incoming frames by N(S) and N(R). Nothing is
negotiated: each end takes its own options, which is what negotiation gives two
ends configured alike.

## Main definitions

* `Reference.frameBytes`: A frame on the wire.
* `Reference.framer`: The frame at the front of a buffer.
* `Reference.Session`: V(S), V(R) and V(A) and what they allow.
* `Reference.hdlcLib`: The library.

## Theorems

* `Reference.framer_encodes`: A frame on the wire is found again.
* `Reference.hdlcStreamLaw`, `Reference.eagerStreamLaw`: The stream decoder keeps
  its promises.
-/

namespace DlmsProfile

namespace Reference

/-- One bit of the 16-bit frame check sequence. -/
def fcsBit (register : UInt16) : UInt16 :=
  if register &&& 1 = 1 then (register >>> 1) ^^^ 0x8408 else register >>> 1

/-- One byte of the frame check sequence. -/
def fcsByte (register : UInt16) (byte : UInt8) : UInt16 :=
  fcsBit (fcsBit (fcsBit (fcsBit (fcsBit (fcsBit (fcsBit (fcsBit
    (register ^^^ byte.toUInt16))))))))

/-- The frame check sequence of some bytes, low byte first. -/
def fcs (bytes : List UInt8) : List UInt8 :=
  let register := bytes.foldl fcsByte 0xFFFF ^^^ 0xFFFF
  [register.toUInt8, (register >>> 8).toUInt8]

/-- A frame of this library: addresses and control fields are bytes. -/
abbrev Frame : Type := HdlcFrame UInt8 UInt8

/-- The number of bytes between the flags. -/
def frameSize (frame : Frame) : Nat :=
  if frame.information = [] then 7 else 9 + frame.information.length

/-- Frame format, addresses and control field. -/
def headerBytes (frame : Frame) : List UInt8 :=
  [UInt8.ofNat (0xA0 + (if frame.segmented then 8 else 0) + frameSize frame / 256),
    UInt8.ofNat (frameSize frame), frame.destination, frame.source, frame.control]

/-- What follows the header: the check sequences and the information field. -/
def trailerBytes (frame : Frame) : List UInt8 :=
  let header := headerBytes frame
  if frame.information = [] then fcs header
  else fcs header ++ frame.information ++ fcs (header ++ fcs header ++ frame.information)

/-- The opening and the closing flag. -/
def flag : UInt8 := 0x7E

/-- A frame on the wire. -/
def frameBytes (frame : Frame) : List UInt8 :=
  flag :: (headerBytes frame ++ trailerBytes frame) ++ [flag]

/-- `EncodeFrame`. No frame carries more than 2030 bytes of information. -/
def encodeFrame (frame : Frame) (limits : HdlcCodecLimits) : HdlcStatus × List UInt8 :=
  if limits.maximumInformationFieldSize < frame.information.length then
    (.informationFieldTooLarge, [])
  else if 2039 < frameSize frame then (.frameTooLarge, [])
  else (.ok, frameBytes frame)

/-- The frame the bytes between two flags spell out. -/
def parse (limits : HdlcCodecLimits) : List UInt8 → Except HdlcStatus Frame
  | format :: low :: destination :: source :: control :: trailer =>
    let frame : Frame :=
      { segmented := format.toNat / 8 % 2 = 1
        destination := destination
        source := source
        control := control
        information := (trailer.drop 2).take (trailer.length - 4) }
    let header := [format, low, destination, source, control]
    if limits.maximumInformationFieldSize < frame.information.length then
      .error .informationFieldTooLarge
    else if trailer.take 2 ≠ fcs header then .error .invalidHeaderChecksum
    else if frame.information ≠ [] ∧
        trailer.drop (trailer.length - 2) ≠ fcs (header ++ fcs header ++ frame.information) then
      .error .invalidFrameChecksum
    else .ok frame
  | _ => .error .invalidFrameLength

/-- The number of bytes between the flags, as the frame format says. -/
def announcedSize (format low : UInt8) : Nat := format.toNat % 8 * 256 + low.toNat

/-- What stands behind an opening flag. -/
def frontBehindFlag (limits : HdlcCodecLimits) (body : List UInt8) :
    Framing.Front UInt8 Frame HdlcStatus :=
  match body with
  | format :: low :: _ =>
    if format.toNat / 16 ≠ 10 then .reject .invalidFrameFormat
    else if body.length ≤ announcedSize format low then .more (flag :: body)
    else if body[announcedSize format low]? ≠ some flag then .reject .invalidFlag
    else
      match parse limits (body.take (announcedSize format low)) with
      | .ok frame => .item frame (body.drop (announcedSize format low + 1))
      | .error status => .reject status
  | _ => .more (flag :: body)

/-- What stands at the front of a buffer, noise aside. -/
def front (limits : HdlcCodecLimits) : List UInt8 → Framing.Front UInt8 Frame HdlcStatus
  | [] => .more []
  | byte :: rest => if byte = flag then frontBehindFlag limits rest else front limits rest

/-- `DecodeFrame`: one frame and nothing else. -/
def decodeFrame (bytes : List UInt8) (limits : HdlcCodecLimits) : HdlcStatus × Frame :=
  match front limits bytes with
  | .item frame [] => (.ok, frame)
  | .reject status => (status, ⟨false, 0, 0, 0, []⟩)
  | _ => (.invalidFrameLength, ⟨false, 0, 0, 0, []⟩)

theorem frontBehindFlag_more {limits : HdlcCodecLimits} {body k : List UInt8}
    (h : frontBehindFlag limits body = .more k) : k = flag :: body := by
  unfold frontBehindFlag at h
  split at h
  · split at h
    · cases h
    split at h
    · exact (Framing.Front.more.inj h).symm
    split at h
    · cases h
    split at h <;> cases h
  · exact (Framing.Front.more.inj h).symm

/-- A verdict about what stands behind a flag looks at a complete frame only, so
    more bytes do not change it. -/
theorem frontBehindFlag_append {limits : HdlcCodecLimits} {body : List UInt8} (c : List UInt8)
    (h : ∀ k, frontBehindFlag limits body ≠ .more k) :
    frontBehindFlag limits (body ++ c) = match frontBehindFlag limits body with
      | .more k => .more k
      | .item frame rest => .item frame (rest ++ c)
      | .reject status => .reject status := by
  -- The announced size is in the first two bytes, and what it spans stays the same.
  match body, h with
  | [], h => exact absurd rfl (h [flag])
  | [byte], h => exact absurd rfl (h [flag, byte])
  | format :: low :: tail, h =>
      simp only [frontBehindFlag, List.cons_append] at h ⊢
      by_cases hfmt : format.toNat / 16 ≠ 10
      · simp only [if_pos hfmt]
      simp only [if_neg hfmt] at h ⊢
      by_cases hlen : (format :: low :: tail).length ≤ announcedSize format low
      · simp only [if_pos hlen] at h
        exact absurd rfl (h _)
      have hlen' : ¬ (format :: low :: (tail ++ c)).length ≤ announcedSize format low := by
        simp only [List.length_cons, List.length_append] at hlen ⊢
        omega
      have hlt := Nat.lt_of_not_le hlen
      have hget : (format :: low :: (tail ++ c))[announcedSize format low]? =
          (format :: low :: tail)[announcedSize format low]? :=
        List.getElem?_append_left hlt
      have htake : (format :: low :: (tail ++ c)).take (announcedSize format low) =
          (format :: low :: tail).take (announcedSize format low) :=
        List.take_append_of_le_length hlt.le
      have hdrop : (format :: low :: (tail ++ c)).drop (announcedSize format low + 1) =
          (format :: low :: tail).drop (announcedSize format low + 1) ++ c :=
        List.drop_append_of_le_length hlt
      simp only [if_neg hlen, if_neg hlen', hget, htake, hdrop]
      split
      · rfl
      · cases parse limits ((format :: low :: tail).take (announcedSize format low)) <;> rfl

theorem frontBehindFlag_shorter {limits : HdlcCodecLimits} {body rest : List UInt8} {frame : Frame}
    (h : frontBehindFlag limits body = .item frame rest) : rest.length ≤ body.length := by
  unfold frontBehindFlag at h
  -- What is left is what stands behind the closing flag.
  split at h
  · split at h
    · cases h
    split at h
    · cases h
    split at h
    · cases h
    split at h
    · rw [← (Framing.Front.item.inj h).2, List.length_drop]
      exact Nat.sub_le _ _
    · cases h
  · cases h

/-- The frame at the front of a buffer, for frames within the given limits. -/
def framer (limits : HdlcCodecLimits) : Framing.Framer UInt8 Frame HdlcStatus where
  front := front limits
  front_nil := rfl
  more_append := by
    intro b k c h
    induction b with
    | nil =>
        rw [front] at h
        rw [← Framing.Front.more.inj h]
    | cons byte rest ih =>
        rw [front] at h
        rw [List.cons_append, front]
        split at h
        · next hflag =>
            rw [frontBehindFlag_more h, if_pos hflag, List.cons_append, front, if_pos rfl]
        · next hflag =>
            rw [if_neg hflag]
            exact ih h
  item_shorter := by
    intro b frame r h
    induction b with
    | nil => cases h
    | cons byte rest ih =>
        rw [front] at h
        split at h
        · exact Nat.lt_succ_of_le (frontBehindFlag_shorter h)
        · exact (ih h).trans (Nat.lt_succ_self _)
  item_append := by
    intro b frame r c h
    induction b with
    | nil => cases h
    | cons byte rest ih =>
        rw [front] at h
        rw [List.cons_append, front]
        split at h
        · next hflag =>
            rw [if_pos hflag, frontBehindFlag_append c (by rw [h]; nofun), h]
        · next hflag =>
            rw [if_neg hflag]
            exact ih h
  reject_append := by
    intro b status c h
    induction b with
    | nil => cases h
    | cons byte rest ih =>
        rw [front] at h
        rw [List.cons_append, front]
        split at h
        · next hflag =>
            rw [if_pos hflag, frontBehindFlag_append c (by rw [h]; nofun), h]
        · next hflag =>
            rw [if_neg hflag]
            exact ih h

theorem fcs_length (bytes : List UInt8) : (fcs bytes).length = 2 := rfl

theorem contents_length (frame : Frame) :
    (headerBytes frame ++ trailerBytes frame).length = frameSize frame := by
  rw [List.length_append, trailerBytes, frameSize]
  split
  · rfl
  · simp only [headerBytes, List.length_append, fcs_length, List.length_cons, List.length_nil]
    omega

/-- The first byte of a frame, its three parts apart. -/
theorem format_toNat (frame : Frame) (h : frameSize frame ≤ 2039) :
    (UInt8.ofNat (0xA0 + (if frame.segmented then 8 else 0) + frameSize frame / 256)).toNat =
      0xA0 + (if frame.segmented then 8 else 0) + frameSize frame / 256 := by
  refine UInt8.toNat_ofNat_of_lt' ?_
  change _ < 256
  split <;> omega

theorem announcedSize_header (frame : Frame) (h : frameSize frame ≤ 2039) :
    announcedSize (UInt8.ofNat (0xA0 + (if frame.segmented then 8 else 0) + frameSize frame / 256))
      (UInt8.ofNat (frameSize frame)) = frameSize frame := by
  rw [announcedSize, format_toNat frame h, UInt8.toNat_ofNat']
  split <;> omega

/-- The information field between the two check sequences. -/
theorem information_trailer (frame : Frame) :
    ((trailerBytes frame).drop 2).take ((trailerBytes frame).length - 4) = frame.information := by
  rw [trailerBytes]
  split
  · next hnil => rw [hnil, fcs_length, List.take_zero]
  · rw [List.append_assoc, List.drop_left' (fcs_length _), List.length_append, List.length_append,
      fcs_length, fcs_length, Nat.add_comm 2, Nat.add_assoc, Nat.add_sub_cancel, List.take_left]

theorem header_trailer (frame : Frame) : (trailerBytes frame).take 2 = fcs (headerBytes frame) := by
  rw [trailerBytes]
  split
  · exact List.take_of_length_le (Nat.le_of_eq (fcs_length _))
  · rw [List.append_assoc, List.take_left' (fcs_length _)]

theorem check_trailer (frame : Frame) (h : frame.information ≠ []) :
    (trailerBytes frame).drop ((trailerBytes frame).length - 2) =
      fcs (headerBytes frame ++ fcs (headerBytes frame) ++ frame.information) := by
  rw [trailerBytes, if_neg h, List.length_append, fcs_length, Nat.add_sub_cancel, List.drop_left]

theorem parse_contents {limits : HdlcCodecLimits} {frame : Frame}
    (hsize : frameSize frame ≤ 2039)
    (hinfo : frame.information.length ≤ limits.maximumInformationFieldSize) :
    parse limits (headerBytes frame ++ trailerBytes frame) = .ok frame := by
  -- The bit of a segment is read back off the format byte.
  have hseg : decide ((UInt8.ofNat (0xA0 + (if frame.segmented then 8 else 0) +
      frameSize frame / 256)).toNat / 8 % 2 = 1) = frame.segmented := by
    rw [format_toNat frame hsize]
    cases frame.segmented
    · refine decide_eq_false ?_
      simp only [Bool.false_eq_true, if_false]
      omega
    · refine decide_eq_true ?_
      simp only [if_true]
      omega
  have hheader := header_trailer frame
  have hcheck := check_trailer frame
  rw [headerBytes] at hheader hcheck ⊢
  simp only [List.cons_append, List.nil_append] at hheader hcheck ⊢
  simp only [parse, information_trailer, hseg, hheader]
  rw [if_neg (Nat.not_lt.mpr hinfo), if_neg (not_not.mpr rfl),
    if_neg (fun h => h.2 (hcheck h.1))]

/-- Contents that announce their own length, and the closing flag. -/
theorem frontBehindFlag_contents {limits : HdlcCodecLimits} {format low : UInt8}
    {tail : List UInt8} (hfmt : format.toNat / 16 = 10)
    (hsize : announcedSize format low = (format :: low :: tail).length) :
    frontBehindFlag limits ((format :: low :: tail) ++ [flag]) =
      match parse limits (format :: low :: tail) with
      | .ok frame => .item frame []
      | .error status => .reject status := by
  have hget : ((format :: low :: tail) ++ [flag])[announcedSize format low]? = some flag := by
    rw [hsize, List.getElem?_append_right (Nat.le_refl _), Nat.sub_self]
    rfl
  have htake : ((format :: low :: tail) ++ [flag]).take (announcedSize format low) =
      format :: low :: tail := by
    rw [hsize, List.take_left]
  have hdrop : ((format :: low :: tail) ++ [flag]).drop (announcedSize format low + 1) = [] := by
    refine List.drop_of_length_le ?_
    rw [hsize, List.length_append, List.length_singleton]
  -- The closing flag stands where the size says, and nothing behind it.
  have hlen : ¬ ((format :: low :: tail) ++ [flag]).length ≤ announcedSize format low := by
    rw [hsize, List.length_append, List.length_singleton]
    omega
  simp only [List.cons_append] at hget htake hdrop hlen ⊢
  simp only [frontBehindFlag]
  rw [if_neg (not_not.mpr hfmt), if_neg hlen, if_neg (not_not.mpr hget), htake, hdrop]

/-- What stands at the front of the bytes of a frame is what its contents spell
    out. -/
theorem front_frameBytes {limits : HdlcCodecLimits} {frame : Frame}
    (hsize : frameSize frame ≤ 2039) :
    front limits (frameBytes frame) =
      match parse limits (headerBytes frame ++ trailerBytes frame) with
      | .ok frame => .item frame []
      | .error status => .reject status := by
  have hfmt : (UInt8.ofNat (0xA0 + (if frame.segmented then 8 else 0) +
      frameSize frame / 256)).toNat / 16 = 10 := by
    rw [format_toNat frame hsize]
    split <;> omega
  have hannounced := (announcedSize_header frame hsize).trans (contents_length frame).symm
  rw [frameBytes, List.cons_append, front, if_pos rfl]
  exact frontBehindFlag_contents hfmt hannounced

theorem framer_frameBytes {limits : HdlcCodecLimits} {frame : Frame}
    (hsize : frameSize frame ≤ 2039)
    (hinfo : frame.information.length ≤ limits.maximumInformationFieldSize) :
    (framer limits).Encodes (frameBytes frame) frame := by
  change front limits (frameBytes frame) = _
  rw [front_frameBytes hsize, parse_contents hsize hinfo]

/-- A frame on the wire is found again. -/
theorem framer_encodes {limits : HdlcCodecLimits} {frame : Frame} {bytes : List UInt8}
    (h : encodeFrame frame limits = (.ok, bytes)) : (framer limits).Encodes bytes frame := by
  rw [encodeFrame] at h
  split at h
  · cases h
  next hinfo =>
    split at h
    · cases h
    next hsize =>
      rw [← (Prod.mk.inj h).2]
      exact framer_frameBytes (Nat.not_lt.mp hsize) (Nat.not_lt.mp hinfo)

theorem parse_error {limits : HdlcCodecLimits} {contents : List UInt8} {status : HdlcStatus}
    (h : parse limits contents = .error status) :
    mapHdlcStatus status ≠ .ok ∧ mapHdlcStatus status ≠ .needMoreData := by
  -- Each status it reports is one of an error.
  unfold parse at h
  split at h
  · simp only at h
    split at h
    · cases h
      decide
    split at h
    · cases h
      decide
    split at h
    · cases h
      decide
    · cases h
  · cases h
    decide

/-- A rejection is told apart from success and from waiting. -/
theorem front_reject {limits : HdlcCodecLimits} {b : List UInt8} {status : HdlcStatus}
    (h : front limits b = .reject status) :
    mapHdlcStatus status ≠ .ok ∧ mapHdlcStatus status ≠ .needMoreData := by
  -- On the bytes, those in front of the first flag being skipped.
  induction b with
  | nil => cases h
  | cons byte rest ih =>
      rw [front] at h
      split at h
      swap
      · exact ih h
      unfold frontBehindFlag at h
      split at h
      swap
      · cases h
      split at h
      · cases h
        decide
      split at h
      · cases h
      split at h
      · cases h
        decide
      split at h
      · cases h
      next hparse =>
        rw [← Framing.Front.reject.inj h]
        exact parse_error hparse

/-- `HdlcReassembler`: the segments collected so far. It collects without
    limit. -/
structure Reassembler where
  collected : List Frame
deriving DecidableEq, Repr

/-- `HdlcControl::FrameKind`. -/
def frameKind (control : UInt8) : HdlcFrameKind :=
  if control.toNat % 2 = 0 then .information
  else if control.toNat % 4 = 1 then .supervisory
  else .unnumbered

/-- N(S). -/
def sendSequence (control : UInt8) : Fin 8 := Fin.ofNat 8 (control.toNat / 2)

/-- N(R). -/
def receiveSequence (control : UInt8) : Fin 8 := Fin.ofNat 8 (control.toNat / 32)

/-- `PushFrame`: only I-frames are collected, and put together under the header
    of the first. -/
def pushFrame (reassembler : Reassembler) (frame : Frame) :
    HdlcStatus × (Frame × Bool) × Reassembler :=
  if frameKind frame.control ≠ .information then (.ok, (frame, false), reassembler)
  else
    let frames := reassembler.collected ++ [frame]
    if frame.segmented then (.segmentationIncomplete, (frame, false), ⟨frames⟩)
    else
      let whole : Frame :=
        { reassembler.collected.headD frame with
          segmented := false
          information := frames.flatMap (·.information) }
      (.ok, (whole, true), ⟨[]⟩)

/-- `HdlcSession`: its options, its state and the three state variables. -/
structure Session where
  options : HdlcSessionOptions UInt8
  state : HdlcSessionState
  vs : Fin 8
  vr : Fin 8
  va : Fin 8
deriving DecidableEq, Repr

/-- The constructor. -/
def newSession (options : HdlcSessionOptions UInt8) : Session where
  options := options
  state := .disconnected
  vs := 0
  vr := 0
  va := 0

/-- A window of one to seven frames. -/
def windowSize (own : UInt8) : UInt8 := if own = 0 then 1 else if 7 < own then 7 else own

theorem windowSize_le (own : UInt8) : (windowSize own).toNat ≤ 7 := by
  rw [windowSize]
  split
  · decide
  split
  · decide
  next h => exact UInt8.le_iff_toNat_le.mp (UInt8.not_lt.mp h)

theorem windowSize_pos (own : UInt8) : 0 < (windowSize own).toNat := by
  rw [windowSize]
  split
  · decide
  next h =>
    split
    · decide
    · exact Nat.pos_of_ne_zero fun hz => h (UInt8.toNat_inj.mp hz)

/-- Both ends configured alike: the options, with the defaults of the protocol
    for those left at zero. -/
def negotiatedLimits (session : Session) : HdlcSessionNegotiationLimits :=
  let own := session.options.negotiationLimits
  { maxInformationFieldLengthTransmit :=
      if own.maxInformationFieldLengthTransmit = 0 then 128
      else own.maxInformationFieldLengthTransmit
    maxInformationFieldLengthReceive :=
      if own.maxInformationFieldLengthReceive = 0 then 128
      else own.maxInformationFieldLengthReceive
    windowSizeTransmit := windowSize own.windowSizeTransmit
    windowSizeReceive := windowSize own.windowSizeReceive }

/-- `CanSendInformationFrame`: the window is not full. -/
def canSendInformationFrame (session : Session) : Bool :=
  decide ((session.vs - session.va).val < (negotiatedLimits session).windowSizeTransmit.toNat)

/-- A frame to the other end. -/
def frameTo (session : Session) (control : UInt8) (information : List UInt8) : Frame where
  segmented := false
  destination :=
    if session.options.role = .client then session.options.serverAddress
    else session.options.clientAddress
  source :=
    if session.options.role = .client then session.options.clientAddress
    else session.options.serverAddress
  control := control
  information := information

/-- Build a frame if the session is in the given state, and move on if it could
    be encoded. -/
def build (session : Session) (allowed : Bool) (control : UInt8) (information : List UInt8)
    (next : Session) : HdlcStatus × List UInt8 × Session :=
  if allowed then
    let encoded := encodeFrame (frameTo session control information) session.options.limits
    (encoded.1, encoded.2, if encoded.1 = .ok then next else session)
  else (.unsupportedFrame, [], session)

/-- The control field of an I-frame. -/
def informationControl (session : Session) (pollFinal : Bool) : UInt8 :=
  UInt8.ofNat (session.vr.val * 32 + (if pollFinal then 16 else 0) + session.vs.val * 2)

/-- The control field of an RR frame. -/
def receiveReadyControl (session : Session) (pollFinal : Bool) : UInt8 :=
  UInt8.ofNat (session.vr.val * 32 + (if pollFinal then 16 else 0) + 1)

/-- The control fields of SNRM, UA and DISC, with the poll bit. -/
def snrm : UInt8 := 0x93
def ua : UInt8 := 0x73
def disc : UInt8 := 0x53

def buildConnectRequest (session : Session) : HdlcStatus × List UInt8 × Session :=
  build session (session.state = .disconnected ∧ session.options.role = .client) snrm []
    { session with state := .connecting }

def buildConnectResponse (session : Session) : HdlcStatus × List UInt8 × Session :=
  build session (session.state = .connecting ∧ session.options.role = .server) ua []
    { session with state := .connected, vs := 0, vr := 0, va := 0 }

def buildDisconnectRequest (session : Session) : HdlcStatus × List UInt8 × Session :=
  build session (session.state = .connected) disc [] { session with state := .disconnecting }

def buildInformationFrame (session : Session) (information : List UInt8) (pollFinal : Bool) :
    HdlcStatus × List UInt8 × Session :=
  build session (session.state = .connected ∧ canSendInformationFrame session = true)
    (informationControl session pollFinal) information { session with vs := session.vs + 1 }

def buildReceiveReadyFrame (session : Session) (pollFinal : Bool) :
    HdlcStatus × List UInt8 × Session :=
  build session (session.state = .connected) (receiveReadyControl session pollFinal) [] session

/-- N(R) lies between V(A) and V(S). -/
def acknowledges (session : Session) (control : UInt8) : Bool :=
  decide ((receiveSequence control - session.va).val ≤ (session.vs - session.va).val)

/-- What a connected session makes of a frame. -/
def judge (session : Session) (control : UInt8) : HdlcStatus × Session :=
  match frameKind control with
  | .information =>
    if sendSequence control = session.vr ∧ acknowledges session control = true then
      (.ok, { session with vr := session.vr + 1, va := receiveSequence control })
    else (.invalidControlField, session)
  | .supervisory =>
    if acknowledges session control = true then
      (.ok, { session with va := receiveSequence control })
    else (.invalidControlField, session)
  | .unnumbered => (.unsupportedFrame, session)

/-- `ReceiveFrame`. While a command is pending, frames still in flight are let
    through without effect. -/
def receiveFrame (session : Session) (frame : Frame) : HdlcStatus × Session :=
  match session.state with
  | .connected => judge session frame.control
  | .disconnected =>
    if frame.control = snrm ∧ session.options.role = .server then
      (.ok, { session with state := .connecting })
    else (.unsupportedFrame, session)
  | .connecting =>
    if frameKind frame.control ≠ .unnumbered then (.ok, session)
    else if frame.control = ua ∧ session.options.role = .client then
      (.ok, { session with state := .connected, vs := 0, vr := 0, va := 0 })
    else if frame.control = snrm ∧ session.options.role = .server then (.ok, session)
    else (.unsupportedFrame, session)
  | .disconnecting =>
    if frameKind frame.control ≠ .unnumbered then (.ok, session)
    else if frame.control = ua then (.ok, { session with state := .disconnected })
    else (.unsupportedFrame, session)

/-- `ReceiveFrame` of a library whose connected server lets its peer release or
    establish the link again. -/
def receiveCommand (session : Session) (frame : Frame) : HdlcStatus × Session :=
  if session.state = .connected ∧ session.options.role = .server ∧ frame.control = disc then
    (.ok, { session with state := .disconnected })
  else if session.state = .connected ∧ session.options.role = .server ∧ frame.control = snrm then
    (.ok, { session with state := .connecting })
  else receiveFrame session frame

/-- The one-byte form of an address. -/
def address (value : Nat) : HdlcStatus × UInt8 :=
  if value < 128 then (.ok, UInt8.ofNat (2 * value + 1)) else (.invalidAddress, 0)

/-- `EncodeLpdu`: DSAP, SSAP and control in front. -/
def encodeLpdu (ssap : UInt8) (lsdu : List UInt8) : LlcStatus × List UInt8 :=
  (.ok, 0xE6 :: ssap :: 0x00 :: lsdu)

/-- `DecodeLpdu`. -/
def decodeLpdu : List UInt8 → Bool → LlcStatus × List UInt8
  | dsap :: ssap :: control :: lsdu, _ =>
    if dsap ≠ 0xE6 then (.invalidDsap, [])
    else if ssap ≠ 0xE6 ∧ ssap ≠ 0xE7 then (.invalidSsap, [])
    else if control ≠ 0x00 then (.invalidControl, [])
    else (.ok, lsdu)
  | _, _ => (.needMoreData, [])

/-- The library. -/
def hdlcLib : HdlcLib where
  Address := UInt8
  Control := UInt8
  Decoder := Framing.Scanner HdlcCodecLimits UInt8
  Reassembler := Reassembler
  Session := Session
  LlcHeader := UInt8
  makeClientAddress value := address value.toNat
  makeServerAddress logical physical :=
    if physical = 0 then address logical.toNat else (.unsupportedAddress, 0)
  decodeControl control := (.ok, control)
  frameKind := frameKind
  defaultCodecLimits := ⟨2030, 65535⟩
  encodeFrame := encodeFrame
  decodeFrame := decodeFrame
  newDecoder limits := ⟨limits, []⟩
  push := Framing.Scanner.push framer .ok .needMoreData
  resetDecoder decoder := { decoder with kept := [] }
  newReassembler _ := ⟨[]⟩
  pushFrame := pushFrame
  resetReassembler _ := ⟨[]⟩
  defaultNegotiationLimits := ⟨128, 128, 1, 1⟩
  newSession := newSession
  sessionState := Session.state
  negotiatedLimits := negotiatedLimits
  canSendInformationFrame := canSendInformationFrame
  buildConnectRequest := buildConnectRequest
  buildConnectResponse := buildConnectResponse
  buildDisconnectRequest := buildDisconnectRequest
  buildInformationFrame := buildInformationFrame
  buildReceiveReadyFrame := buildReceiveReadyFrame
  receiveFrame := receiveFrame
  makeLlcHeader direction :=
    match direction with
    | .clientToServer => 0xE6
    | .serverToClient => 0xE7
  encodeLpdu := encodeLpdu
  decodeLpdu := decodeLpdu

instance : DecidableEq hdlcLib.Frame := inferInstanceAs (DecidableEq Frame)

/-- The library whose connected server accepts commands. -/
def commandLib : HdlcLib := { hdlcLib with receiveFrame := receiveCommand }

/-- An `HdlcReassembler` that keeps to its limits. -/
structure LimitedReassembler extends Reassembler where
  limit : Nat
deriving DecidableEq, Repr

/-- `PushFrame`, of what is not too much. -/
def pushLimited (reassembler : LimitedReassembler) (frame : Frame) :
    HdlcStatus × (Frame × Bool) × LimitedReassembler :=
  if frameKind frame.control = .information ∧ reassembler.limit <
      ((reassembler.collected ++ [frame]).flatMap (·.information)).length then
    (.segmentationOverflow, (frame, false), reassembler)
  else
    let pushed := pushFrame reassembler.toReassembler frame
    (pushed.1, pushed.2.1, { reassembler with toReassembler := pushed.2.2 })

/-- The library whose reassembler keeps to its limits. By default they are what an
    I-frame of eight bytes needs. -/
def limitedLib : HdlcLib :=
  { hdlcLib with
    Reassembler := LimitedReassembler
    defaultCodecLimits := ⟨2030, 8⟩
    newReassembler := fun limits => ⟨⟨[]⟩, limits.maximumReassembledInformationSize⟩
    pushFrame := pushLimited
    resetReassembler := fun reassembler => { reassembler with collected := [] } }

instance : DecidableEq limitedLib.Frame := inferInstanceAs (DecidableEq Frame)

/-- The library whose stream decoder answers `Ok` when a push completes nothing. -/
def eagerLib : HdlcLib := { hdlcLib with push := Framing.Scanner.push framer .ok .ok }

/-- The stream decoder keeps its promises. -/
def hdlcStreamLaw (limits : HdlcCodecLimits) : HdlcStreamLaw hdlcLib limits where
  framer := framer limits
  live d := d.key = limits
  view := Framing.Scanner.kept
  follows := Framing.Scanner.follows framer _ _ limits _ _ rfl rfl fun _ _ _ h =>
    have ⟨_, hfront⟩ := Framing.Framer.scan_reject h
    front_reject hfront
  new := ⟨rfl, rfl⟩
  reset h := ⟨h, rfl⟩

/-- So does the one that answers `Ok`. -/
def eagerStreamLaw (limits : HdlcCodecLimits) : HdlcStreamLaw eagerLib limits where
  framer := framer limits
  live d := d.key = limits
  view := Framing.Scanner.kept
  follows := Framing.Scanner.follows_either framer _ _ limits _ _ rfl (Or.inl rfl) fun _ _ _ h =>
    have ⟨_, hfront⟩ := Framing.Framer.scan_reject h
    front_reject hfront
  new := ⟨rfl, rfl⟩
  reset h := ⟨h, rfl⟩

end Reference

end DlmsProfile
