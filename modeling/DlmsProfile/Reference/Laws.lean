import DlmsProfile.Hdlc.Laws
import DlmsProfile.Reference.Hdlc

/-!
# The Reference HDLC Library Keeps its Promises

The laws the results about session mode rest on, one by one, for the library
that can be run.

## Theorems

* `Reference.linkLaw`: The commands that establish and release a link.
* `Reference.sessionLaw`: Numbering and acknowledgement.
* `Reference.unnumberedLaw`: A connected session rejects commands.
* `Reference.unnumberedLaw_independent`: Which does not follow from the numbering.
* `Reference.refusalLaw`: A session keeps its numbers when it builds nothing.
* `Reference.windowLaw`: How many I-frames may be outstanding.
* `Reference.verdictLaw`: A session judges every frame it is shown.
* `Reference.reassemblerLaw`: Segments are collected and put together.
* `Reference.wireLaw`: The bytes of a frame are that frame.
* `Reference.pollLaw`: The poll/final bit is the one asked for.
* `Reference.codecLaw`, `Reference.framingLaw`: The stream decoder finds an encoded frame,
  and one on the wire.
* `Reference.connectLaw`: How a session becomes connected.
* `Reference.resetLaw`, `Reference.restLaw`: Nothing is left of what was reset, nor of
  a disconnected session.
* `Reference.greetingLaw`: Two sessions just made establish a link.
* `Reference.llcLaw`: An LPDU is decoded again.
-/

namespace DlmsProfile

namespace Reference

/-- A frame was built: the session was in the right state, the frame could be
    encoded and the session moved on. -/
theorem build_ok {session next session' : Session} {allowed : Bool} {control : UInt8}
    {information bytes : List UInt8}
    (h : build session allowed control information next = (.ok, bytes, session')) :
    allowed = true ∧ session' = next ∧
      encodeFrame (frameTo session control information) session.options.limits = (.ok, bytes) := by
  rw [build] at h
  split at h
  · next hallowed =>
      obtain ⟨hok, hrest⟩ := Prod.mk.inj h
      obtain ⟨hbytes, hnext⟩ := Prod.mk.inj hrest
      rw [if_pos hok] at hnext
      exact ⟨hallowed, hnext.symm, Prod.ext hok hbytes⟩
  · cases h

theorem build_refused {session next : Session} {allowed : Bool} {control : UInt8}
    {information : List UInt8} (h : (build session allowed control information next).1 ≠ .ok) :
    (build session allowed control information next).2.2 = session := by
  cases allowed with
  | true => exact if_neg h
  | false => rfl

theorem encodeFrame_ok {frame : Frame} {limits : HdlcCodecLimits} {bytes : List UInt8}
    (h : encodeFrame frame limits = (.ok, bytes)) :
    bytes = frameBytes frame ∧ frameSize frame ≤ 2039 := by
  rw [encodeFrame] at h
  split at h
  · cases h
  split at h
  · cases h
  next hsize => exact ⟨(Prod.mk.inj h).2.symm, Nat.not_lt.mp hsize⟩

/-- A frame without information can always be encoded. -/
theorem build_empty (session next : Session) (control : UInt8) :
    build session true control [] next =
      (.ok, frameBytes (frameTo session control []), next) := by
  have henc : encodeFrame (frameTo session control []) session.options.limits =
      (.ok, frameBytes (frameTo session control [])) :=
    (if_neg (Nat.not_lt_zero _)).trans (if_neg (Nat.not_lt.mpr (Nat.le_add_left 7 2032)))
  rw [build, if_pos rfl, henc]
  rfl

theorem canSend_room {session : Session} (h : canSendInformationFrame session = true) :
    (session.vs - session.va).val < 7 :=
  Nat.lt_of_lt_of_le (of_decide_eq_true h) (windowSize_le _)

/-- The control field of an I-frame, its parts apart. -/
theorem informationControl_parts : ∀ (vs vr : Fin 8) (pollFinal : Bool),
    let control := UInt8.ofNat (vr.val * 32 + (if pollFinal then 16 else 0) + vs.val * 2)
    frameKind control = .information ∧ sendSequence control = vs ∧
      receiveSequence control = vr := by
  decide

theorem receiveReadyControl_parts : ∀ (vr : Fin 8) (pollFinal : Bool),
    let control := UInt8.ofNat (vr.val * 32 + (if pollFinal then 16 else 0) + 1)
    frameKind control = .supervisory ∧ receiveSequence control = vr := by
  decide

theorem acknowledges_iff {session : Session} {control : UInt8} :
    acknowledges session control = true ↔
      (receiveSequence control - session.va).val ≤ (session.vs - session.va).val :=
  decide_eq_true_iff

/-- What a connected session accepts. -/
theorem judge_ok {session : Session} {control : UInt8} :
    (judge session control).1 = .ok ↔
      frameKind control ≠ .unnumbered ∧
        (receiveSequence control - session.va).val ≤ (session.vs - session.va).val ∧
        (frameKind control = .information → sendSequence control = session.vr) := by
  rw [← acknowledges_iff, judge]
  -- By the kind of frame. Only an I-frame has a number of its own to be right.
  cases frameKind control with
  | information =>
      dsimp only
      split
      · next h => exact iff_of_true rfl ⟨nofun, h.2, fun _ => h.1⟩
      · next h => exact iff_of_false nofun fun hc => h ⟨hc.2.2 rfl, hc.2.1⟩
  | supervisory =>
      dsimp only
      split
      · next h => exact iff_of_true rfl ⟨nofun, h, nofun⟩
      · next h => exact iff_of_false nofun fun hc => h hc.2.1
  | unnumbered => exact iff_of_false nofun fun hc => hc.1 rfl

/-- What becomes of a connected session that accepts a frame. -/
theorem judge_accepted {session session' : Session} {control : UInt8}
    (h : judge session control = (.ok, session')) :
    session' = { session with
      va := receiveSequence control
      vr := if frameKind control = .information then session.vr + 1 else session.vr } := by
  rw [judge] at h
  -- An accepted frame moves the acknowledged number, and an I-frame the expected one.
  cases hk : frameKind control with
  | information =>
      simp only [hk] at h
      split at h
      · exact (Prod.mk.inj h).2.symm
      · cases h
  | supervisory =>
      simp only [hk] at h
      split at h
      · exact (Prod.mk.inj h).2.symm
      · cases h
  | unnumbered =>
      simp only [hk] at h
      cases h

theorem judge_rejected {session session' : Session} {control : UInt8} {status : HdlcStatus}
    (h : judge session control = (status, session')) (hne : status ≠ .ok) : session' = session := by
  rw [judge] at h
  split at h
  · split at h
    · exact absurd (Prod.mk.inj h).1.symm hne
    · exact (Prod.mk.inj h).2.symm
  · split at h
    · exact absurd (Prod.mk.inj h).1.symm hne
    · exact (Prod.mk.inj h).2.symm
  · exact (Prod.mk.inj h).2.symm

theorem receiveFrame_connected {session : Session} (h : session.state = .connected)
    (frame : Frame) : receiveFrame session frame = judge session frame.control := by
  rw [receiveFrame, h]

theorem buildReceiveReady_connected {session : Session} (h : hdlcLib.Connected session)
    (pollFinal : Bool) :
    hdlcLib.buildReceiveReadyFrame session pollFinal =
      (.ok, frameBytes (frameTo session (receiveReadyControl session pollFinal) []), session) := by
  have hs : session.state = .connected := h
  change build session (decide (session.state = .connected)) _ _ _ = _
  rw [hs]
  exact build_empty session session _

/-- A session that built an I-frame was connected, and its window not full. -/
theorem buildInformation_ok {session session' : Session} {info bytes : List UInt8}
    {pollFinal : Bool}
    (h : buildInformationFrame session info pollFinal = (.ok, bytes, session')) :
    session'.state = .connected ∧ session'.vs = session.vs + 1 ∧ session'.vr = session.vr ∧
      session'.va = session.va ∧ (session.vs - session.va).val < 7 := by
  rcases build_ok h with ⟨hallowed, rfl, -⟩
  have hstate := of_decide_eq_true hallowed
  exact ⟨hstate.1, rfl, rfl, rfl, canSend_room hstate.2⟩

theorem buildReceiveReady_ok {session : Session} (pollFinal : Bool)
    (h : session.state = .connected) :
    (buildReceiveReadyFrame session pollFinal).1 = .ok ∧
      (buildReceiveReadyFrame session pollFinal).2.2 = session := by
  have hbuild := buildReceiveReady_connected h pollFinal
  exact ⟨congrArg Prod.fst hbuild, congrArg (·.2.2) hbuild⟩

/-- A session that builds no RR says why, and waiting for more is not a reason. -/
theorem buildReceiveReady_ne (session : Session) (pollFinal : Bool) :
    mapHdlcStatus (buildReceiveReadyFrame session pollFinal).1 ≠ .needMoreData := by
  by_cases h : session.state = .connected
  · rw [(buildReceiveReady_ok pollFinal h).1]
    decide
  · have hbuild : buildReceiveReadyFrame session pollFinal = (.unsupportedFrame, [], session) :=
      if_neg fun hc => h (of_decide_eq_true hc)
    rw [hbuild]
    exact fun hc => by cases hc

theorem receiveFrame_ok_iff {session : Session} (h : session.state = .connected) (frame : Frame) :
    (receiveFrame session frame).1 = .ok ↔
      frameKind frame.control ≠ .unnumbered ∧
        (receiveSequence frame.control - session.va).val ≤ (session.vs - session.va).val ∧
        (frameKind frame.control = .information → sendSequence frame.control = session.vr) := by
  rw [receiveFrame_connected h]
  exact judge_ok

theorem receiveFrame_accepted {session session' : Session} {frame : Frame}
    (hσ : session.state = .connected) (h : receiveFrame session frame = (.ok, session')) :
    session'.state = .connected ∧ session'.vs = session.vs ∧
      session'.va = receiveSequence frame.control ∧
      session'.vr = if frameKind frame.control = .information then session.vr + 1
        else session.vr := by
  rw [judge_accepted ((receiveFrame_connected hσ frame).symm.trans h)]
  exact ⟨hσ, rfl, rfl, rfl⟩

theorem receiveFrame_rejected {session session' : Session} {frame : Frame} {status : HdlcStatus}
    (hσ : session.state = .connected) (h : receiveFrame session frame = (status, session'))
    (hne : status ≠ .ok) : session' = session :=
  judge_rejected ((receiveFrame_connected hσ frame).symm.trans h) hne

theorem canSend_of_settled {session : Session} (h : session.va = session.vs) :
    canSendInformationFrame session = true := by
  refine decide_eq_true ?_
  rw [← h, Fin.sub_self]
  exact windowSize_pos _

/-- Numbering and acknowledgement. -/
def sessionLaw : HdlcSessionLaw hdlcLib where
  vs := Session.vs
  vr := Session.vr
  va := Session.va
  sendSequence := sendSequence
  receiveSequence := receiveSequence
  information := fun _ h => buildInformation_ok h
  receiveReady := fun pollFinal hσ =>
    have ⟨hok, hsame⟩ := buildReceiveReady_ok pollFinal hσ
    ⟨hok, (congrArg Session.state hsame).trans hσ, congrArg Session.vs hsame,
      congrArg Session.vr hsame, congrArg Session.va hsame⟩
  accepts := fun hσ hkind => (receiveFrame_ok_iff hσ _).trans (and_iff_right hkind)
  accepted := fun hσ _ h => receiveFrame_accepted hσ h
  rejected := fun hσ h hne => receiveFrame_rejected hσ h hne
  idle := fun _ h => canSend_of_settled h

/-- The session has built the command and had no answer to it. -/
def Awaits : HdlcCommand → Session → Prop
  | .connect, session => session.state = .connecting ∧ session.options.role = .client
  | .disconnect, session => session.state = .disconnecting

theorem connectRequest_new {options : HdlcSessionOptions UInt8} (h : options.role = .client) :
    (buildConnectRequest (newSession options)).1 = .ok := by
  have hallowed : decide ((newSession options).state = .disconnected ∧
      (newSession options).options.role = .client) = true := decide_eq_true ⟨rfl, h⟩
  rw [buildConnectRequest, hallowed, build_empty]

theorem connectRequest_ok {session session' : Session} {bytes : List UInt8}
    (h : buildConnectRequest session = (.ok, bytes, session')) :
    session.state = .disconnected ∧ Awaits .connect session' := by
  rcases build_ok h with ⟨hallowed, rfl, -⟩
  have hstate := of_decide_eq_true hallowed
  exact ⟨hstate.1, rfl, hstate.2⟩

theorem connectResponse_ok {session session' : Session} {bytes : List UInt8}
    (h : buildConnectResponse session = (.ok, bytes, session')) : session'.state = .connected := by
  rcases build_ok h with ⟨-, rfl, -⟩
  rfl

theorem disconnectRequest_ok {session session' : Session} {bytes : List UInt8}
    (h : buildDisconnectRequest session = (.ok, bytes, session')) :
    Awaits .disconnect session' := by
  rcases build_ok h with ⟨-, rfl, -⟩
  rfl

/-- The UA answers either command. -/
theorem receiveFrame_ua {command : HdlcCommand} {session : Session} {frame : Frame}
    (h : Awaits command session) (hua : frame.control = ua) :
    (receiveFrame session frame).1 = .ok ∧
      (receiveFrame session frame).2.state = command.answered := by
  have hkind : ¬ frameKind frame.control ≠ .unnumbered := by
    rw [hua]
    decide
  -- To either command the UA is the answer awaited.
  cases command with
  | connect =>
      rcases h with ⟨hstate, hrole⟩
      simp only [receiveFrame, hstate]
      rw [if_neg hkind, if_pos ⟨hua, hrole⟩]
      exact ⟨rfl, rfl⟩
  | disconnect =>
      have hstate : session.state = .disconnecting := h
      simp only [receiveFrame, hstate]
      rw [if_neg hkind, if_pos hua]
      exact ⟨rfl, rfl⟩

/-- What a waiting session rejects does not change it. -/
theorem receiveFrame_steady {command : HdlcCommand} {session : Session} (h : Awaits command session)
    (frame : Frame) (hne : (receiveFrame session frame).1 ≠ .ok) :
    (receiveFrame session frame).2 = session := by
  have hstate : session.state = .connecting ∨ session.state = .disconnecting := by
    cases command with
    | connect => exact Or.inl h.1
    | disconnect => exact Or.inr h
  rw [receiveFrame] at hne ⊢
  -- In both states what is not accepted is refused with the session as it was.
  rcases hstate with hstate | hstate <;> rw [hstate] at hne ⊢ <;> dsimp only at hne ⊢
  · by_cases hflight : frameKind frame.control ≠ .unnumbered
    · rw [if_pos hflight]
    rw [if_neg hflight] at hne ⊢
    split at hne
    · exact absurd rfl hne
    next hua =>
      rw [if_neg hua]
      split <;> rfl
  · by_cases hflight : frameKind frame.control ≠ .unnumbered
    · rw [if_pos hflight]
    rw [if_neg hflight] at hne ⊢
    split at hne
    · exact absurd rfl hne
    next hua => rw [if_neg hua]

/-- The commands that establish and release a link. -/
def linkLaw : HdlcLinkLaw hdlcLib where
  ua control := control = ua
  snrm control := control = snrm
  awaits := Awaits
  new _ := rfl
  request := connectRequest_new
  connectRequest := connectRequest_ok
  connectResponse := connectResponse_ok
  disconnectRequest := disconnectRequest_ok
  answer := receiveFrame_ua
  steady := receiveFrame_steady

/-- Segments are collected and put together. -/
def reassemblerLaw : HdlcReassemblerLaw hdlcLib where
  collected := Reassembler.collected
  new _ := rfl
  reset _ := rfl
  other := by
    intro (r : Reassembler) (frame : Frame) h
    have hpush : pushFrame r frame = (.ok, (frame, false), r) := if_pos h
    change (pushFrame r frame).1 = _ ∧ (pushFrame r frame).2.1 = _ ∧
      (pushFrame r frame).2.2.collected = _
    rw [hpush]
    exact ⟨rfl, rfl, rfl⟩
  segment := by
    intro (r : Reassembler) (frame : Frame) h hseg
    have hpush : pushFrame r frame =
        (.segmentationIncomplete, (frame, false), ⟨r.collected ++ [frame]⟩) :=
      (if_neg (not_not.mpr h)).trans (if_pos hseg)
    change mapHdlcStatus (pushFrame r frame).1 = _ ∧ (pushFrame r frame).2.2.collected = _
    rw [hpush]
    exact ⟨rfl, rfl⟩
  last := by
    intro (r : Reassembler) (frame : Frame) h hseg
    have hpush : pushFrame r frame = (.ok, ({ r.collected.headD frame with
        segmented := false
        information := (r.collected ++ [frame]).flatMap (·.information) }, true), ⟨[]⟩) :=
      (if_neg (not_not.mpr h)).trans (if_neg (Bool.eq_false_iff.mp hseg))
    change (pushFrame r frame).1 = _ ∧ (pushFrame r frame).2.1.2 = _ ∧
      (pushFrame r frame).2.1.1.information = _ ∧
      ((pushFrame r frame).2.1.1.control = _ ∨ (pushFrame r frame).2.1.1.control = _) ∧
      (pushFrame r frame).2.2.collected = _
    rw [hpush]
    exact ⟨rfl, rfl, rfl, Or.inr rfl, rfl⟩

/-- The same reassembler beside a session that accepts commands. -/
def commandReassemblerLaw : HdlcReassemblerLaw commandLib where
  collected := reassemblerLaw.collected
  new := reassemblerLaw.new
  reset := reassemblerLaw.reset
  other := reassemblerLaw.other
  segment := reassemblerLaw.segment
  last := reassemblerLaw.last

theorem pushLimited_fits {r : LimitedReassembler} {frame : Frame}
    (h : ((r.collected ++ [frame]).flatMap (·.information)).length ≤ r.limit) :
    pushLimited r frame = ((pushFrame r.toReassembler frame).1,
      (pushFrame r.toReassembler frame).2.1,
      { r with toReassembler := (pushFrame r.toReassembler frame).2.2 }) :=
  if_neg fun hlarge => Nat.not_lt.mpr h hlarge.2

/-- The reassembler that keeps to its limits collects like the one that does not. -/
def reassemblyLimitLaw : HdlcReassemblyLimitLaw limitedLib where
  collected r := (LimitedReassembler.toReassembler r).collected
  limit := LimitedReassembler.limit
  new _ := ⟨rfl, rfl⟩
  reset _ := ⟨rfl, rfl⟩
  keeps := by
    intro (r : LimitedReassembler) (frame : Frame)
    change (pushLimited r frame).2.2.limit = r.limit
    rw [pushLimited]
    split <;> rfl
  tooLarge := by
    intro (r : LimitedReassembler) (frame : Frame) hkind hlarge
    change mapHdlcStatus (pushLimited r frame).1 = _
    have hpush : pushLimited r frame = (.segmentationOverflow, (frame, false), r) :=
      if_pos ⟨hkind, hlarge⟩
    rw [hpush]
    rfl
  segment := by
    intro (r : LimitedReassembler) (frame : Frame) hkind hseg hfits
    have hrest := reassemblerLaw.segment (r := r.toReassembler) hkind hseg
    change mapHdlcStatus (pushLimited r frame).1 = _ ∧ (pushLimited r frame).2.2.collected = _
    rw [pushLimited_fits hfits]
    exact hrest
  last := by
    intro (r : LimitedReassembler) (frame : Frame) hkind hseg hfits
    have hrest := reassemblerLaw.last (r := r.toReassembler) hkind hseg
    change (pushLimited r frame).1 = _ ∧ (pushLimited r frame).2.1.2 = _ ∧
      (pushLimited r frame).2.1.1.information = _
    rw [pushLimited_fits hfits]
    exact ⟨hrest.1, hrest.2.1, hrest.2.2.1⟩

/-- The session beside it is the same. -/
def limitedSessionLaw : HdlcSessionLaw limitedLib where
  vs := sessionLaw.vs
  vr := sessionLaw.vr
  va := sessionLaw.va
  sendSequence := sessionLaw.sendSequence
  receiveSequence := sessionLaw.receiveSequence
  information := sessionLaw.information
  receiveReady := sessionLaw.receiveReady
  accepts := sessionLaw.accepts
  accepted := sessionLaw.accepted
  rejected := sessionLaw.rejected
  idle := sessionLaw.idle

theorem parse_large {limits : HdlcCodecLimits} {frame : Frame}
    (hinfo : limits.maximumInformationFieldSize < frame.information.length) :
    parse limits (headerBytes frame ++ trailerBytes frame) = .error .informationFieldTooLarge := by
  rw [headerBytes]
  simp only [List.cons_append, List.nil_append, parse, information_trailer]
  exact if_pos hinfo

/-- The bytes of a frame are that frame. -/
def wireLaw : HdlcWireLaw hdlcLib sessionLaw where
  spells bytes frame := bytes = frameBytes frame ∧ frameSize frame ≤ 2039
  information := by
    intro σ σ' info pollFinal bytes _ h
    rcases build_ok h with ⟨-, -, henc⟩
    rcases informationControl_parts σ.vs σ.vr pollFinal with ⟨hkind, hns, hnr⟩
    exact ⟨_, encodeFrame_ok henc, hkind, rfl, rfl, hns, hnr⟩
  receiveReady := by
    intro σ pollFinal hσ
    rcases receiveReadyControl_parts σ.vr pollFinal with ⟨hkind, hnr⟩
    rw [buildReceiveReady_connected hσ]
    exact ⟨_, ⟨rfl, Nat.le_add_left 7 2032⟩, hkind, hnr⟩
  decode := by
    rintro bytes frame frame' limits ⟨rfl, hsize⟩ h
    have hfront : front limits (frameBytes frame) = _ := front_frameBytes hsize
    change decodeFrame (frameBytes frame) limits = _ at h
    rw [decodeFrame] at h
    by_cases hinfo : frame.information.length ≤ limits.maximumInformationFieldSize
    · rw [hfront, parse_contents hsize hinfo] at h
      exact (Prod.mk.inj h).2.symm
    · rw [hfront, parse_large (Nat.lt_of_not_le hinfo)] at h
      cases h
  encode := encodeFrame_ok

/-- The bytes of a frame tell it from every other. -/
theorem frameBytes_inj {frame frame' : Frame} (hsize : frameSize frame ≤ 2039)
    (hsize' : frameSize frame' ≤ 2039) (h : frameBytes frame = frameBytes frame') :
    frame' = frame := by
  -- Both are what a parser with room for both finds in the bytes.
  let limits : HdlcCodecLimits :=
    ⟨frame.information.length + frame'.information.length, 0⟩
  have hfront : front limits (frameBytes frame) = .item frame [] := by
    rw [front_frameBytes hsize, parse_contents hsize (Nat.le_add_right _ _)]
  have hfront' : front limits (frameBytes frame') = .item frame' [] := by
    rw [front_frameBytes hsize', parse_contents hsize' (Nat.le_add_left _ _)]
  rw [← h, hfront] at hfront'
  exact (Framing.Front.item.inj hfront').1.symm

/-- Bit 4 of the control field. -/
def pollFinal (control : UInt8) : Bool := control.toNat / 16 % 2 == 1

theorem informationControl_pollFinal : ∀ (vs vr : Fin 8) (bit : Bool),
    pollFinal (UInt8.ofNat (vr.val * 32 + (if bit then 16 else 0) + vs.val * 2)) = bit := by
  decide

/-- The poll/final bit is the one asked for. -/
def pollLaw : HdlcPollLaw hdlcLib sessionLaw wireLaw where
  pollFinal := pollFinal
  information := by
    intro σ σ' info bit bytes frame _ h hspells
    rcases build_ok h with ⟨-, -, henc⟩
    rcases encodeFrame_ok henc with ⟨rfl, hsize⟩
    rw [frameBytes_inj hsize hspells.2 hspells.1]
    exact informationControl_pollFinal σ.vs σ.vr bit

/-- A stream decoder finds an encoded frame. -/
theorem codecLaw (limits : HdlcCodecLimits) : HdlcCodecLaw hdlcLib (hdlcStreamLaw limits) where
  encodes h := framer_encodes h

/-- It finds a frame on the wire, whoever put it there. -/
theorem framingLaw (limits : HdlcCodecLimits) :
    HdlcFramingLaw hdlcLib (hdlcStreamLaw limits) wireLaw where
  encodes := fun ⟨hbytes, hsize⟩ hinfo => hbytes ▸ framer_frameBytes hsize hinfo
  receiveReady := by
    rintro σ frame pollFinal hσ ⟨hbytes, hsize⟩
    rw [buildReceiveReady_connected hσ] at hbytes ⊢
    -- The frame behind an RR carries no information.
    have hempty : frameSize (frameTo σ (receiveReadyControl σ pollFinal) []) ≤ 2039 :=
      Nat.le_add_left 7 2032
    obtain rfl := frameBytes_inj hempty hsize hbytes
    exact framer_frameBytes hempty (Nat.zero_le _)

/-- A connected session rejects every frame without a number. -/
theorem unnumberedLaw : HdlcUnnumberedLaw hdlcLib where
  rejects := fun hσ hkind hok => ((receiveFrame_ok_iff hσ _).mp hok).1 hkind

theorem limitedUnnumberedLaw : HdlcUnnumberedLaw limitedLib where
  rejects := unnumberedLaw.rejects

/-- Of a frame with a number the library that accepts commands makes the same. -/
theorem receiveCommand_numbered (session : Session) {frame : Frame}
    (hkind : frameKind frame.control ≠ .unnumbered) :
    receiveCommand session frame = receiveFrame session frame := by
  have hcommand : ∀ control, frameKind control = .unnumbered → frame.control ≠ control := by
    rintro control hc rfl
    exact hkind hc
  have hdisc : frame.control ≠ disc := hcommand disc (by decide)
  have hsnrm : frame.control ≠ snrm := hcommand snrm (by decide)
  rw [receiveCommand, if_neg fun h => hdisc h.2.2, if_neg fun h => hsnrm h.2.2]

theorem receiveCommand_ok_iff {σ : Session} {frame : Frame} {P : Prop}
    (hkind : frameKind frame.control ≠ .unnumbered) (h : (receiveFrame σ frame).1 = .ok ↔ P) :
    (receiveCommand σ frame).1 = .ok ↔ P := by
  rw [receiveCommand_numbered σ hkind]
  exact h

theorem receiveCommand_accepted {session session' : Session} {frame : Frame}
    (hσ : session.state = .connected) (hkind : frameKind frame.control ≠ .unnumbered)
    (h : receiveCommand session frame = (.ok, session')) :
    session'.state = .connected ∧ session'.vs = session.vs ∧
      session'.va = receiveSequence frame.control ∧
      session'.vr = if frameKind frame.control = .information then session.vr + 1
        else session.vr :=
  receiveFrame_accepted hσ ((receiveCommand_numbered session hkind).symm.trans h)

/-- And what it rejects, the other rejects too. -/
theorem receiveCommand_rejected {session session' : Session} {frame : Frame} {status : HdlcStatus}
    (h : receiveCommand session frame = (status, session')) (hne : status ≠ .ok) :
    receiveFrame session frame = (status, session') := by
  rw [receiveCommand] at h
  split at h
  · exact absurd (Prod.mk.inj h).1.symm hne
  split at h
  · exact absurd (Prod.mk.inj h).1.symm hne
  · exact h

/-- A library may number its frames so and accept commands all the same. -/
def commandSessionLaw : HdlcSessionLaw commandLib where
  vs := Session.vs
  vr := Session.vr
  va := Session.va
  sendSequence := sendSequence
  receiveSequence := receiveSequence
  information := sessionLaw.information
  receiveReady := sessionLaw.receiveReady
  accepts := fun hσ hkind => receiveCommand_ok_iff hkind (sessionLaw.accepts hσ hkind)
  accepted := fun hσ hkind h => receiveCommand_accepted hσ hkind h
  rejected := fun hσ h hne => sessionLaw.rejected hσ (receiveCommand_rejected h hne) hne
  idle := sessionLaw.idle

/-- That commands are rejected does not follow from how frames are numbered. -/
theorem unnumberedLaw_independent :
    Nonempty (HdlcSessionLaw commandLib) ∧ ¬ HdlcUnnumberedLaw commandLib := by
  refine ⟨⟨commandSessionLaw⟩, fun h => ?_⟩
  -- A connected server, and a DISC.
  let options : HdlcSessionOptions UInt8 :=
    ⟨.server, 0, 0, hdlcLib.defaultCodecLimits, hdlcLib.defaultNegotiationLimits⟩
  let server : Session := { newSession options with state := .connected }
  let release : Frame := ⟨false, 0, 0, disc, []⟩
  have hrejected : (commandLib.receiveFrame server release).1 ≠ .ok :=
    h.rejects rfl (by decide)
  exact hrejected rfl

/-- A session that builds no I-frame stays as it is. -/
theorem refusalLaw : HdlcRefusalLaw hdlcLib where
  information := by
    intro σ info pollFinal _ h
    exact build_refused h

/-- The window is that of the negotiated limits, which are those of the options. -/
def windowLaw : HdlcWindowLaw hdlcLib sessionLaw where
  window session := (negotiatedLimits session).windowSizeTransmit.toNat
  canSend := fun _ => decide_eq_true_iff
  information := fun _ h => by
    rcases build_ok h with ⟨-, rfl, -⟩
    rfl
  accepted := fun hσ h => by
    rw [judge_accepted ((receiveFrame_connected hσ _).symm.trans h)]
    rfl

/-- No verdict asks for more. -/
theorem verdictLaw : HdlcVerdictLaw hdlcLib where
  whole := by
    intro σ frame
    change mapHdlcStatus (receiveFrame σ frame).1 ≠ .needMoreData
    simp only [receiveFrame, judge]
    split
    · split
      · split <;> exact ProfileStatus.noConfusion
      · split <;> exact ProfileStatus.noConfusion
      · exact ProfileStatus.noConfusion
    · split <;> exact ProfileStatus.noConfusion
    · split_ifs <;> exact ProfileStatus.noConfusion
    · split_ifs <;> exact ProfileStatus.noConfusion

/-- What has been reset is what was made with the same limits. -/
def resetLaw : HdlcResetLaw hdlcLib where
  decoderMade d limits := d.key = limits
  newDecoder _ := rfl
  push {d} _ bytes h := by
    rcases hscan : (framer d.key).scan (d.kept ++ bytes) with ⟨frames, kept | status⟩
    · simp only [hdlcLib, Framing.Scanner.push, hscan]
      exact h
    · simp only [hdlcLib, Framing.Scanner.push, hscan]
      exact h
  resetDecoder h := by
    rw [← h]
    rfl
  reassemblerMade _ _ := True
  newReassembler _ := trivial
  pushFrame _ _ := trivial
  resetReassembler _ := rfl

/-- Two sessions of one making that are not connected, or one session. -/
def Alike (σ τ : Session) : Prop :=
  σ = τ ∨ (σ.options = τ.options ∧ σ.state = τ.state ∧ σ.state ≠ .connected)

theorem receiveFrame_alike {σ τ : Session} (frame : Frame) (h : Alike σ τ) :
    (receiveFrame σ frame).1 = (receiveFrame τ frame).1 ∧
      Alike (receiveFrame σ frame).2 (receiveFrame τ frame).2 := by
  -- Sessions that are not connected are not told apart by their numbers.
  rcases h with rfl | ⟨hoptions, hstate, hne⟩
  · exact ⟨rfl, Or.inl rfl⟩
  rcases σ with ⟨options, state, vs, vr, va⟩
  rcases τ with ⟨options', state', vs', vr', va'⟩
  obtain rfl : options = options' := hoptions
  obtain rfl : state = state' := hstate
  cases state with
  | connected => exact absurd rfl hne
  | disconnected =>
      simp only [receiveFrame]
      split
      · exact ⟨rfl, Or.inr ⟨rfl, rfl, fun h => by cases h⟩⟩
      · exact ⟨rfl, Or.inr ⟨rfl, rfl, hne⟩⟩
  | connecting =>
      simp only [receiveFrame]
      split
      · exact ⟨rfl, Or.inr ⟨rfl, rfl, hne⟩⟩
      split
      · exact ⟨rfl, Or.inl rfl⟩
      split
      · exact ⟨rfl, Or.inr ⟨rfl, rfl, hne⟩⟩
      · exact ⟨rfl, Or.inr ⟨rfl, rfl, hne⟩⟩
  | disconnecting =>
      simp only [receiveFrame]
      split
      · exact ⟨rfl, Or.inr ⟨rfl, rfl, hne⟩⟩
      split
      · exact ⟨rfl, Or.inr ⟨rfl, rfl, fun h => by cases h⟩⟩
      · exact ⟨rfl, Or.inr ⟨rfl, rfl, hne⟩⟩

/-- Two builds of the same frame, after which the sessions are alike. -/
theorem build_alike {σ τ σ' τ' : Session} {allowed : Bool} {control : UInt8}
    (h : Alike σ τ) (hoptions : σ.options = τ.options) (hnext : allowed = true → Alike σ' τ') :
    (build σ allowed control [] σ').1 = (build τ allowed control [] τ').1 ∧
      (build σ allowed control [] σ').2.1 = (build τ allowed control [] τ').2.1 ∧
      Alike (build σ allowed control [] σ').2.2 (build τ allowed control [] τ').2.2 := by
  have hframe : frameTo σ control [] = frameTo τ control [] := by
    rw [frameTo, frameTo, hoptions]
  -- What may not be built leaves both as they are.
  cases allowed with
  | false => exact ⟨rfl, rfl, h⟩
  | true =>
      simp only [build, if_true, hframe, hoptions]
      refine ⟨trivial, trivial, ?_⟩
      split
      · exact hnext rfl
      · exact h

theorem build_options {σ σ' : Session} {allowed : Bool} {control : UInt8} {info : List UInt8}
    (h : σ'.options = σ.options) : (build σ allowed control info σ').2.2.options = σ.options := by
  cases allowed with
  | false => rfl
  | true =>
      simp only [build, if_true]
      split
      · exact h
      · rfl

theorem receiveFrame_options (σ : Session) (frame : Frame) :
    (receiveFrame σ frame).2.options = σ.options := by
  -- No state assigns to the options.
  unfold receiveFrame
  split
  · unfold judge
    split
    · split <;> rfl
    · split <;> rfl
    · rfl
  · split <;> rfl
  · split
    · rfl
    split
    · rfl
    split <;> rfl
  · split
    · rfl
    split <;> rfl

/-- A session that may not build the frame stays as it is, and one that may does not get
    connected by it. -/
theorem build_apart {σ next : Session} {allowed : Bool} {control : UInt8}
    (hnext : next.state ≠ .connected) (h : ¬ hdlcLib.Connected σ) :
    ¬ hdlcLib.Connected (build σ allowed control [] next).2.2 := by
  cases allowed with
  | false => exact h
  | true =>
      rw [build_empty]
      exact hnext

/-- What a session that is not connected is connected by. -/
theorem receiveFrame_connects {σ : Session} {frame : Frame} (h : σ.state ≠ .connected)
    (hafter : (receiveFrame σ frame).2.state = .connected) :
    (receiveFrame σ frame).1 = .ok ∧ σ.state = .connecting ∧ frame.control = ua := by
  -- By the state. Only from one that connects is connected reached.
  cases hstate : σ.state with
  | connected => exact absurd hstate h
  | disconnected =>
      simp only [receiveFrame, hstate] at hafter
      split at hafter
      · cases hafter
      · exact absurd hafter h
  | connecting =>
      simp only [receiveFrame, hstate] at hafter ⊢
      split at hafter
      · exact absurd hafter h
      next hkind =>
        split at hafter
        · next hua =>
            rw [if_neg hkind, if_pos hua]
            exact ⟨rfl, trivial, hua.1⟩
        · split at hafter <;> exact absurd hafter h
  | disconnecting =>
      simp only [receiveFrame, hstate] at hafter
      split at hafter
      · exact absurd hafter h
      split at hafter
      · cases hafter
      · exact absurd hafter h

/-- How a session becomes connected. -/
def connectLaw : HdlcConnectLaw hdlcLib where
  ua control := control = ua
  new _ h := by cases h
  receive h hafter := receiveFrame_connects h hafter
  connectResponse {σ} h hafter := by
    change (buildConnectResponse σ).1 = .ok
    change (buildConnectResponse σ).2.2.state = .connected at hafter
    unfold buildConnectResponse at hafter ⊢
    cases hallowed : decide (σ.state = .connecting ∧ σ.options.role = .server) with
    | false =>
        rw [hallowed] at hafter
        exact absurd hafter h
    | true => exact congrArg Prod.fst (build_empty σ _ ua)
  connectRequest h := build_apart (fun hc => by cases hc) h
  disconnectRequest h := build_apart (fun hc => by cases hc) h
  receiveReady _ h := build_apart h h

/-- A disconnected session keeps nothing of the link before. -/
def restLaw : HdlcRestLaw hdlcLib where
  made σ options := σ.options = options
  new _ := rfl
  moves {σ σ' options} h hmove := by
    rw [← h]
    cases hmove with
    | receive frame => exact receiveFrame_options σ frame
    | connectRequest => exact build_options rfl
    | connectResponse => exact build_options rfl
    | disconnectRequest => exact build_options rfl
    | information info pollFinal => exact build_options rfl
    | receiveReady pollFinal => exact build_options rfl
  alike := Alike
  refl _ := Or.inl rfl
  rest h hdisc := Or.inr ⟨h, hdisc, fun hc => by cases hdisc.symm.trans hc⟩
  state h := by
    rcases h with rfl | ⟨-, hstate, -⟩
    · rfl
    · exact hstate
  connected h hconnected := h.resolve_right fun hapart => hapart.2.2 hconnected
  receive frame h := receiveFrame_alike frame h
  connectRequest {σ τ} h := by
    rcases h with rfl | ⟨hoptions, hstate, hne⟩
    · exact ⟨rfl, rfl, Or.inl rfl⟩
    · simp only [hdlcLib, buildConnectRequest, ← hstate, ← hoptions]
      exact build_alike (Or.inr ⟨hoptions, hstate, hne⟩) hoptions fun _ =>
        Or.inr ⟨rfl, rfl, fun hc => by cases hc⟩
  connectResponse {σ τ} h := by
    rcases h with rfl | ⟨hoptions, hstate, hne⟩
    · exact ⟨rfl, rfl, Or.inl rfl⟩
    · simp only [hdlcLib, buildConnectResponse, ← hstate, ← hoptions]
      refine build_alike (Or.inr ⟨hoptions, hstate, hne⟩) hoptions fun _ => Or.inl ?_
      rw [hoptions]
  disconnectRequest {σ τ} h := by
    rcases h with rfl | ⟨hoptions, hstate, hne⟩
    · exact ⟨rfl, rfl, Or.inl rfl⟩
    · simp only [hdlcLib, buildDisconnectRequest, ← hstate]
      exact build_alike (Or.inr ⟨hoptions, hstate, hne⟩) hoptions fun _ =>
        Or.inr ⟨hoptions, rfl, fun hc => by cases hc⟩
  receiveReady pollFinal {σ τ} h := by
    rcases h with rfl | ⟨hoptions, hstate, hne⟩
    · exact ⟨rfl, rfl, Or.inl rfl⟩
    · have hrefused : ∀ υ : Session, υ.state ≠ .connected →
          buildReceiveReadyFrame υ pollFinal = (.unsupportedFrame, [], υ) := by
        intro υ hapart
        rw [buildReceiveReadyFrame, decide_eq_false hapart]
        rfl
      simp only [hdlcLib, hrefused σ hne, hrefused τ (hstate ▸ hne)]
      exact ⟨trivial, trivial, Or.inr ⟨hoptions, hstate, hne⟩⟩

/-- A client session just made waits to be asked for a link. -/
def dormantLaw : HdlcDormantLaw hdlcLib where
  dormant σ := σ.state = .disconnected ∧ σ.options.role = .client
  new h := ⟨rfl, h⟩
  disconnected h := h.1
  receive {σ} frame := by
    rintro ⟨hstate, hclient⟩
    have hcommand : ¬ (frame.control = snrm ∧ σ.options.role = .server) := by
      rw [hclient]
      exact fun h => by cases h.2
    have hreceive : hdlcLib.receiveFrame σ frame = (.unsupportedFrame, σ) := by
      have hcall : receiveFrame σ frame = (.unsupportedFrame, σ) := by
        simp only [receiveFrame, hstate]
        exact if_neg hcommand
      exact hcall
    rw [hreceive]
    exact ⟨(fun h => by cases h), hstate, hclient⟩
  disconnectRequest {σ} := by
    rintro ⟨hstate, hclient⟩
    have hapart : ¬ σ.state = .connected := by
      rw [hstate]
      exact fun hc => by cases hc
    have hrequest : hdlcLib.buildDisconnectRequest σ = (.unsupportedFrame, [], σ) := by
      have hcall : build σ (σ.state = .connected) disc [] { σ with state := .disconnecting } =
          (.unsupportedFrame, [], σ) := by
        rw [decide_eq_false hapart]
        rfl
      exact hcall
    rw [hrequest]
    exact ⟨(fun h => by cases h), hstate, hclient⟩

/-- A client just made asks for a link. -/
theorem connectRequest_eq {options : HdlcSessionOptions UInt8} (h : options.role = .client) :
    hdlcLib.buildConnectRequest (newSession options) =
      (.ok, frameBytes (frameTo (newSession options) snrm []),
        { newSession options with state := .connecting }) := by
  have hallowed : decide ((newSession options).state = .disconnected ∧
      (newSession options).options.role = .client) = true := decide_eq_true ⟨rfl, h⟩
  change buildConnectRequest (newSession options) = _
  rw [buildConnectRequest, hallowed, build_empty]
  rfl

theorem unnumbered_snrm {frame : Frame} (h : frame.control = snrm) :
    hdlcLib.frameKind frame.control = .unnumbered := by
  change frameKind frame.control = .unnumbered
  rw [h]
  decide

/-- A server just made is asked for one. -/
theorem receiveFrame_snrm {options : HdlcSessionOptions UInt8} (h : options.role = .server)
    {frame : Frame} (hsnrm : frame.control = snrm) :
    hdlcLib.receiveFrame (newSession options) frame =
      (.ok, { newSession options with state := .connecting }) := by
  change receiveFrame (newSession options) frame = _
  rw [receiveFrame]
  exact if_pos ⟨hsnrm, h⟩

theorem connectResponse_eq {session : Session} (hstate : session.state = .connecting)
    (h : session.options.role = .server) :
    hdlcLib.buildConnectResponse session = (.ok, frameBytes (frameTo session ua []),
      { session with state := .connected, vs := 0, vr := 0, va := 0 }) := by
  have hallowed : decide (session.state = .connecting ∧ session.options.role = .server) = true :=
    decide_eq_true ⟨hstate, h⟩
  change buildConnectResponse session = _
  rw [buildConnectResponse, hallowed, build_empty]
  rfl

theorem receiveFrame_accepts_ua {session : Session} (hstate : session.state = .connecting)
    (h : session.options.role = .client) {frame : Frame} (hua : frame.control = ua) :
    hdlcLib.receiveFrame session frame =
      (.ok, { session with state := .connected, vs := 0, vr := 0, va := 0 }) := by
  have hkind : ¬ frameKind frame.control ≠ .unnumbered := by
    rw [hua]
    decide
  change receiveFrame session frame = _
  simp only [receiveFrame, hstate]
  rw [if_neg hkind, if_pos ⟨hua, h⟩]
  rfl

/-- What each has when it has read the command of the other counts from zero. -/
theorem connected_of_greeting {client server : HdlcSessionOptions UInt8}
    (hclient : client.role = .client) (hserver : server.role = .server) (σ : Session)
    (hσ : σ = (hdlcLib.receiveFrame (hdlcLib.buildConnectRequest (newSession client)).2.2
        (frameTo { newSession server with state := .connecting } ua [])).2 ∨
      σ = (hdlcLib.buildConnectResponse (hdlcLib.receiveFrame (newSession server)
        (frameTo (newSession client) snrm [])).2).2.2) :
    hdlcLib.Connected σ ∧ sessionLaw.vs σ = 0 ∧ sessionLaw.vr σ = 0 ∧ sessionLaw.va σ = 0 := by
  rw [connectRequest_eq hclient, receiveFrame_accepts_ua rfl hclient rfl,
    receiveFrame_snrm hserver rfl, connectResponse_eq rfl hserver] at hσ
  rcases hσ with rfl | rfl
  · exact ⟨rfl, rfl, rfl, rfl⟩
  · exact ⟨rfl, rfl, rfl, rfl⟩

/-- A client and a server establish a link. -/
def greetingLaw (own peer : HdlcCodecLimits) {client server : HdlcSessionOptions UInt8}
    (hclient : client.role = .client) (hserver : server.role = .server) :
    HdlcGreetingLaw hdlcLib sessionLaw (hdlcStreamLaw own) (hdlcStreamLaw peer) client server where
  snrm := frameTo (newSession client) snrm []
  ua := frameTo { newSession server with state := .connecting } ua []
  unnumbered := unnumbered_snrm rfl
  request := congrArg Prod.fst (connectRequest_eq hclient)
  requestEncodes := by
    change (framer peer).Encodes (hdlcLib.buildConnectRequest (newSession client)).2.1 _
    rw [connectRequest_eq hclient]
    exact framer_frameBytes (Nat.le_add_left 7 2032) (Nat.zero_le _)
  indication := congrArg Prod.fst (receiveFrame_snrm hserver rfl)
  response := by
    change (hdlcLib.buildConnectResponse (hdlcLib.receiveFrame (newSession server) _).2).1 = _
    rw [receiveFrame_snrm hserver rfl, connectResponse_eq rfl hserver]
  responseEncodes := by
    change (framer own).Encodes
      (hdlcLib.buildConnectResponse (hdlcLib.receiveFrame (newSession server) _).2).2.1 _
    rw [receiveFrame_snrm hserver rfl, connectResponse_eq rfl hserver]
    exact framer_frameBytes (Nat.le_add_left 7 2032) (Nat.zero_le _)
  confirmation := by
    change (hdlcLib.receiveFrame (hdlcLib.buildConnectRequest (newSession client)).2.2 _).1 = _
    rw [connectRequest_eq hclient, receiveFrame_accepts_ua rfl hclient rfl]
  connected := connected_of_greeting hclient hserver

/-- An LPDU is decoded again. -/
theorem llcLaw : LlcLaw hdlcLib where
  decode := by
    intro direction apdu lpdu h
    rw [← (Prod.mk.inj h).2]
    cases direction <;> rfl
  nonempty := by
    intro direction apdu lpdu h
    rw [← (Prod.mk.inj h).2]
    exact List.cons_ne_nil _ _

end Reference

end DlmsProfile
