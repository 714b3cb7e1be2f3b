import DlmsProfile.Hdlc.Invariant
import DlmsProfile.Reference.Channels
import DlmsProfile.Reference.Laws

/-!
# Delivery over HDLC without a Session

Without a session every frame stands alone: it carries the LPDU of one APDU or
it is refused. Two queues lie between the reads and the caller, the frames a
push completed beyond the first and the APDUs taken from frames, and `incoming`
already tells the frames of the first together with those still to be decoded.
So the queue of APDUs is the second followed by what `incoming` carries, a turn
of the receive loop moves its one frame across, and a stream that scans without
a rejection is `incoming` frame for frame.

## Main definitions

* `Hdlc.Alone`: A frame a channel without a session takes an APDU from.
* `Hdlc.Readable`: Every frame to come is such a frame.
* `Hdlc.ahead`: The queue of APDUs.
* `Hdlc.sendAll`: Sending a list of APDUs.

## Theorems

* `Hdlc.decodedAhead_of_scan`: The frames to be decoded are those on the stream.
* `Hdlc.receiveTurn_advances`: One turn of the receive loop keeps the queue.
* `Hdlc.delivers`: The channel takes its results from `ahead`.
* `Hdlc.sendAll_wire`: Completed sends lay encoded frames end to end.
* `Hdlc.delivered_exactly`: What was sent is what is received.
-/

namespace DlmsProfile

namespace Hdlc

variable {L : HdlcLib}

/-- On a stream that scans without a rejection the frames to be decoded are the
    frames the scan finds, wherever the reads fall. -/
theorem decodedAhead_of_scan {limits : HdlcCodecLimits} (law : HdlcStreamLaw L limits)
    (reads : List ReadEvent) {decoder : L.Decoder} {frames : List L.Frame} {r : List UInt8}
    (hlive : law.live decoder)
    (hkept : law.framer.scan (law.view decoder) = ([], .rest (law.view decoder)))
    (h : law.framer.scan (law.view decoder ++ readBytes reads) = (frames, .rest r)) :
    decodedAhead L decoder reads = frames := by
  induction reads generalizing decoder frames with
  | nil =>
      rw [readBytes, List.append_nil, hkept, Prod.mk.injEq] at h
      exact h.1
  | cons e rest ih =>
      by_cases hskip : e.status ≠ .ok ∨ e.bytes = []
      · have hbytes : readBytes (e :: rest) = readBytes rest := by
          rw [readBytes]
          split
          · next hok => rw [hskip.resolve_left (not_not.mpr hok), List.nil_append]
          · rfl
        rw [hbytes] at h
        rw [decodedAhead_skip hskip]
        exact ih hlive hkept h
      rw [not_or, not_not] at hskip
      rcases hskip with ⟨hok, he⟩
      have hpush := law.follows.push_live e.bytes hlive
      rw [readBytes, if_pos hok, ← List.append_assoc] at h
      rcases hscan : law.framer.scan (law.view decoder ++ e.bytes) with ⟨xs, kept | st⟩
      · rcases law.follows.push_rest hlive hscan with ⟨hframes, hview, hstatus⟩
        rw [Framing.Framer.scan_append_rest _ hscan, Prod.mk.injEq] at h
        rw [← hview] at h hscan
        have hrest := ih hpush (Framing.Framer.scan_rest_self hscan) (Prod.ext rfl h.2)
        rcases hstatus with hcomplete | ⟨hmore, hnil⟩
        · rw [decodedAhead_completed hok he hcomplete, hframes, hrest]
          exact h.1
        · rw [decodedAhead_continued hok he hmore, hrest]
          rw [hnil, List.nil_append] at h
          exact h.1
      · -- A rejection inside this read would be a rejection of the whole stream.
        rw [Framing.Framer.scan_append_reject _ hscan, Prod.mk.injEq] at h
        cases h.2

/-- A frame failed to come, and a transport answer was used up. -/
theorem receiveDecodedFrameLoop_fail {reads : List ReadEvent} {s s' : State L}
    {status : ProfileStatus} (h : receiveDecodedFrameLoop reads s = (.fail status, s')) :
    s'.reads.length < reads.length := by
  -- Every failing branch has taken the read it failed on.
  induction reads generalizing s with
  | nil => cases h
  | cons e rest ih =>
      have hone : ∀ t : State L, t = s' → t.reads = rest →
          s'.reads.length < (e :: rest).length := by
        rintro t rfl ht
        rw [ht]
        exact Nat.lt_succ_self _
      by_cases hok : e.status = .ok
      swap
      · rw [loop_readFailed hok] at h
        exact hone _ (Prod.mk.inj h).2 rfl
      by_cases he : e.bytes = []
      · rw [loop_readEmpty hok he] at h
        exact hone _ (Prod.mk.inj h).2 rfl
      by_cases hp : mapHdlcStatus (L.push s.decoder e.bytes).1 = .ok
      · rcases hf : (L.push s.decoder e.bytes).2.1 with _ | ⟨frame, frames⟩
        · rw [loop_noFrame hok he hp hf] at h
          exact hone _ (Prod.mk.inj h).2 rfl
        · rw [loop_completed hok he hp hf] at h
          cases h
      by_cases hm : mapHdlcStatus (L.push s.decoder e.bytes).1 = .needMoreData
      · rw [loop_continued hok he hm] at h
        -- NeedMoreData took one read and the rest of the loop at least one more.
        exact Nat.lt_succ_of_lt (ih h)
      · rw [loop_rejected hok he hp hm] at h
        exact hone _ (Prod.mk.inj h).2 rfl

/-- A call that waits has come to the end of its reads. -/
theorem receiveDecodedFrameLoop_waiting {reads : List ReadEvent} {s s' : State L}
    (h : receiveDecodedFrameLoop reads s = (.waiting, s')) :
    s'.reads = [] ∧ s'.pendingHdlcFrames = s.pendingHdlcFrames := by
  -- The loop waits only at the end of the script: every other branch that stops reports.
  induction reads generalizing s with
  | nil =>
      cases h
      exact ⟨rfl, rfl⟩
  | cons e rest ih =>
      by_cases hok : e.status = .ok
      swap
      · rw [loop_readFailed hok] at h
        cases h
      by_cases he : e.bytes = []
      · rw [loop_readEmpty hok he] at h
        cases h
      by_cases hp : mapHdlcStatus (L.push s.decoder e.bytes).1 = .ok
      · rcases hf : (L.push s.decoder e.bytes).2.1 with _ | ⟨frame, frames⟩
        · rw [loop_noFrame hok he hp hf] at h
          cases h
        · rw [loop_completed hok he hp hf] at h
          cases h
      by_cases hm : mapHdlcStatus (L.push s.decoder e.bytes).1 = .needMoreData
      · rw [loop_continued hok he hm] at h
        have hrest := ih h
        exact hrest
      · rw [loop_rejected hok he hp hm] at h
        cases h

/-- A failed read leaves the frames to come as they were. -/
theorem receiveDecodedFrame_fail {s s' : State L} {status : ProfileStatus}
    (hb : s.readBufferSize ≠ 0) (h : receiveDecodedFrame s = (.fail status, s')) :
    incoming s' = incoming s ∧ s'.reads.length < s.reads.length := by
  have hsame := receiveDecodedFrame_incoming s
  rw [h] at hsame
  refine ⟨hsame.symm, ?_⟩
  -- A frame that is pending is handed out without a read, and then the call does not fail.
  rcases hp : s.pendingHdlcFrames with _ | ⟨frame, frames⟩
  · rw [receiveDecodedFrame_of_empty hp hb] at h
    exact receiveDecodedFrameLoop_fail h
  · rw [receiveDecodedFrame_of_pending hp] at h
    cases h

/-- A channel waits when no frame is to come. -/
theorem receiveDecodedFrame_waiting {s s' : State L}
    (h : receiveDecodedFrame s = (.waiting, s')) : incoming s = [] ∧ incoming s' = [] := by
  have hsame := receiveDecodedFrame_incoming s
  rw [h] at hsame
  -- All reads are used up and no frame is left over, so no frame is to come.
  have hnil : incoming s' = [] := by
    rcases hp : s.pendingHdlcFrames with _ | ⟨frame, frames⟩
    · by_cases hb : s.readBufferSize = 0
      · rw [receiveDecodedFrame_of_noBuffer hp hb] at h
        cases h
      · rw [receiveDecodedFrame_of_empty hp hb] at h
        rcases receiveDecodedFrameLoop_waiting h with ⟨hreads, hframes⟩
        rw [incoming, hreads, hframes, hp]
        rfl
    · rw [receiveDecodedFrame_of_pending hp] at h
      cases h
  exact ⟨hsame.trans hnil, hnil⟩

/-- A frame a channel without a session takes an APDU from. -/
structure Alone (L : HdlcLib) (options : ApduChannelOptions) (frame : L.Frame)
    (apdu : List UInt8) : Prop where
  whole : frame.segmented = false
  readable : readInformation L options frame.information = .ok apdu

/-- The APDU of such a frame. -/
def apduIn (L : HdlcLib) (options : ApduChannelOptions) (frame : L.Frame) : List UInt8 :=
  (readInformation L options frame.information).toOption.getD []

theorem Alone.apduIn {options : ApduChannelOptions} {frame : L.Frame} {apdu : List UInt8}
    (h : Alone L options frame apdu) : apduIn L options frame = apdu := by
  rw [Hdlc.apduIn, h.readable]
  rfl

theorem apduIn_of_alone {options : ApduChannelOptions} {frames : List L.Frame}
    {apdus : List (List UInt8)} (h : List.Forall₂ (Alone L options) frames apdus) :
    frames.map (apduIn L options) = apdus := by
  induction h with
  | nil => rfl
  | cons hone _ ih => rw [List.map_cons, hone.apduIn, ih]

/-- The queue of APDUs: those taken from frames, then those of the frames to
    come. -/
def ahead (s : State L) : List (List UInt8) :=
  s.pendingApdus ++ (incoming s).map (apduIn L s.options)

/-- A channel without a session, every frame to come carrying an APDU. -/
structure Readable (s : State L) : Prop where
  plain : ¬ s.options.hdlcUseSession = true
  buffer : s.readBufferSize ≠ 0
  frames : ∀ frame ∈ incoming s, ∃ apdu, Alone L s.options frame apdu

/-- What a turn of the receive loop does to the queue. -/
structure Advances {α : Type} (s : State L) (o : Outcome ProfileStatus α) (s' : State L) :
    Prop where
  readable : Readable s'
  queue : ahead s' = ahead s
  reads : s'.reads.length ≤ s.reads.length
  fail : ∀ status, o = .fail status → s'.reads.length < s.reads.length
  waiting : o = .waiting → s.pendingApdus = [] → ahead s' = []

/-- One turn takes an APDU from the next frame, and ends the loop with it. -/
theorem receiveTurn_advances {s s' : State L} {o : Outcome ProfileStatus Bool} (hs : Readable s)
    (h : receiveTurn s = (o, s')) : Advances s o s' ∧ o ≠ .done false := by
  have haside := receiveDecodedFrame_aside s
  have hbuffer := (sameMake_primitives.receiveDecodedFrame s).2
  have hreads : (receiveDecodedFrame s).2.reads.length ≤ s.reads.length := by
    rcases receiveDecodedFrame_readsOnly s with ⟨taken, htaken, -⟩
    rw [htaken, List.length_append]
    omega
  rcases hr : receiveDecodedFrame s with ⟨frame | status | _, s1⟩ <;>
    simp only [hr] at haside hbuffer hreads
  · -- The frame carries an APDU, which goes to the end of the second queue.
    have hcome := receiveDecodedFrame_done hr
    rcases hs.frames frame (hcome ▸ List.mem_cons_self) with ⟨apdu, halone⟩
    have hplain : ¬ s1.options.hdlcUseSession = true := haside.options ▸ hs.plain
    have hread : readInformation L s1.options frame.information = .ok apdu :=
      haside.options ▸ halone.readable
    have hdecode : decodeFrameToPendingApdu frame s1 =
        (.done (), queueing frame.information apdu s1) := by
      rw [decodeFrameToPendingApdu, if_pos (Bool.not_eq_true _ ▸ hplain), halone.whole,
        if_neg Bool.false_ne_true]
      exact decodeComplete_of_ok hread
    have hne : (!(queueing frame.information apdu s1).pendingApdus.isEmpty) = true := by
      simp [queueing]
    have hturn : receiveTurn s = (.done true, queueing frame.information apdu s1) := by
      rw [receiveTurn, Proc.bind_of_done _ hr, handleFrame_of_done hdecode, hne]
    rw [hturn] at h
    obtain ⟨rfl, rfl⟩ := Prod.mk.inj h
    have hsame : incoming (queueing frame.information apdu s1) = incoming s1 := rfl
    refine ⟨⟨⟨hplain, ?_, ?_⟩, ?_, hreads, fun _ ho => (by cases ho), fun ho => (by cases ho)⟩,
      fun ho => (by cases ho)⟩
    · exact hbuffer ▸ hs.buffer
    · intro f hf
      rw [hsame] at hf
      exact haside.options ▸ hs.frames f (hcome ▸ List.mem_cons_of_mem _ hf)
    · rw [ahead, ahead, hsame, hcome, List.map_cons, halone.apduIn]
      simp only [queueing, haside.apdus, haside.options, List.append_assoc, List.singleton_append]
  · have hturn : receiveTurn s = (.fail status, s1) := Proc.bind_of_fail _ hr
    rw [hturn] at h
    obtain ⟨rfl, rfl⟩ := Prod.mk.inj h
    rcases receiveDecodedFrame_fail hs.buffer hr with ⟨hsame, hlt⟩
    refine ⟨⟨⟨haside.options ▸ hs.plain, hbuffer ▸ hs.buffer, ?_⟩, ?_, hreads, fun _ _ => hlt,
      fun ho => (by cases ho)⟩, fun ho => (by cases ho)⟩
    · rw [hsame, haside.options]
      exact hs.frames
    · rw [ahead, ahead, hsame, haside.apdus, haside.options]
  · have hturn : receiveTurn s = (.waiting, s1) := Proc.bind_of_waiting _ hr
    rw [hturn] at h
    obtain ⟨rfl, rfl⟩ := Prod.mk.inj h
    rcases receiveDecodedFrame_waiting hr with ⟨hnil, hnil'⟩
    refine ⟨⟨⟨haside.options ▸ hs.plain, hbuffer ▸ hs.buffer, ?_⟩, ?_, hreads,
      fun _ ho => (by cases ho), ?_⟩, fun ho => (by cases ho)⟩
    · rw [hnil']
      exact fun f hf => absurd hf List.not_mem_nil
    · rw [ahead, ahead, hnil, hnil', haside.apdus, List.map_nil, List.map_nil]
    · intro _ hq
      rw [ahead, hnil', haside.apdus, hq]
      rfl

/-- The loop of `ReceiveNextApdu` is one such turn. -/
theorem receiveNextApdu_advances {s s' : State L} {o : Outcome ProfileStatus Unit}
    (hs : Readable s) (h : receiveNextApdu s = (o, s')) : Advances s o s' := by
  -- One turn is enough: every frame to come is readable, so a turn that ends Ok queues it.
  rcases hr : receiveTurn s with ⟨b | status | _, s1⟩
  · rcases receiveTurn_advances hs hr with ⟨hadv, hne⟩
    cases b with
    -- A turn that goes on would have met a frame that decodes to nothing.
    | false => exact absurd rfl hne
    | true =>
        rw [receiveNextApdu, Proc.repeatUntil_of_true hr] at h
        obtain ⟨rfl, rfl⟩ := Prod.mk.inj h
        exact ⟨hadv.readable, hadv.queue, hadv.reads, nofun, nofun⟩
  · have hadv := (receiveTurn_advances hs hr).1
    rw [receiveNextApdu, Proc.repeatUntil_of_fail hr] at h
    obtain ⟨rfl, rfl⟩ := Prod.mk.inj h
    exact ⟨hadv.readable, hadv.queue, hadv.reads, fun _ _ => hadv.fail _ rfl, nofun⟩
  · have hadv := (receiveTurn_advances hs hr).1
    rw [receiveNextApdu, Proc.repeatUntil_of_waiting hr] at h
    obtain ⟨rfl, rfl⟩ := Prod.mk.inj h
    exact ⟨hadv.readable, hadv.queue, hadv.reads, nofun, fun _ => hadv.waiting rfl⟩

/-- The loop keeps the queue of APDUs. -/
theorem receiveNextApdu_takesIn :
    TakesIn pending (receiveNextApdu (L := L)) (·.reads) Readable ahead where
  done := by
    intro s s' hs h
    have hadv := receiveNextApdu_advances hs h
    exact ⟨hadv.queue, hadv.reads, hadv.readable⟩
  fail := by
    intro s s' status hs h
    have hadv := receiveNextApdu_advances hs h
    exact ⟨hadv.queue, hadv.fail status rfl, hadv.readable⟩
  waiting := by
    intro s s' hs hq h
    have hadv := receiveNextApdu_advances hs h
    -- Waiting with an empty queue leaves nothing ahead, before the call and after it.
    have hnil := hadv.waiting rfl hq
    exact ⟨hadv.queue.symm.trans hnil, hnil, hadv.readable⟩
  pop := by
    intro s hs hq
    rcases hp : s.pendingApdus with _ | ⟨apdu, apdus⟩
    · exact absurd hp hq
    · refine ⟨?_, hs.plain, hs.buffer, hs.frames⟩
      have hcome : incoming (pending.pop s) = incoming s := rfl
      rw [ahead, ahead, hcome]
      simp only [pending, hp, List.cons_append, List.headD_cons, List.tail_cons]

/-- The channel takes its results from the queue. -/
theorem delivers : Delivers (channel L) Readable ahead :=
  (receiveNextApdu_takesIn.awaits _ _).delivers

/-- Sending a list of APDUs, one after the other. -/
def sendAll : List ProfileByteView → Call L Unit
  | [] => pure ()
  | apdu :: apdus => sendApdu apdu >>= fun _ => sendAll apdus

/-- `Ok` from `BuildFrame`: the LPDU stands in one frame, whatever the direction. -/
theorem buildFrame_done {lpdu bytes : List UInt8} {s s' : State L}
    (h : buildFrame lpdu s = (.done bytes, s')) :
    s' = s ∧ ∃ frame : L.Frame, L.encodeFrame frame s.hdlcLimits = (.ok, bytes) ∧
      frame.segmented = false ∧ frame.information = lpdu := by
  -- The chain of BuildFrame: options, limits, the two addresses, the control field, the bytes.
  rcases Proc.bind_done_iff.mp h with ⟨options, s1, ho, h1⟩
  obtain ⟨-, rfl⟩ := Prod.mk.inj ho
  rcases Proc.bind_done_iff.mp h1 with ⟨limits, s2, hl, h2⟩
  obtain ⟨hlimits, rfl⟩ := Prod.mk.inj hl
  rcases Proc.bind_done_iff.mp h2 with ⟨client, s3, hc, h3⟩
  rcases Proc.bind_done_iff.mp h3 with ⟨server, s4, hv, h4⟩
  rcases Proc.bind_done_iff.mp h4 with ⟨control, s5, hd, h5⟩
  obtain rfl := (checked_done hc).2
  obtain rfl := (checked_done hv).2
  obtain rfl := (checked_done hd).2
  rcases checked_done h5 with ⟨henc, rfl⟩
  rw [← Outcome.done.inj hlimits] at henc
  exact ⟨rfl, _, henc, rfl, rfl⟩

/-- `Ok` from `SendApdu` without a session: the frame of the APDU was written,
    once and whole, and the channel is as it was. -/
theorem sendApdu_plain_done {apdu : ProfileByteView} {s s' : State L}
    (hplain : ¬ s.options.hdlcUseSession = true) (h : sendApdu apdu s = (.done (), s')) :
    ∃ lpdu bytes, ∃ frame : L.Frame, encodeApdu L s.options apdu.data = (.ok, lpdu) ∧
      L.encodeFrame frame s.hdlcLimits = (.ok, bytes) ∧ frame.segmented = false ∧
      frame.information = lpdu ∧
      ¬ (s.options.maximumApduSize ≠ 0 ∧ s.options.maximumApduSize < apdu.data.length) ∧
      s'.trace = s.trace ++ [.transport (.write bytes .ok)] ∧ s'.toChannel = s.toChannel := by
  rw [sendApdu] at h
  split at h
  · cases h
  next hvalid =>
  split at h
  · cases h
  next hsize =>
  simp only at h
  split at h
  · cases h
  next hllc =>
  -- A valid view has its length for its size, so the limit is one on the bytes.
  rw [size_eq_length (Bool.not_eq_false _ ▸ hvalid)] at hsize
  rw [not_not, mapLlcStatus_eq_ok] at hllc
  rcases Proc.bind_done_iff.mp h with ⟨bytes, s1, hbuild, hwrite⟩
  rcases buildFrame_done hbuild with ⟨rfl, frame, henc, hseg, hinfo⟩
  rw [writeFrameBytes, check_done_iff, mapTransportStatus_eq_ok] at hwrite
  rcases hwrite with ⟨hstatus, rfl⟩
  exact ⟨_, bytes, frame, Prod.ext hllc rfl, henc, hseg, hinfo, hsize, by rw [hstatus], rfl⟩

/-- Completed sends lay encoded frames end to end on the stream, each carrying
    its APDU to a channel with the same limits. -/
theorem sendAll_wire {options : ApduChannelOptions}
    {law : HdlcStreamLaw L (decoderLimits L options)} (codec : HdlcCodecLaw L law)
    (llc : LlcLaw L) {apdus : List ProfileByteView} {s s' : State L}
    (hplain : ¬ s.options.hdlcUseSession = true)
    (hlimits : s.hdlcLimits = decoderLimits L options)
    (hmax : s.options.maximumApduSize = options.maximumApduSize)
    (h : sendAll apdus s = (.done (), s')) :
    ∃ events, ∃ frames : List L.Frame, s'.trace = s.trace ++ events ∧
      List.Forall₂ law.framer.Encodes ((written events).map (·.1)) frames ∧
      List.Forall₂ (Alone L options) frames (apdus.map (·.data)) := by
  -- By induction on the APDUs: each send writes one frame and leaves the options alone.
  induction apdus generalizing s with
  | nil =>
      cases h
      exact ⟨[], [], (List.append_nil _).symm, List.Forall₂.nil, List.Forall₂.nil⟩
  | cons apdu apdus ih =>
      rcases Proc.bind_done_iff.mp h with ⟨_, s1, hsend, hrest⟩
      rcases sendApdu_plain_done hplain hsend with
        ⟨lpdu, bytes, frame, hlpdu, henc, hseg, hinfo, hsize, htrace, hsame⟩
      have hoptions : s1.options = s.options := congrArg Channel.options hsame
      have hsame' : s1.hdlcLimits = s.hdlcLimits := congrArg Channel.hdlcLimits hsame
      rcases ih (hoptions ▸ hplain) (hsame'.trans hlimits) (hoptions ▸ hmax) hrest with
        ⟨events, frames, htrace', hall, hcarry⟩
      -- The peer reads the APDU back: the LLC header is the same, and so is the size limit.
      have halone : Alone L options frame apdu.data := by
        refine ⟨hseg, ?_⟩
        have hdecode := llc.decode hlpdu
        have hok : ¬ mapLlcStatus LlcStatus.ok ≠ .ok := not_not.mpr rfl
        rw [readInformation, hinfo, hdecode]
        simp only
        rw [if_neg hok, ← hmax, if_neg hsize]
      refine ⟨.transport (.write bytes .ok) :: events, frame :: frames, ?_, ?_, ?_⟩
      · rw [htrace', htrace, List.append_assoc, List.singleton_append]
      · exact List.Forall₂.cons (codec.encodes (hlimits ▸ henc)) hall
      · exact List.Forall₂.cons halone hcarry

/-- Without a session, what the stream carries from completed sends is what the
    receive calls hand over: never anything else, and after enough calls all of
    it, wherever the reads fall, whichever overloads were called before and
    whichever way the two ends face. -/
theorem delivered_exactly {options : ApduChannelOptions}
    (law : HdlcStreamLaw L (decoderLimits L options)) (codec : HdlcCodecLaw L law)
    (llc : LlcLaw L) {apdus : List ProfileByteView} {sender sender' receiver : State L}
    (hsend : sendAll apdus sender = (.done (), sender'))
    (hsender : sender.options.hdlcUseSession = false)
    (hlimits : sender.hdlcLimits = decoderLimits L options)
    (hmax : sender.options.maximumApduSize = options.maximumApduSize)
    (hreach : Reachable L options receiver) (hreceiver : options.hdlcUseSession = false)
    (hempty : law.view receiver.decoder = []) (hframes : receiver.pendingHdlcFrames = [])
    (hapdus : receiver.pendingApdus = [])
    (hwire : readBytes receiver.reads =
      (written (sender'.trace.drop sender.trace.length)).flatMap (·.1))
    (rs : List ReceiveCall) :
    (channel L).delivered rs receiver <+: apdus.map (·.data) ∧
      ∃ n, (channel L).delivered (rs ++ List.replicate n .vector) receiver =
        apdus.map (·.data) := by
  have hplain : ¬ sender.options.hdlcUseSession = true := Bool.not_eq_true _ ▸ hsender
  rcases sendAll_wire codec llc hplain hlimits hmax hsend with
    ⟨events, frames, htrace, hall, hcarry⟩
  have hintact : Intact law options receiver := intact_of_reachable hreach
  rw [htrace, List.drop_left, List.flatMap_def] at hwire
  -- What the receiver has ahead is what its decoder finds on the line, cut in any way.
  have hcome : incoming receiver = frames := by
    rw [incoming, hframes, List.nil_append]
    refine decodedAhead_of_scan (r := []) law receiver.reads hintact.live ?_ ?_
    · rw [hempty, Framing.Framer.scan_nil]
    · rw [hempty, List.nil_append, hwire, Framing.Framer.scan_flatten hall]
  -- Each of these frames carries one APDU, so the receiver can read them all.
  have hread : Readable receiver := by
    refine ⟨?_, ?_, ?_⟩
    · rw [hintact.options, hreceiver]
      exact Bool.false_ne_true
    · rw [hintact.buffer]
      exact (scratchSize_pos options).ne'
    · intro frame hmem
      rw [hcome] at hmem
      rw [hintact.options]
      rcases List.forall₂_iff_get.mp hcarry with ⟨hlen, hget⟩
      rcases List.mem_iff_get.mp hmem with ⟨i, rfl⟩
      exact ⟨_, hget i.1 i.2 (hlen ▸ i.2)⟩
  have hqueue : ahead receiver = apdus.map (·.data) := by
    rw [ahead, hapdus, List.nil_append, hcome, hintact.options, apduIn_of_alone hcarry]
  refine ⟨?_, ?_⟩
  · rw [← hqueue, (delivers.delivered_append rs hread).1]
    exact List.prefix_append _ _
  · rw [← hqueue]
    exact delivers.delivered_then rs hread

/-- Two APDUs from a client, the second empty, to a channel set to the other
    direction, over reads that cut the first frame and join its end to the
    second, with a timeout and an empty read in between and a buffer too small
    in front. -/
theorem delivered_exactly_split :
    let sent : List ProfileByteView := [.of [0xC0, 0x01], .of []]
    let options := { defaultApduChannelOptions with hdlcDirection := .serverToClient }
    let wire := Reference.toServer 0x10 [0xE6, 0xE6, 0x00, 0xC0, 0x01] ++
      Reference.toServer 0x10 [0xE6, 0xE6, 0x00]
    let receiver := Reference.hdlcChannel options
      [Reference.arrived (wire.take 7), ⟨.timeout, []⟩, Reference.arrived ((wire.drop 7).take 12),
        ⟨.ok, []⟩, Reference.arrived (wire.drop 19)]
    let rs : List ReceiveCall := [.into ⟨.of [0], some 7⟩, .vector]
    (channel Reference.hdlcLib).delivered rs receiver <+: sent.map (·.data) ∧
      ∃ n, (channel Reference.hdlcLib).delivered (rs ++ List.replicate n .vector) receiver =
        sent.map (·.data) :=
  delivered_exactly (Reference.hdlcStreamLaw _) (Reference.codecLaw _) Reference.llcLaw
    (Prod.ext (by decide +kernel) rfl :
      sendAll [.of [0xC0, 0x01], .of []] (Reference.hdlcChannel defaultApduChannelOptions []) =
        (.done (), (sendAll [.of [0xC0, 0x01], .of []]
          (Reference.hdlcChannel defaultApduChannelOptions [])).2))
    rfl (by rfl) (by rfl) ⟨_, [], rfl, rfl, rfl⟩ rfl rfl rfl rfl (by decide +kernel) _

end Hdlc

end DlmsProfile
