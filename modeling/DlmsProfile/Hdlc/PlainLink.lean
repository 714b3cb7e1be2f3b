import DlmsProfile.Core.Link
import DlmsProfile.Hdlc.Delivery

/-!
# Two HDLC Channels on One Connection

Without a session an HDLC channel sends one frame for an APDU and writes nothing else,
so two of them joined by two pipes are two queues, as two TCP channels are. What a
channel receives goes through two queues of its own before it is handed over, and the
decoder may hold the front of a frame. All that matters for a frame coming in behind is
that what is to be decoded ends with the end of a frame.

## Main definitions

* `Hdlc.Seamless`: What is to be decoded is whole frames.
* `Hdlc.onStream`: The bytes the stream has taken.
* `Hdlc.streamEnd`: A channel with its stream.
* `Hdlc.Level`: The limits are those of the other end.

## Theorems

* `Hdlc.seamless_intake`: Receiving leaves no part of a frame behind.
* `Hdlc.carries`: The channel is one that a connection of queues can be made of.
* `Hdlc.plain_connection`: Two channels are two queues.
-/

namespace DlmsProfile

namespace Hdlc

variable {L : HdlcLib} {limits : HdlcCodecLimits} {stream : HdlcStreamLaw L limits}

/-- What the decoder keeps and what is to be read is frames, the last of them whole. -/
structure Seamless (stream : HdlcStreamLaw L limits) (s : State L) : Prop where
  live : stream.live s.decoder
  kept : stream.framer.scan (stream.view s.decoder) = ([], .rest (stream.view s.decoder))
  whole : (stream.framer.scan (stream.view s.decoder ++ readBytes s.reads)).2 = .rest []

section Seamless

variable {s t : State L}

/-- It depends on the decoder and on the bytes to be read. -/
theorem Seamless.congr (h : Seamless stream s) (hdecoder : t.decoder = s.decoder)
    (hbytes : readBytes t.reads = readBytes s.reads) : Seamless stream t := by
  refine ⟨hdecoder ▸ h.live, ?_, ?_⟩
  · rw [hdecoder]
    exact h.kept
  · rw [hdecoder, hbytes]
    exact h.whole

theorem Seamless.of_same (h : Seamless stream s) (hsame : SameIntake s t) : Seamless stream t :=
  h.congr hsame.decoder (congrArg readBytes hsame.reads)

/-- A push is not rejected, and what is kept then goes with the rest. -/
theorem Seamless.pushed {e : ReadEvent} {rest : List ReadEvent} (h : Seamless stream s)
    (hreads : s.reads = e :: rest) (hok : e.status = .ok) :
    Seamless stream { afterRead e rest s with decoder := (L.push s.decoder e.bytes).2.2 } ∧
      (mapHdlcStatus (L.push s.decoder e.bytes).1 = .ok ∨
        mapHdlcStatus (L.push s.decoder e.bytes).1 = .needMoreData) := by
  have hwhole := h.whole
  rw [hreads, readBytes, if_pos hok, ← List.append_assoc] at hwhole
  -- Bytes that were rejected now would be rejected at the end as well.
  rcases hscan : stream.framer.scan (stream.view s.decoder ++ e.bytes) with ⟨xs, kept | status⟩
  · rcases stream.follows.push_rest h.live hscan with ⟨-, hview, hstatus⟩
    rw [Framing.Framer.scan_append_rest _ hscan, ← hview] at hwhole
    rw [← hview] at hscan
    refine ⟨⟨stream.follows.push_live e.bytes h.live, Framing.Framer.scan_rest_self hscan,
      hwhole⟩, hstatus.imp_right And.left⟩
  · rw [Framing.Framer.scan_append_reject _ hscan] at hwhole
    cases hwhole

theorem loop_seamless (reads : List ReadEvent) (hreads : s.reads = reads)
    (h : Seamless stream s) : Seamless stream (receiveDecodedFrameLoop reads s).2 := by
  induction reads generalizing s with
  | nil => exact h.congr rfl (congrArg readBytes hreads.symm)
  | cons e rest ih =>
      -- A read that brings nothing.
      have hskip : (e.status ≠ .ok ∨ e.bytes = []) → Seamless stream (afterRead e rest s) := by
        intro hnone
        refine h.congr rfl ?_
        rw [hreads, readBytes]
        split
        next hok => rw [hnone.resolve_left (not_not.mpr hok), List.nil_append]; rfl
        next => rfl
      by_cases hok : e.status = .ok
      swap
      · rw [loop_readFailed hok]
        exact hskip (Or.inl hok)
      by_cases he : e.bytes = []
      · rw [loop_readEmpty hok he]
        exact hskip (Or.inr he)
      rcases h.pushed hreads hok with ⟨hnext, hstatus⟩
      by_cases hst : mapHdlcStatus (L.push s.decoder e.bytes).1 = .ok
      · rcases hf : (L.push s.decoder e.bytes).2.1 with _ | ⟨frame, frames⟩
        · rw [loop_noFrame hok he hst hf]
          exact hnext
        · rw [loop_completed hok he hst hf]
          exact hnext.congr rfl rfl
      · rw [loop_continued hok he (hstatus.resolve_left hst)]
        exact ih rfl hnext

theorem receiveDecodedFrame_seamless :
    Proc.Preserves (Seamless stream) (receiveDecodedFrame (L := L)) := by
  intro s h
  rcases hp : s.pendingHdlcFrames with _ | ⟨frame, frames⟩
  · by_cases hb : s.readBufferSize = 0
    · rw [receiveDecodedFrame_of_noBuffer hp hb]
      exact h
    · rw [receiveDecodedFrame_of_empty hp hb]
      exact loop_seamless s.reads rfl h
  · rw [receiveDecodedFrame_of_pending hp]
    exact h.congr rfl rfl

/-- Receiving leaves no part of a frame behind, with a session or without. -/
theorem seamless_intake :
    IntakePrimitives fun s s' : State L => Seamless stream s → Seamless stream s' where
  refl _ h := h
  trans _ _ _ h h' hs := h' (h hs)
  sessionReceive frame s hs := hs.of_same (sessionReceive_sameIntake frame s)
  writeFrameBytes bytes s hs := hs.of_same (writeFrameBytes_sameIntake bytes s)
  sleepBeforeRetry s hs := hs.of_same (sleepBeforeRetry_sameIntake s)
  receiveDecodedFrame := receiveDecodedFrame_seamless
  receiveReady _ s hs := hs.of_same (sessionBuild_sameIntake _ s)
  decodeComplete frame s hs := hs.of_same (decodeComplete_sameIntake frame s)
  reassembler _ _ hs := hs.congr rfl rfl

theorem call_seamless (call : ReceiveCall) (s : State L) (h : Seamless stream s) :
    Seamless stream ((channel L).call call s).2 :=
  PendingQueue.within_call seamless_intake.refl seamless_intake.trans
    seamless_intake.within_awaitApdu (fun _ hs => hs.congr rfl rfl) call s h

end Seamless

/-- The bytes of the writes that succeeded. -/
def onStream (s : State L) : List UInt8 :=
  (written s.trace).flatMap fun write => if write.2 = .ok then write.1 else []

/-- A channel with its stream. -/
@[reducible] def streamEnd (L : HdlcLib) : StreamEnd where
  toApduChannel := channel L
  send := sendApdu
  offer := fun reads s => { s with reads := reads }
  grant := fun writes s => { s with writes := writes }
  wrote := onStream

/-- The limits of a channel are those of the channel at the other end. -/
structure Level (stream : HdlcStreamLaw L limits) (maximum : Nat) (s : State L) : Prop
    extends Seamless stream s where
  limits : s.hdlcLimits = limits
  maximum : s.options.maximumApduSize = maximum

section Sending

variable {apdu : ProfileByteView} {s s' t : State L} {o : Outcome ProfileStatus Unit}

/-- A frame is built of the options and the limits, and nothing comes of it but bytes. -/
theorem buildFrame_snd (lpdu : List UInt8) (s : State L) : (buildFrame lpdu s).2 = s := by
  have htrans : ∀ a b c : State L, b = a → c = b → c = a := fun _ _ _ h h' => h'.trans h
  have hgets : ∀ {β : Type} (f : State L → β),
      Proc.Within (fun a b : State L => b = a) (Proc.gets f : Call L β) := fun f =>
    Proc.within_gets (ε := ProfileStatus) (fun _ => rfl) f
  have hchecked : ∀ {β : Type} (result : HdlcStatus × β),
      Proc.Within (fun a b : State L => b = a) (checked result) := fun result a =>
    checked_snd result a
  refine Proc.within_bind htrans (hgets _) (fun options => ?_) s
  refine Proc.within_bind htrans (hgets _) fun limits => ?_
  refine Proc.within_bind htrans (hchecked _) fun client => ?_
  refine Proc.within_bind htrans (hchecked _) fun server => ?_
  exact Proc.within_bind htrans (hchecked _) fun control => hchecked _

/-- A send that is not completed leaves nothing on the stream. -/
theorem sendApdu_plain_failed (hplain : ¬ s.options.hdlcUseSession = true)
    (h : sendApdu apdu s = (o, s')) (ho : o ≠ .done ()) :
    s'.toChannel = s.toChannel ∧ onStream s' = onStream s := by
  rw [sendApdu] at h
  split at h
  · rw [← (Prod.mk.inj h).2]
    exact ⟨rfl, rfl⟩
  split at h
  · rw [← (Prod.mk.inj h).2]
    exact ⟨rfl, rfl⟩
  simp only at h
  split at h
  · rw [← (Prod.mk.inj h).2]
    exact ⟨rfl, rfl⟩
  have hsame := buildFrame_snd (encodeApdu L s.options apdu.data).2 s
  rcases hbuild : buildFrame (encodeApdu L s.options apdu.data).2 s with
    ⟨bytes | status | _, s1⟩ <;> rw [hbuild] at hsame <;> obtain rfl : s1 = s := hsame
  · rw [Proc.bind_of_done _ hbuild] at h
    by_cases hstatus : s1.writes.headD .ok = .ok
    · rw [writeFrameBytes, hstatus, mapTransportStatus_eq_ok.mpr rfl, check_ok] at h
      exact absurd (Prod.mk.inj h).1.symm ho
    -- The write failed, and a failed write leaves nothing on the stream.
    · have hleft := congrArg Prod.snd h
      rw [writeFrameBytes_snd] at hleft
      simp only at hleft
      rw [← hleft]
      refine ⟨rfl, ?_⟩
      simp only [onStream, written_append, List.flatMap_append]
      have hnone : (written [(.transport (.write bytes (s1.writes.headD .ok)) : Event L)]).flatMap
          (fun write => if write.2 = .ok then write.1 else []) = [] := by
        simp only [written, List.filterMap_cons, List.filterMap_nil, List.flatMap_cons,
          List.flatMap_nil, if_neg hstatus, List.append_nil]
      rw [hnone, List.append_nil]
  · rw [Proc.bind_of_fail _ hbuild] at h
    rw [← (Prod.mk.inj h).2]
    exact ⟨rfl, rfl⟩
  · rw [Proc.bind_of_waiting _ hbuild] at h
    rw [← (Prod.mk.inj h).2]
    exact ⟨rfl, rfl⟩

/-- The frame of an APDU, read by a channel with the same limit. -/
theorem alone_of_sent (llc : LlcLaw L) {options : ApduChannelOptions} {lpdu : List UInt8}
    {frame : L.Frame} (hlpdu : encodeApdu L s.options apdu.data = (.ok, lpdu))
    (hseg : frame.segmented = false) (hinfo : frame.information = lpdu)
    (hsize : ¬ (options.maximumApduSize ≠ 0 ∧ options.maximumApduSize < apdu.data.length)) :
    Alone L options frame apdu.data := by
  have hok : ¬ mapLlcStatus LlcStatus.ok ≠ .ok := not_not.mpr rfl
  refine ⟨hseg, ?_⟩
  rw [readInformation, hinfo, llc.decode hlpdu]
  simp only
  rw [if_neg hok, if_neg hsize]

/-- What is to come depends on the channel and its reads. -/
theorem Readable.congr (hchannel : t.toChannel = s.toChannel)
    (hincoming : incoming t = incoming s) (h : Readable s) : Readable t ∧ ahead t = ahead s := by
  have hoptions : t.options = s.options := congrArg Channel.options hchannel
  refine ⟨⟨hoptions ▸ h.plain, ?_, ?_⟩, ?_⟩
  · rw [congrArg Channel.readBufferSize hchannel]
    exact h.buffer
  · rw [hincoming, hoptions]
    exact h.frames
  · rw [ahead, ahead, hincoming, hoptions, congrArg Channel.pendingApdus hchannel]

end Sending

section Link

variable {maximum : Nat} {s t : State L}

/-- The frames to come are those of the bytes to come. -/
theorem Seamless.incoming (h : Seamless stream s) : incoming s = s.pendingHdlcFrames ++
    (stream.framer.scan (stream.view s.decoder ++ readBytes s.reads)).1 := by
  rw [Hdlc.incoming, decodedAhead_of_scan stream s.reads h.live h.kept (Prod.ext rfl h.whole)]

/-- However the bytes to come are cut, what is to come is the same. -/
theorem level_congr (hchannel : t.toChannel = s.toChannel)
    (hbytes : readBytes t.reads = readBytes s.reads) (h : Readable s ∧ Level stream maximum s) :
    (Readable t ∧ Level stream maximum t) ∧ ahead t = ahead s := by
  have hdecoder : t.decoder = s.decoder := congrArg Channel.decoder hchannel
  have hseamless : Seamless stream t := h.2.toSeamless.congr hdecoder hbytes
  have hincoming : Hdlc.incoming t = Hdlc.incoming s := by
    rw [hseamless.incoming, h.2.incoming, hdecoder, hbytes,
      congrArg Channel.pendingHdlcFrames hchannel]
  rcases h.1.congr hchannel hincoming with ⟨hreadable, hahead⟩
  refine ⟨⟨hreadable, hseamless, ?_, ?_⟩, hahead⟩
  · exact (congrArg Channel.hdlcLimits hchannel).trans h.2.limits
  · rw [congrArg Channel.options hchannel]
    exact h.2.maximum

/-- A frame behind the others brings its APDU behind theirs. -/
theorem brings_frame {frame : L.Frame} {bytes apdu : List UInt8}
    (henc : stream.framer.Encodes bytes frame)
    (halone : ∀ options : ApduChannelOptions, options.maximumApduSize = maximum →
      Alone L options frame apdu) :
    DlmsProfile.Brings (streamEnd L) (fun s => Readable s ∧ Level stream maximum s) ahead bytes
      apdu := by
  intro r hr
  rcases hr with ⟨hreadable, hlevel⟩
  -- The bytes come at the end of a stream that is whole, so the frame comes last.
  have hscan : stream.framer.scan (stream.view r.decoder ++ readBytes (r.reads ++ [⟨.ok, bytes⟩])) =
      ((stream.framer.scan (stream.view r.decoder ++ readBytes r.reads)).1 ++ [frame],
        .rest []) := by
    rw [readBytes_append, ← List.append_assoc, readBytes, if_pos rfl, readBytes, List.append_nil,
      Framing.Framer.scan_append_rest _ (Prod.ext rfl hlevel.whole), List.nil_append,
      Framing.Framer.scan_encodes henc]
  have hseamless : Seamless stream { r with reads := r.reads ++ [⟨.ok, bytes⟩] } :=
    ⟨hlevel.live, hlevel.kept, congrArg Prod.snd hscan⟩
  have hincoming : incoming { r with reads := r.reads ++ [⟨.ok, bytes⟩] } =
      incoming r ++ [frame] := by
    rw [hseamless.incoming, hlevel.incoming, List.append_assoc, hscan]
  have hone := halone r.options hlevel.maximum
  refine ⟨⟨⟨hreadable.plain, hreadable.buffer, ?_⟩, hseamless, hlevel.limits, hlevel.maximum⟩, ?_⟩
  · rw [hincoming, List.forall_mem_append]
    refine ⟨hreadable.frames, fun f hf => ?_⟩
    rw [List.mem_singleton.mp hf]
    exact ⟨apdu, hone⟩
  · rw [ahead, hincoming, List.map_append, ← List.append_assoc]
    exact congrArg (ahead r ++ [·]) hone.apduIn

theorem receiveDecodedFrameLoop_limits (reads : List ReadEvent) (s : State L) :
    (receiveDecodedFrameLoop reads s).2.hdlcLimits = s.hdlcLimits := by
  -- On the reads.
  induction reads generalizing s with
  | nil => rfl
  | cons e rest ih =>
      simp only [receiveDecodedFrameLoop]
      split
      · rfl
      split
      · rfl
      split
      · split <;> rfl
      split
      · rfl
      · exact ih _

/-- Receiving leaves the limits alone. -/
theorem limits_intake : IntakePrimitives fun s s' : State L =>
    s'.hdlcLimits = s.hdlcLimits ∧ s'.options = s.options where
  refl _ := ⟨rfl, rfl⟩
  trans _ _ _ h h' := ⟨h'.1.trans h.1, h'.2.trans h.2⟩
  sessionReceive frame s := by
    rw [sessionReceive_snd]
    exact ⟨rfl, rfl⟩
  writeFrameBytes bytes s := by
    rw [writeFrameBytes_snd]
    exact ⟨rfl, rfl⟩
  sleepBeforeRetry s := by
    rw [sleepBeforeRetry]
    split
    · exact ⟨rfl, rfl⟩
    · rw [check_snd]
      exact ⟨rfl, rfl⟩
  -- The options are kept as by everything aside, and the limits by the loop.
  receiveDecodedFrame s := by
    refine ⟨?_, (receiveDecodedFrame_aside s).options⟩
    rw [receiveDecodedFrame]
    split
    · rfl
    split
    · rfl
    · exact receiveDecodedFrameLoop_limits _ s
  receiveReady _ s := by
    rw [sessionBuild_snd]
    exact ⟨rfl, rfl⟩
  decodeComplete frame s := by
    simp only [decodeCompleteInformationToPendingApdu]
    split
    · exact ⟨rfl, rfl⟩
    split <;> exact ⟨rfl, rfl⟩
  reassembler _ _ := ⟨rfl, rfl⟩

theorem call_level (call : ReceiveCall) (s : State L) (h : Level stream maximum s) :
    Level stream maximum ((channel L).call call s).2 := by
  have hpop : ∀ s : State L,
      (pending.pop s).hdlcLimits = s.hdlcLimits ∧ (pending.pop s).options = s.options :=
    fun _ => ⟨rfl, rfl⟩
  rcases PendingQueue.within_call limits_intake.refl limits_intake.trans
    limits_intake.within_awaitApdu hpop call s with ⟨hlimits, hoptions⟩
  refine ⟨call_seamless call s h.toSeamless, hlimits.trans h.limits, ?_⟩
  exact (congrArg ApduChannelOptions.maximumApduSize hoptions).trans h.maximum

/-- The channel is one that a connection of queues can be made of. -/
theorem carries (codec : HdlcCodecLaw L stream) (llc : LlcLaw L) (maximum : Nat) :
    DlmsProfile.Carries (streamEnd L) (fun s => Readable s ∧ Level stream maximum s) ahead where
  delivers := delivers.and call_level
  reads_offer _ _ := rfl
  offer_offer _ _ _ := rfl
  offer hs hscript := level_congr rfl hscript hs
  send := by
    intro s s' apdu writes o h script hs
    have hsend : sendApdu apdu { s with writes := writes } = (o, s') := h
    let granted : State L := { s with writes := writes }
    have hplain : ¬ granted.options.hdlcUseSession = true := hs.1.plain
    -- A send that completed left the frame of the APDU, and any other left nothing.
    by_cases ho : o = .done ()
    · subst ho
      rcases sendApdu_plain_done hplain hsend with
        ⟨lpdu, bytes, frame, hlpdu, henc, hseg, hinfo, hsize, htrace, hsame⟩
      refine ⟨level_congr hsame rfl hs, bytes, ?_, fun _ => ?_, fun hno => absurd rfl hno⟩
      · simp only [onStream, htrace, written_append, List.flatMap_append]
        exact congrArg _ (List.append_nil bytes)
      · have hlimits : s.hdlcLimits = limits := hs.2.limits
        refine brings_frame (codec.encodes (hlimits ▸ henc)) fun options hmax => ?_
        refine alone_of_sent llc hlpdu hseg hinfo ?_
        have hsame : s.options.maximumApduSize = maximum := hs.2.maximum
        rw [hmax, ← hsame]
        exact hsize
    · rcases sendApdu_plain_failed hplain hsend ho with ⟨hsame, hnone⟩
      refine ⟨level_congr hsame rfl hs, [], ?_, fun hdone => absurd hdone ho, fun _ => rfl⟩
      exact hnone.trans (List.append_nil _).symm

/-- Two channels without a session and with the same limits, connected as they were
    constructed, are two queues of APDUs, whichever ways they face, if a write that fails
    passes on no byte. However calls at the two ends follow each other, whichever writes
    fail, whatever status reads have and wherever they fall, what one end received is what
    the other sent, in order and once, and what is missing will be received. -/
theorem plain_connection (codec : HdlcCodecLaw L stream) (llc : LlcLaw L)
    {options : Side → ApduChannelOptions} (hplain : ∀ side, (options side).hdlcUseSession = false)
    (hlimits : ∀ side, decoderLimits L (options side) = limits)
    (hmaximum : ∀ side, (options side).maximumApduSize = maximum) {n n' : Net (streamEnd L)}
    (hnew : ∀ side, (n.ends side).toChannel = newChannel L (options side) ∧ n.wire side = [])
    {labels : List (Fifo.Label Side (List UInt8))} (hrun : Traces Net.Step n labels n') :
    ∃ q : Side → List (List UInt8), Traces Fifo.Step (fun _ => []) labels q ∧
      ∀ side, Fifo.puts side labels = Fifo.takes side labels ++ q side ∧
        ∀ script, readBytes script = n'.wire side →
          ∃ k, (channel L).delivered (List.replicate k .vector)
            { n'.ends side with reads := script } = q side := by
  refine Net.carried (carries codec llc maximum) (fun side => ?_) hrun
  rcases hnew side with ⟨hchannel, hwire⟩
  have hoptions : (n.ends side).options = options side := by
    rw [hchannel]
    rfl
  have hdecoder : (n.ends side).decoder = L.newDecoder limits := by
    rw [hchannel, ← hlimits side]
    rfl
  have hview : stream.view (n.ends side).decoder = [] := by rw [hdecoder, stream.new.2]
  have hframes : (n.ends side).pendingHdlcFrames = [] := by
    rw [hchannel]
    rfl
  have hapdus : (n.ends side).pendingApdus = [] := by
    rw [hchannel]
    rfl
  have hread : readBytes [⟨TransportStatus.ok, n.wire side⟩] = [] := by
    rw [hwire]
    rfl
  have hscan : stream.framer.scan (stream.view (n.ends side).decoder ++
      readBytes [⟨.ok, n.wire side⟩]) = ([], .rest []) := by
    rw [hview, hread, List.append_nil, Framing.Framer.scan_nil]
  -- Nothing is kept and nothing is on the wire, so nothing is to come.
  have hseamless : Seamless stream (n.ready side) := by
    refine ⟨?_, ?_, congrArg Prod.snd hscan⟩
    · rw [Net.ready, hdecoder]
      exact stream.new.1
    · rw [Net.ready, hview, Framing.Framer.scan_nil]
  have hincoming : incoming (n.ready side) = [] := by
    rw [hseamless.incoming]
    exact (congrArg₂ (· ++ ·) hframes (congrArg Prod.fst hscan)).trans rfl
  refine ⟨⟨⟨?_, ?_, ?_⟩, hseamless, ?_, ?_⟩, ?_⟩
  · rw [Net.ready, hoptions, hplain side]
    exact Bool.false_ne_true
  · rw [Net.ready, hchannel]
    exact (scratchSize_pos (options side)).ne'
  · rw [hincoming]
    exact fun frame hframe => absurd hframe List.not_mem_nil
  · rw [Net.ready, hchannel]
    exact hlimits side
  · rw [Net.ready, hoptions]
    exact hmaximum side
  · rw [ahead, hincoming, Net.ready, hapdus]
    rfl

end Link

/-- The two ends of a link, a client and a server. -/
def facing (side : Side) : ApduChannelOptions :=
  { defaultApduChannelOptions with
    hdlcDirection := if side = .left then .clientToServer else .serverToClient }

/-- The client sends an APDU, and the server receives it in two reads. -/
theorem plain_connection_one :
    let start : Net (streamEnd Reference.hdlcLib) :=
      ⟨fun side => Reference.hdlcChannel (facing side) [], fun _ => []⟩
    ∃ n', Traces Net.Step start [.put .right [0xC0], .take .right [0xC0]] n' ∧
      ∃ q : Side → List (List UInt8),
        Traces Fifo.Step (fun _ => []) [.put .right [0xC0], .take .right [0xC0]] q ∧
        ∀ side, Fifo.puts side [.put .right [0xC0], .take .right [0xC0]] =
            Fifo.takes side [.put .right [0xC0], .take .right [0xC0]] ++ q side ∧
          ∀ script, readBytes script = n'.wire side →
            ∃ k, (channel Reference.hdlcLib).delivered (List.replicate k .vector)
              { n'.ends side with reads := script } = q side := by
  intro start
  let wire := Reference.toServer 0x10 [0xE6, 0xE6, 0x00, 0xC0]
  have hscript : readBytes [Reference.arrived (wire.take 7), Reference.arrived (wire.drop 7)] =
      (start.sent .left (.of [0xC0]) []).2.wire .right := by decide +kernel
  have hsend := Net.Step.send start .left (.of [0xC0]) []
  have hreceive := Net.Step.receive (start.sent .left (.of [0xC0]) []).2 .right .vector _ hscript
  have hsent : sentLabel .left (.of [0xC0] : ProfileByteView).data
      (start.sent .left (.of [0xC0]) []).1 = .put .right [0xC0] := by decide +kernel
  have hreceived : receivedLabel .right ((start.sent .left (.of [0xC0]) []).2.received .right
      .vector [Reference.arrived (wire.take 7), Reference.arrived (wire.drop 7)]).1.delivered =
      .take .right [0xC0] := by decide +kernel
  rw [hsent] at hsend
  rw [hreceived] at hreceive
  have hrun := Traces.cons hsend (Traces.cons hreceive Traces.nil)
  have hlimits : ∀ side, decoderLimits Reference.hdlcLib (facing side) =
      decoderLimits Reference.hdlcLib defaultApduChannelOptions := fun _ => rfl
  have hmaximum : ∀ side, (facing side).maximumApduSize =
      defaultApduChannelOptions.maximumApduSize := fun _ => rfl
  exact ⟨_, hrun, plain_connection (Reference.codecLaw _) Reference.llcLaw (fun _ => rfl) hlimits
    hmaximum (fun _ => ⟨rfl, rfl⟩) hrun⟩

end Hdlc

end DlmsProfile
