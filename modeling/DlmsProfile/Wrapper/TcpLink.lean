import DlmsProfile.Core.Link
import DlmsProfile.Wrapper.TcpDelivery

/-!
# Two TCP Channels on One Connection

A stream channel sends whole WPDUs and receives what comes in any pieces, and the two
halves of it have nothing in common but the limits. So what is on the way to a channel
is always WPDUs, the first of which the decoder may have begun, and a send at the other
end lays one more behind them.

## Main definitions

* `Tcp.streamEnd`: The channel with its stream.
* `Tcp.Aligned`: The bytes to come end with the end of a WPDU.

## Theorems

* `Tcp.aligned_takesIn`: The receive loop does not lose the alignment.
* `Tcp.carries`: The channel is one that a connection of queues can be made of.
* `Tcp.connection`: Two channels are two queues.
-/

namespace DlmsProfile

namespace Tcp

variable {W : WrapperLib} {limits : WrapperCodecLimits}

/-- The channel with its stream. -/
@[reducible] def streamEnd (W : WrapperLib) : StreamEnd where
  toApduChannel := channel W
  send := sendApdu
  offer := fun reads s => { s with reads := reads }
  grant := fun writes s => { s with writes := writes }
  wrote := fun s => writtenBytes s.calls

/-- What the decoder keeps and what is to be read is WPDUs, the last of them whole. -/
structure Aligned (law : WrapperStreamLaw W limits) (s : State W) : Prop extends Sound law s where
  limits : s.wrapperLimits = limits
  whole : (toCome law s).2 = .rest []

/-- Where the bytes to come end is not changed by reading some of them. -/
theorem receiveNextFrameLoop_tail (law : WrapperStreamLaw W limits) (reads : List ReadEvent)
    (s : State W) (hreads : s.reads = reads) (hs : Sound law s) :
    (toCome law (receiveNextFrameLoop reads s).2).2 = (toCome law s).2 := by
  induction reads generalizing s with
  | nil =>
      rw [receiveNextFrameLoop, toCome, toCome, hreads]
  | cons e rest ih =>
      by_cases hok : e.status = .ok
      swap
      · rw [loop_readFailed hok]
        exact congrArg Prod.snd (toCome_skip law hreads rfl (Or.inl hok))
      by_cases he : e.bytes = []
      · rw [loop_readEmpty hok he]
        exact congrArg Prod.snd (toCome_skip law hreads rfl (Or.inr he))
      rcases toCome_push law hs hreads hok with ⟨xs, r, -, hview, hkept, hcome, hstatus⟩
      -- What the push took it took from the front.
      have hnext : (law.framer.scan (law.view (W.push s.decoder e.bytes).2.2 ++
          readBytes rest)).2 = (toCome law s).2 := by
        rw [hcome, hview]
      rcases hstatus with hcomplete | ⟨hmore, -⟩
      · rw [loop_completed hok he hcomplete]
        exact hnext
      · rw [loop_continued hok he hmore]
        have hsound : Sound law { afterRead e rest s with
            decoder := (W.push s.decoder e.bytes).2.2 } := by
          refine ⟨law.follows.push_live _ hs.live, hs.buffer, ?_, ?_⟩
          · simp only [hview, hkept]
          · rcases hs.clean with ⟨t, ht⟩
            exact ⟨t, hnext.trans ht⟩
        exact (ih _ rfl hsound).trans hnext

/-- The receive loop keeps the queue and does not lose the alignment. -/
theorem aligned_takesIn (law : WrapperStreamLaw W limits) :
    TakesIn pending receiveNextFrame (fun s : State W => s.reads) (Aligned law) (ahead law) := by
  -- That the stream is whole up to its end is kept by every step, however it ends.
  have hkeeps : ∀ {s s' : State W} {o : Outcome ProfileStatus Unit}, Aligned law s →
      receiveNextFrame s = (o, s') → Sound law s' → Aligned law s' := by
    intro s s' o hs h hsound
    have hsame := receiveNextFrame_sameSetup s
    have htail := receiveNextFrameLoop_tail law s.reads s rfl hs.toSound
    rw [← show receiveNextFrame s = receiveNextFrameLoop s.reads s from
      if_neg hs.buffer, h] at htail
    rw [h] at hsame
    exact ⟨hsound, hsame.wrapperLimits.trans hs.limits, htail.trans hs.whole⟩
  have htakes := receiveNextFrame_takesIn law
  refine ⟨fun hs h => ?_, fun hs h => ?_, fun hs hq h => ?_, fun {s} hs hq => ?_⟩
  · rcases htakes.done hs.toSound h with ⟨hqueue, hreads, hsound⟩
    exact ⟨hqueue, hreads, hkeeps hs h hsound⟩
  · rcases htakes.fail hs.toSound h with ⟨hqueue, hreads, hsound⟩
    exact ⟨hqueue, hreads, hkeeps hs h hsound⟩
  · rcases htakes.waiting hs.toSound hq h with ⟨hqueue, hqueue', hsound⟩
    exact ⟨hqueue, hqueue', hkeeps hs h hsound⟩
  · rcases htakes.pop hs.toSound hq with ⟨hqueue, hsound⟩
    exact ⟨hqueue, hsound, hs.limits, hs.whole⟩

/-- What a send put on the stream: the WPDU of the APDU if it completed, and nothing
    otherwise. -/
theorem sendApdu_wrote {apdu : ProfileByteView} {s s' : State W} {o : Outcome ProfileStatus Unit}
    (h : sendApdu apdu s = (o, s')) :
    ∃ bytes, writtenBytes s'.calls = writtenBytes s.calls ++ bytes ∧
      (o = .done () → ∃ frame, W.encodeWpdu frame s.wrapperLimits = (.ok, bytes) ∧
        frame.data = apdu.data) ∧
      (o ≠ .done () → bytes = []) := by
  by_cases ho : o = .done ()
  · subst ho
    rcases sendApdu_done h with ⟨frame, wpdu, henc, hdata, hcalls, -⟩
    refine ⟨wpdu, ?_, fun _ => ⟨frame, henc, hdata⟩, fun hno => absurd rfl hno⟩
    rw [hcalls, writtenBytes_append]
    exact congrArg _ (List.append_nil wpdu)
  · refine ⟨[], ?_, fun hdone => absurd hdone ho, fun _ => rfl⟩
    rw [List.append_nil]
    -- Nothing was written, or a write failed.
    rw [sendApdu] at h
    split at h
    · rw [← (Prod.mk.inj h).2]
    split at h
    · rw [← (Prod.mk.inj h).2]
    simp only at h
    split at h
    · rw [← (Prod.mk.inj h).2]
    · rw [writeAll] at h
      simp only at h
      by_cases hstatus : s.writes.headD .ok = .ok
      · rw [hstatus, mapTransportStatus_eq_ok.mpr rfl, check_ok] at h
        exact absurd (Prod.mk.inj h).1.symm ho
      · have hleft := congrArg Prod.snd h
        rw [check_snd] at hleft
        simp only at hleft
        rw [← hleft, writtenBytes_append, writtenBytes_of_failed hstatus, List.append_nil]

/-- What is to come depends on the channel and its reads. -/
theorem Aligned.congr {law : WrapperStreamLaw W limits} {s t : State W}
    (hchannel : t.toChannel = s.toChannel) (hbytes : readBytes t.reads = readBytes s.reads)
    (h : Aligned law s) : Aligned law t ∧ ahead law t = ahead law s := by
  have hdecoder : t.decoder = s.decoder := congrArg Channel.decoder hchannel
  have hbuffer : t.readBufferSize = s.readBufferSize := congrArg Channel.readBufferSize hchannel
  have hcome : toCome law t = toCome law s := by rw [toCome, toCome, hdecoder, hbytes]
  refine ⟨⟨⟨hdecoder ▸ h.live, hbuffer ▸ h.buffer, hdecoder ▸ h.kept, ?_⟩, ?_, ?_⟩, ?_⟩
  · rw [hcome]
    exact h.clean
  · exact (congrArg Channel.wrapperLimits hchannel).trans h.limits
  · rw [hcome]
    exact h.whole
  · rw [ahead, ahead, hcome, congrArg Channel.pendingFrames hchannel]

/-- A WPDU lays its APDU behind those to come. -/
theorem brings_wpdu (law : WrapperStreamLaw W limits) {wpdu : List UInt8} {frame : WrapperFrame}
    (henc : law.framer.Encodes wpdu frame) :
    Brings (streamEnd W) (Aligned law) (ahead law) wpdu frame.data := by
  intro r hr
  have hcome : toCome law { r with reads := r.reads ++ [⟨.ok, wpdu⟩] } =
      ((toCome law r).1 ++ [frame], .rest []) := by
    -- The bytes to come end with a WPDU, so the next one is found as it is.
    have hscan : law.framer.scan (law.view r.decoder ++ readBytes r.reads) =
        ((toCome law r).1, .rest []) := Prod.ext rfl hr.whole
    rw [toCome, readBytes_append, ← List.append_assoc, readBytes, if_pos rfl, readBytes,
      List.append_nil, Framing.Framer.scan_append_rest _ hscan, List.nil_append,
      Framing.Framer.scan_encodes henc]
  refine ⟨⟨⟨hr.live, hr.buffer, hr.kept, ⟨[], congrArg Prod.snd hcome⟩⟩, hr.limits,
    congrArg Prod.snd hcome⟩, ?_⟩
  rw [ahead, hcome, ahead, ← List.append_assoc, List.map_append]
  rfl

/-- The channel is one that a connection of queues can be made of. -/
theorem carries (law : WrapperStreamLaw W limits) :
    Carries (streamEnd W) (Aligned law) (ahead law) where
  delivers := ((aligned_takesIn law).awaits _ _).delivers
  reads_offer _ _ := rfl
  offer_offer _ _ _ := rfl
  offer hs hscript := hs.congr rfl hscript
  -- What is written for an APDU is one WPDU, and the other end takes it for one frame.
  send := by
    intro s s' apdu writes o h script hs
    have hsend : sendApdu apdu { s with writes := writes } = (o, s') := h
    have hsame : s'.toChannel = s.toChannel := by
      have hframe := (sendApdu_frame apdu { s with writes := writes }).1
      rwa [hsend] at hframe
    rcases sendApdu_wrote hsend with ⟨bytes, hwrote, hdone, hnot⟩
    refine ⟨hs.congr hsame rfl, bytes, hwrote, fun ho => ?_, hnot⟩
    rcases hdone ho with ⟨frame, henc, hdata⟩
    have hlimits : s.wrapperLimits = limits := hs.limits
    rw [← hdata]
    exact brings_wpdu law (law.encodes (hlimits ▸ henc))

/-- Two channels with the same limits, connected as they were constructed, are two queues
    of APDUs, if a write that fails passes on no byte. However calls at the two ends follow
    each other, whichever writes fail, whatever status reads have and wherever they fall,
    what one end received is what the other sent, in order and once, and what is missing
    will be received. -/
theorem connection {options : Side → ApduChannelOptions} (law : WrapperStreamLaw W limits)
    (hlimits : ∀ side, makeWrapperLimits W (options side) = limits)
    {n n' : Net (streamEnd W)}
    (hnew : ∀ side, (n.ends side).toChannel = newChannel W (options side) ∧ n.wire side = [])
    {labels : List (Fifo.Label Side (List UInt8))} (hrun : Traces Net.Step n labels n') :
    ∃ q : Side → List (List UInt8), Traces Fifo.Step (fun _ => []) labels q ∧
      ∀ side, Fifo.puts side labels = Fifo.takes side labels ++ q side ∧
        ∀ script, readBytes script = n'.wire side →
          ∃ k, (channel W).delivered (List.replicate k .vector)
            { n'.ends side with reads := script } = q side := by
  -- Both ends are new and nothing is on the way, so nothing is to come on either side.
  refine Net.carried (carries law) (fun side => ?_) hrun
  rcases hnew side with ⟨hchannel, hwire⟩
  have hdecoder : (n.ends side).decoder = W.newDecoder limits := by
    rw [hchannel, ← hlimits side]
    rfl
  have hview : law.view (n.ends side).decoder = [] := by rw [hdecoder, law.new.2]
  have hcome : toCome law (n.ready side) = ([], .rest []) := by
    rw [toCome, Net.ready, hwire]
    simp only [hview, readBytes, if_true, List.append_nil, Framing.Framer.scan_nil]
  refine ⟨⟨⟨?_, ?_, ?_, [], congrArg Prod.snd hcome⟩, ?_, congrArg Prod.snd hcome⟩, ?_⟩
  · rw [Net.ready, hdecoder]
    exact law.new.1
  · rw [Net.ready, hchannel]
    exact (scratchSize_pos (options side)).ne'
  · rw [Net.ready, hview, Framing.Framer.scan_nil]
  · rw [Net.ready, hchannel]
    exact hlimits side
  · rw [ahead, hcome, Net.ready, hchannel]
    rfl

/-- One end sends an APDU, and the other receives it in two reads. -/
theorem connection_one :
    let start : Net (streamEnd Reference.wrapperLib) :=
      ⟨fun _ => Reference.tcpChannel defaultApduChannelOptions [], fun _ => []⟩
    ∃ n', Traces Net.Step start [.put .right [0xC0], .take .right [0xC0]] n' ∧
      ∃ q : Side → List (List UInt8),
        Traces Fifo.Step (fun _ => []) [.put .right [0xC0], .take .right [0xC0]] q ∧
        ∀ side, Fifo.puts side [.put .right [0xC0], .take .right [0xC0]] =
            Fifo.takes side [.put .right [0xC0], .take .right [0xC0]] ++ q side ∧
          ∀ script, readBytes script = n'.wire side →
            ∃ k, (channel Reference.wrapperLib).delivered (List.replicate k .vector)
              { n'.ends side with reads := script } = q side := by
  intro start
  have hscript : readBytes [Reference.arrived [0x00, 0x01, 0x00, 0x10],
      Reference.arrived [0x00, 0x01, 0x00, 0x01, 0xC0]] =
      (start.sent .left (.of [0xC0]) []).2.wire .right := by decide +kernel
  have hsend := Net.Step.send start .left (.of [0xC0]) []
  have hreceive := Net.Step.receive (start.sent .left (.of [0xC0]) []).2 .right .vector _ hscript
  have hsent : sentLabel .left (.of [0xC0] : ProfileByteView).data
      (start.sent .left (.of [0xC0]) []).1 = .put .right [0xC0] := by decide +kernel
  have hreceived : receivedLabel .right ((start.sent .left (.of [0xC0]) []).2.received .right
      .vector [Reference.arrived [0x00, 0x01, 0x00, 0x10],
        Reference.arrived [0x00, 0x01, 0x00, 0x01, 0xC0]]).1.delivered =
      .take .right [0xC0] := by decide +kernel
  rw [hsent] at hsend
  rw [hreceived] at hreceive
  have hrun := Traces.cons hsend (Traces.cons hreceive Traces.nil)
  exact ⟨_, hrun, connection (Reference.wrapperStreamLaw _) (fun _ => rfl)
    (fun _ => ⟨rfl, rfl⟩) hrun⟩

end Tcp

end DlmsProfile
