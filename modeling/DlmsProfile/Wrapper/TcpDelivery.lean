import DlmsProfile.Reference.Channels

/-!
# Delivery over Wrapper/TCP

The channel hands over exactly the APDUs whose WPDUs its stream carries, in
order, wherever the reads fall. The queue behind it has three parts: the
frames already decoded, the frames complete in the bytes the decoder keeps and
the reads to come, and nothing else. `toCome` is the second part, and the
whole argument is that a read moves bytes from the script into the decoder and
frames from `toCome` into the pending queue without changing their
concatenation.

## Main definitions

* `Tcp.toCome`: The frames complete in the bytes not yet turned into frames.
* `Tcp.Alive`: What every operation keeps.
* `Tcp.Sound`: The decoder is live and no byte to come is rejected.
* `Tcp.ahead`: The queue of APDUs.

## Theorems

* `Tcp.receiveNextFrameLoop_advances`: One `ReceiveNextFrame` keeps the queue.
* `Tcp.delivers`: The channel takes its results from `ahead`.
* `Tcp.sendAll_wire`: Completed sends lay encoded frames end to end.
* `Tcp.exact_delivery`: What was sent is what is received.
-/

namespace DlmsProfile

namespace Tcp

variable {W : WrapperLib} {limits : WrapperCodecLimits}

/-- What the bytes the decoder keeps and the bytes to come amount to. -/
def toCome (law : WrapperStreamLaw W limits) (s : State W) :
    List WrapperFrame × Framing.Tail UInt8 WrapperStatus :=
  law.framer.scan (law.view s.decoder ++ readBytes s.reads)

/-- The decoder is one the law speaks of, it keeps no complete frame, and it
    will not meet a rejection. -/
structure Sound (law : WrapperStreamLaw W limits) (s : State W) : Prop where
  live : law.live s.decoder
  buffer : s.readBufferSize ≠ 0
  kept : law.framer.scan (law.view s.decoder) = ([], .rest (law.view s.decoder))
  clean : ∃ r, (toCome law s).2 = .rest r

/-- The queue of APDUs that arrived or will arrive. -/
def ahead (law : WrapperStreamLaw W limits) (s : State W) : List (List UInt8) :=
  (s.pendingFrames ++ (toCome law s).1).map (·.data)

/-- What every operation keeps: the decoder is one the law speaks of, the read
    buffer has room, and the limits are those the law is about. -/
structure Alive (law : WrapperStreamLaw W limits) (s : State W) : Prop where
  live : law.live s.decoder
  buffer : s.readBufferSize ≠ 0
  limits : s.wrapperLimits = limits

/-- What one run of the receive loop does to the frames. -/
structure Advances (law : WrapperStreamLaw W limits) (s : State W)
    (outcome : Outcome ProfileStatus Unit) (s' : State W) : Prop where
  sound : Sound law s'
  frames : s'.pendingFrames ++ (toCome law s').1 = s.pendingFrames ++ (toCome law s).1
  reads : s'.reads.length ≤ s.reads.length
  fail : ∀ status, outcome = .fail status → s'.reads.length < s.reads.length
  pending : outcome ≠ .done () → s'.pendingFrames = s.pendingFrames
  waiting : outcome = .waiting → (toCome law s').1 = []

/-- A read that carries no bytes to the decoder changes nothing to come. -/
theorem toCome_skip (law : WrapperStreamLaw W limits) {s s' : State W} {e : ReadEvent}
    (hreads : s.reads = e :: s'.reads) (hdec : s'.decoder = s.decoder)
    (hno : e.status ≠ .ok ∨ e.bytes = []) : toCome law s' = toCome law s := by
  rw [toCome, toCome, hreads, hdec, readBytes]
  rcases hno with hno | hno
  · rw [if_neg hno]
  · split
    · rw [hno, List.nil_append]
    · rfl

/-- A sound push: its frames are the next ones to come. -/
theorem toCome_push (law : WrapperStreamLaw W limits) {s : State W} {e : ReadEvent}
    {rest : List ReadEvent} (hs : Sound law s) (hreads : s.reads = e :: rest)
    (hok : e.status = .ok) :
    ∃ xs r, (W.push s.decoder e.bytes).2.1 = xs ∧
      law.view (W.push s.decoder e.bytes).2.2 = r ∧
      law.framer.scan r = ([], .rest r) ∧
      toCome law s = (xs ++ (law.framer.scan (r ++ readBytes rest)).1,
        (law.framer.scan (r ++ readBytes rest)).2) ∧
      (mapWrapperStatus (W.push s.decoder e.bytes).1 = .ok ∨
        mapWrapperStatus (W.push s.decoder e.bytes).1 = .needMoreData ∧ xs = []) := by
  have hbytes : readBytes s.reads = e.bytes ++ readBytes rest := by
    rw [hreads, readBytes, if_pos hok]
  rcases hscan : law.framer.scan (law.view s.decoder ++ e.bytes) with ⟨xs, r | st⟩
  · rcases law.follows.push_rest hs.live hscan with ⟨hframes, hview, hstatus⟩
    refine ⟨xs, r, hframes, hview, Framing.Framer.scan_rest_self hscan, ?_, hstatus⟩
    rw [toCome, hbytes, ← List.append_assoc, Framing.Framer.scan_append_rest _ hscan]
  · -- A rejection inside this read would be a rejection of the whole stream.
    rcases hs.clean with ⟨r, hr⟩
    rw [toCome, hbytes, ← List.append_assoc, Framing.Framer.scan_append_reject _ hscan] at hr
    cases hr

/-- A read that carries no bytes to the decoder: a transport answer is gone and
    the queue is as it was. -/
theorem advances_skip (law : WrapperStreamLaw W limits) {s s' : State W} {e : ReadEvent}
    (status : ProfileStatus) (hs : Sound law s) (hreads : s.reads = e :: s'.reads)
    (hdec : s'.decoder = s.decoder) (hbuf : s'.readBufferSize = s.readBufferSize)
    (hpend : s'.pendingFrames = s.pendingFrames) (hno : e.status ≠ .ok ∨ e.bytes = []) :
    Advances law s (.fail status) s' := by
  have hsame := toCome_skip law hreads hdec hno
  have hlt : s'.reads.length < s.reads.length := hreads ▸ Nat.lt_succ_self _
  refine ⟨⟨hdec ▸ hs.live, hbuf ▸ hs.buffer, hdec ▸ hs.kept, hsame ▸ hs.clean⟩, ?_, hlt.le,
    fun _ _ => hlt, fun _ => hpend, ?_⟩
  · rw [hpend, hsame]
  · intro h
    cases h

/-- One run of `ReceiveNextFrame` keeps the queue. -/
theorem receiveNextFrameLoop_advances (law : WrapperStreamLaw W limits) (reads : List ReadEvent)
    (s : State W) (hreads : s.reads = reads) (hs : Sound law s) :
    Advances law s (receiveNextFrameLoop reads s).1 (receiveNextFrameLoop reads s).2 := by
  induction reads generalizing s with
  | nil =>
      have hcome : toCome law s = ([], .rest (law.view s.decoder)) := by
        rw [toCome, hreads, readBytes, List.append_nil, hs.kept]
      have hsame : toCome law { s with reads := [] } = toCome law s := by
        rw [toCome, toCome, hreads]
      rw [receiveNextFrameLoop]
      refine ⟨⟨hs.live, hs.buffer, hs.kept, ⟨_, by rw [hsame, hcome]⟩⟩, ?_, Nat.zero_le _, ?_,
        fun _ => rfl, ?_⟩
      · rw [hsame]
      · intro status h
        cases h
      · intro _
        rw [hsame, hcome]
  | cons e rest ih =>
      by_cases hok : e.status = .ok
      swap
      · rw [loop_readFailed hok]
        exact advances_skip law _ hs hreads rfl rfl rfl (Or.inl hok)
      by_cases he : e.bytes = []
      · rw [loop_readEmpty hok he]
        exact advances_skip law _ hs hreads rfl rfl rfl (Or.inr he)
      rcases toCome_push law hs hreads hok with ⟨xs, r, hxs, hview, hkept, hcome, hstatus⟩
      have hlt : rest.length < s.reads.length := hreads ▸ Nat.lt_succ_self _
      have hclean : ∃ t, (law.framer.scan (r ++ readBytes rest)).2 = .rest t := by
        rcases hs.clean with ⟨t, ht⟩
        exact ⟨t, by rw [hcome] at ht; exact ht⟩
      rcases hstatus with hcomplete | ⟨hmore, hnil⟩
      · -- Frames move from the bytes to the pending queue.
        rw [loop_completed hok he hcomplete]
        refine ⟨⟨law.follows.push_live _ hs.live, hs.buffer, ?_, ?_⟩, ?_, hlt.le, ?_, ?_, ?_⟩
        · simp only [hview, hkept]
        · simpa only [toCome, afterRead, hview] using hclean
        · simp only [toCome] at hcome
          simp only [toCome, afterRead, hview, hxs, hcome, List.append_assoc]
        · intro status h
          cases h
        · intro h
          exact absurd rfl h
        · intro h
          cases h
      · -- The push kept everything, so the loop goes on from an equal queue.
        rw [loop_continued hok he hmore]
        have hsound : Sound law { afterRead e rest s with
            decoder := (W.push s.decoder e.bytes).2.2 } := by
          refine ⟨law.follows.push_live _ hs.live, hs.buffer, ?_, ?_⟩
          · simp only [hview, hkept]
          · simpa only [toCome, afterRead, hview] using hclean
        have hframes : (toCome law { afterRead e rest s with
            decoder := (W.push s.decoder e.bytes).2.2 }).1 = (toCome law s).1 := by
          simp only [toCome] at hcome
          simp only [toCome, afterRead, hview, hcome, hnil, List.nil_append]
        have hrec := ih _ rfl hsound
        refine ⟨hrec.sound, ?_, hrec.reads.trans hlt.le, ?_, hrec.pending, hrec.waiting⟩
        · rw [hrec.frames, hframes]
          rfl
        · intro status h
          exact (hrec.fail status h).trans hlt

theorem receiveNextFrame_advances (law : WrapperStreamLaw W limits) {s s' : State W}
    {outcome : Outcome ProfileStatus Unit} (hs : Sound law s)
    (h : receiveNextFrame s = (outcome, s')) : Advances law s outcome s' := by
  have hadv := receiveNextFrameLoop_advances law s.reads s rfl hs
  rw [receiveNextFrame, if_neg hs.buffer] at h
  rwa [h] at hadv

/-- One turn of the receive loop keeps the queue of APDUs. -/
theorem receiveNextFrame_takesIn (law : WrapperStreamLaw W limits) :
    TakesIn pending receiveNextFrame (fun s : State W => s.reads) (Sound law) (ahead law) where
  done := by
    intro s s' hs h
    have hadv := receiveNextFrame_advances law hs h
    exact ⟨by rw [ahead, hadv.frames, ahead], hadv.reads, hadv.sound⟩
  fail := by
    intro s s' status hs h
    have hadv := receiveNextFrame_advances law hs h
    exact ⟨by rw [ahead, hadv.frames, ahead], hadv.fail status rfl, hadv.sound⟩
  waiting := by
    intro s s' hs hq h
    have hadv := receiveNextFrame_advances law hs h
    -- It waits with nothing in the queue and nothing complete to come.
    have hempty : ahead law s' = [] := by
      rw [ahead, List.map_append, hadv.pending nofun, hadv.waiting rfl, List.map_nil,
        List.append_nil]
      exact hq
    refine ⟨?_, hempty, hadv.sound⟩
    rw [ahead, ← hadv.frames, ← hempty, ahead]
  -- What is taken off the queue is the first of what is ahead.
  pop := by
    intro s hs hq
    rcases hp : s.pendingFrames with _ | ⟨f, fs⟩
    · simp only [pending, hp, List.map_nil, ne_eq, not_true_eq_false] at hq
    · refine ⟨?_, hs.live, hs.buffer, hs.kept, hs.clean⟩
      simp only [ahead, pending, hp, List.cons_append, List.map_cons, List.headD_cons,
        List.tail_cons, toCome]

/-- The channel takes its results from the queue. -/
theorem delivers (law : WrapperStreamLaw W limits) :
    Delivers (channel W) (Sound law) (ahead law) :=
  ((receiveNextFrame_takesIn law).awaits _ _).delivers

theorem receiveNextFrameLoop_alive (law : WrapperStreamLaw W limits) (reads : List ReadEvent)
    {s : State W} (hs : Alive law s) : Alive law (receiveNextFrameLoop reads s).2 := by
  -- On the reads. A push keeps the decoder alive, and so does a reset.
  induction reads generalizing s with
  | nil => exact ⟨hs.live, hs.buffer, hs.limits⟩
  | cons e rest ih =>
      have hpush := law.follows.push_live e.bytes hs.live
      by_cases hok : e.status = .ok
      swap
      · rw [loop_readFailed hok]
        exact ⟨hs.live, hs.buffer, hs.limits⟩
      by_cases he : e.bytes = []
      · rw [loop_readEmpty hok he]
        exact ⟨hs.live, hs.buffer, hs.limits⟩
      by_cases hp : mapWrapperStatus (W.push s.decoder e.bytes).1 = .ok
      · rw [loop_completed hok he hp]
        exact ⟨hpush, hs.buffer, hs.limits⟩
      by_cases hm : mapWrapperStatus (W.push s.decoder e.bytes).1 = .needMoreData
      · rw [loop_continued hok he hm]
        exact ih ⟨hpush, hs.buffer, hs.limits⟩
      · rw [loop_rejected hok he hp hm]
        exact ⟨(law.reset hpush).1, hs.buffer, hs.limits⟩

/-- No receive call can leave the invariant, however it is found. -/
theorem call_alive (law : WrapperStreamLaw W limits) (r : ReceiveCall) {s : State W}
    (hs : Alive law s) : Alive law ((channel W).call r s).2 := by
  have hbody : Proc.Preserves (Alive law) receiveNextFrame := by
    intro s hs
    rw [receiveNextFrame, if_neg hs.buffer]
    exact receiveNextFrameLoop_alive law _ hs
  refine PendingQueue.preserves_call (PendingQueue.preserves_await hbody) ?_ r s hs
  exact fun s hs => ⟨hs.live, hs.buffer, hs.limits⟩

/-- Every reachable channel whose limits the law is about is one the law
    speaks of. -/
theorem alive_of_reachable {options : ApduChannelOptions}
    (law : WrapperStreamLaw W (makeWrapperLimits W options)) {s : State W}
    (h : Reachable W options s) : Alive law s := by
  induction h with
  | new h =>
      refine ⟨?_, ?_, ?_⟩ <;> rw [h]
      · exact law.new.1
      · exact (scratchSize_pos options).ne'
      · rfl
  | @step s op _ ih =>
      -- By the calls. `Close` resets the decoder, and `ReceiveApdu` pushes to it.
      cases op with
      | «open» =>
          rw [exec, openStream, check_snd]
          exact ⟨ih.live, ih.buffer, ih.limits⟩
      | close =>
          rw [exec, closeStream, check_snd]
          exact ⟨(law.reset ih.live).1, ih.buffer, ih.limits⟩
      | send apdu =>
          have hsame := (sendApdu_frame apdu s).1
          refine ⟨?_, ?_, ?_⟩ <;> rw [exec, hsame]
          · exact ih.live
          · exact ih.buffer
          · exact ih.limits
      | receive call => exact call_alive law call ih

/-- Completed sends lay encoded frames end to end on the stream. -/
theorem sendAll_wire (law : WrapperStreamLaw W limits) {apdus : List ProfileByteView}
    {s s' : State W} (hlimits : s.wrapperLimits = limits)
    (h : sendAll apdus s = (.done (), s')) :
    ∃ calls wpdus frames, s'.calls = s.calls ++ calls ∧
      writtenBytes calls = wpdus.flatten ∧ List.Forall₂ law.framer.Encodes wpdus frames ∧
      frames.map (·.data) = apdus.map (·.data) := by
  -- On the APDUs, each of which is one WPDU behind those written before.
  induction apdus generalizing s with
  | nil =>
      cases h
      exact ⟨[], [], [], (List.append_nil _).symm, rfl, List.Forall₂.nil, rfl⟩
  | cons apdu apdus ih =>
      rcases Proc.bind_done_iff.mp h with ⟨_, s1, hsend, hrest⟩
      rcases sendApdu_done hsend with ⟨frame, wpdu, henc, hdata, hcalls, hlim⟩
      rcases ih (hlim.trans hlimits) hrest with ⟨calls, wpdus, frames, hcalls', hwire, hall, hmap⟩
      refine ⟨.write wpdu .ok :: calls, wpdu :: wpdus, frame :: frames, ?_, ?_,
        List.Forall₂.cons (law.encodes (hlimits ▸ henc)) hall, ?_⟩
      · rw [hcalls', hcalls, List.append_assoc, List.singleton_append]
      · rw [writtenBytes, List.flatMap_cons, ← writtenBytes, hwire, List.flatten_cons]
      · rw [List.map_cons, List.map_cons, hdata, hmap]

/-- What the stream carries from completed sends is what the receive calls
    hand over: never anything else, and after enough calls all of it, wherever
    the reads fall and whichever overloads were called before. -/
theorem exact_delivery {options : ApduChannelOptions}
    (law : WrapperStreamLaw W (makeWrapperLimits W options))
    {apdus : List ProfileByteView} {sender sender' receiver : State W}
    (hsend : sendAll apdus sender = (.done (), sender'))
    (hlimits : sender.wrapperLimits = makeWrapperLimits W options)
    (hreach : Reachable W options receiver)
    (hempty : law.view receiver.decoder = []) (hpending : receiver.pendingFrames = [])
    (hwire : readBytes receiver.reads = writtenBytes (sender'.calls.drop sender.calls.length))
    (rs : List ReceiveCall) :
    (channel W).delivered rs receiver <+: apdus.map (·.data) ∧
      ∃ n, (channel W).delivered (rs ++ List.replicate n .vector) receiver =
        apdus.map (·.data) := by
  rcases sendAll_wire law hlimits hsend with ⟨calls, wpdus, frames, hcalls, hbytes, hall, hmap⟩
  rw [hcalls, List.drop_left, hbytes] at hwire
  have halive := alive_of_reachable law hreach
  -- The WPDUs were written whole, so the receiver's framer finds the frames again.
  have hcome : toCome law receiver = (frames, .rest []) := by
    rw [toCome, hempty, List.nil_append, hwire, Framing.Framer.scan_flatten hall]
  have hsound : Sound law receiver := by
    refine ⟨halive.live, halive.buffer, ?_, ⟨[], by rw [hcome]⟩⟩
    rw [hempty, Framing.Framer.scan_nil]
  have hqueue : ahead law receiver = apdus.map (·.data) := by
    rw [ahead, hpending, hcome, List.nil_append, hmap]
  refine ⟨?_, ?_⟩
  · rw [← hqueue, ((delivers law).delivered_append rs hsound).1]
    exact List.prefix_append _ _
  · rw [← hqueue]
    exact (delivers law).delivered_then rs hsound

/-- Two APDUs, the second empty, over reads that cut the first WPDU in its
    header, with a timeout in between and a buffer too small in front. -/
theorem exact_delivery_split :
    let options := defaultApduChannelOptions
    let sent : List ProfileByteView := [.of [0xC0, 0x01], .of []]
    let receiver := Reference.tcpChannel options
      [Reference.arrived [0x00, 0x01, 0x00], ⟨.timeout, []⟩,
        Reference.arrived [0x10, 0x00, 0x01, 0x00, 0x02, 0xC0, 0x01, 0x00, 0x01, 0x00, 0x10],
        Reference.arrived [0x00, 0x01, 0x00, 0x00]]
    let rs : List ReceiveCall := [.into ⟨.of [0], some 7⟩, .vector]
    (channel Reference.wrapperLib).delivered rs receiver <+: sent.map (·.data) ∧
      ∃ n, (channel Reference.wrapperLib).delivered (rs ++ List.replicate n .vector) receiver =
        sent.map (·.data) :=
  exact_delivery (Reference.wrapperStreamLaw _)
    (Prod.ext (by decide +kernel) rfl :
      sendAll [.of [0xC0, 0x01], .of []] (Reference.tcpChannel defaultApduChannelOptions []) =
        (.done (), (sendAll [.of [0xC0, 0x01], .of []]
          (Reference.tcpChannel defaultApduChannelOptions [])).2))
    rfl (Reachable.new rfl) rfl rfl (by decide +kernel) _

end Tcp

end DlmsProfile
