import DlmsProfile.Hdlc.Invariant
import DlmsProfile.Wrapper.TcpDelivery

/-!
# Read Boundaries and Malformed Bytes

A stream of good frames followed by bytes no frame can begin with may be cut
into reads anywhere. A receive call that meets the malformed bytes resets the
decoder and reports the error, and the frames the same read completed are
dropped with it. `Framing.Framer.feed` is that behaviour without the channel
around it; `Feeds` is what a channel owes it, one read at a time.

So the cutting matters. Every good frame is delivered before the error exactly
when some boundary between two reads falls after the last good frame and before
the point where the decoder rejects.

## Main definitions

* `ApduChannel.outcomes`: What repeated calls give until the first error.
* `Feeds`: The channel does with each read what `feed` does.
* `Separated`: A boundary between the good frames and the rejection.

## Theorems

* `Feeds.outcomes_eq`: Repeated calls give what `feed` gives.
* `Feeds.delivered_iff`: When all good frames come before the error.
* `Tcp.feeds`, `Hdlc.feeds`: The two stream channels.
* `delivered_before_error_iff`: The condition for both.
-/

namespace DlmsProfile

/-- What repeated vector calls give until the first error, a call that reports
    `NeedMoreData` being made again. -/
def ApduChannel.outcomes (C : ApduChannel) :
    Nat → C.State → List (List UInt8) × Option ProfileStatus
  | 0, _ => ([], none)
  | n + 1, s =>
    match C.receiveApdu s with
    | (.done apdu, s') => (apdu :: (outcomes C n s').1, (outcomes C n s').2)
    | (.fail status, s') =>
      if status = .needMoreData then outcomes C n s' else ([], some status)
    | (.waiting, _) => ([], none)

namespace ApduChannel

variable {C : ApduChannel} {s s' : C.State}

theorem outcomes_of_done {n : Nat} {apdu : List UInt8}
    (h : C.receiveApdu s = (.done apdu, s')) :
    C.outcomes (n + 1) s = (apdu :: (C.outcomes n s').1, (C.outcomes n s').2) := by
  simp only [outcomes, h]

theorem outcomes_of_more {n : Nat} (h : C.receiveApdu s = (.fail .needMoreData, s')) :
    C.outcomes (n + 1) s = C.outcomes n s' := by
  simp only [outcomes, h, if_true]

theorem outcomes_of_fail {n : Nat} {status : ProfileStatus}
    (h : C.receiveApdu s = (.fail status, s')) (hne : status ≠ .needMoreData) :
    C.outcomes (n + 1) s = ([], some status) := by
  simp only [outcomes, h, if_neg hne]

theorem outcomes_congr {t : C.State} (h : C.receiveApdu s = C.receiveApdu t) (n : Nat) :
    C.outcomes n s = C.outcomes n t := by
  cases n with
  | zero => rfl
  | succ n => simp only [outcomes, h]

/-- Once an error is reached, more calls change nothing. -/
theorem outcomes_unique {n m : Nat} {xs ys : List (List UInt8)} {e e' : ProfileStatus}
    (hn : C.outcomes n s = (xs, some e)) (hm : C.outcomes m s = (ys, some e')) :
    xs = ys ∧ e = e' := by
  -- On the number of calls. Two runs that reach an error make the same calls before it.
  induction n generalizing m s xs ys with
  | zero => cases hn
  | succ n ih =>
      cases m with
      | zero => cases hm
      | succ m =>
          rcases hr : C.receiveApdu s with ⟨apdu | status | _, s1⟩
          · rw [outcomes_of_done hr, Prod.mk.injEq] at hn hm
            have hn1 : C.outcomes n s1 = ((C.outcomes n s1).1, some e) := Prod.ext rfl hn.2
            have hm1 : C.outcomes m s1 = ((C.outcomes m s1).1, some e') := Prod.ext rfl hm.2
            rcases ih hn1 hm1 with ⟨hrest, herr⟩
            rw [← hn.1, ← hm.1, hrest]
            exact ⟨rfl, herr⟩
          · by_cases hne : status = .needMoreData
            · rw [hne] at hr
              rw [outcomes_of_more hr] at hn hm
              exact ih hn hm
            · rw [outcomes_of_fail hr hne, Prod.mk.injEq, Option.some.injEq] at hn hm
              rw [← hn.1, ← hm.1, ← hn.2, ← hm.2]
              exact ⟨rfl, rfl⟩
          · simp only [outcomes, hr, Prod.mk.injEq, reduceCtorEq, and_false] at hn

end ApduChannel

section Feeding

variable {ι ε : Type}

/-- What a channel does with each read. `holds s b frames reads` says that the
    decoder in `s` keeps `b`, that `frames` are decoded and not handed out, and
    that the reads to come are `reads`, each successful and not empty. -/
structure Feeds (C : ApduChannel) (F : Framing.Framer UInt8 ι ε) (valid : ι → Prop)
    (apdu : ι → List UInt8) (status : ε → ProfileStatus)
    (holds : C.State → List UInt8 → List ι → List (List UInt8) → Prop) : Prop where
  pending : ∀ {s b x xs cs}, holds s b (x :: xs) cs → valid x →
    ∃ s', C.receiveApdu s = (.done (apdu x), s') ∧ holds s' b xs cs
  quiet : ∀ {s b c r cs}, holds s b [] (c :: cs) → F.scan (b ++ c) = ([], .rest r) →
    ∃ s', holds s' r [] cs ∧
      (C.receiveApdu s = C.receiveApdu s' ∨ C.receiveApdu s = (.fail .needMoreData, s'))
  found : ∀ {s b c r x xs cs}, holds s b [] (c :: cs) → F.scan (b ++ c) = (x :: xs, .rest r) →
    valid x → ∃ s', C.receiveApdu s = (.done (apdu x), s') ∧ holds s' r xs cs
  rejected : ∀ {s b c xs e cs}, holds s b [] (c :: cs) → F.scan (b ++ c) = (xs, .reject e) →
    status e ≠ .needMoreData ∧ ∃ s', C.receiveApdu s = (.fail (status e), s')

/-- Some boundary between two reads falls after the last good frame and before
    the rejection. -/
def Separated (F : Framing.Framer UInt8 ι ε) (good : List (List UInt8))
    (cs : List (List UInt8)) : Prop :=
  ∃ pre post, cs = pre ++ post ∧ good.flatten <+: pre.flatten ∧
    ∀ e, (F.scan pre.flatten).2 ≠ .reject e

namespace Feeds

variable {C : ApduChannel} {F : Framing.Framer UInt8 ι ε} {valid : ι → Prop}
  {apdu : ι → List UInt8} {status : ε → ProfileStatus}
  {holds : C.State → List UInt8 → List ι → List (List UInt8) → Prop}

/-- Frames decoded already are handed out first. -/
theorem outcomes_pending (h : Feeds C F valid apdu status holds) {s : C.State} {b : List UInt8}
    {xs : List ι} {cs : List (List UInt8)} (hs : holds s b xs cs) (hvalid : ∀ x ∈ xs, valid x) :
    ∃ s', holds s' b [] cs ∧ ∀ n, C.outcomes (n + xs.length) s =
      (xs.map apdu ++ (C.outcomes n s').1, (C.outcomes n s').2) := by
  induction xs generalizing s with
  | nil => exact ⟨s, hs, fun n => rfl⟩
  | cons x xs ih =>
      rcases h.pending hs (hvalid x List.mem_cons_self) with ⟨s1, hr, hs1⟩
      rcases ih hs1 fun y hy => hvalid y (List.mem_cons_of_mem x hy) with ⟨s', hs', hall⟩
      refine ⟨s', hs', fun n => ?_⟩
      rw [List.length_cons, ← Nat.add_assoc, ApduChannel.outcomes_of_done hr, hall]
      rfl

/-- Repeated calls give what `feed` gives. -/
theorem outcomes_eq (h : Feeds C F valid apdu status holds) {s : C.State} {b : List UInt8}
    {cs : List (List UInt8)} {all : List ι} {e : ε} (hs : holds s b [] cs)
    (hb : F.scan b = ([], .rest b)) (hscan : F.scan (b ++ cs.flatten) = (all, .reject e))
    (hvalid : ∀ x ∈ all, valid x) :
    ∃ n, C.outcomes n s = ((F.feed b cs).1.map apdu, some (status e)) := by
  -- On the pieces. Each is pushed once what the last one completed is handed out.
  induction cs generalizing s b all with
  | nil =>
      rw [List.flatten_nil, List.append_nil, hb, Prod.mk.injEq] at hscan
      cases hscan.2
  | cons c cs ih =>
      rw [List.flatten_cons, ← List.append_assoc] at hscan
      rcases hc : F.scan (b ++ c) with ⟨ys, r | e'⟩
      · rw [Framing.Framer.scan_append_rest cs.flatten hc, Prod.mk.injEq] at hscan
        have hrest : ∀ x ∈ (F.scan (r ++ cs.flatten)).1, valid x := fun x hx =>
          hvalid x (hscan.1 ▸ List.mem_append_right ys hx)
        have hr := Framing.Framer.scan_rest_self hc
        have htail : F.scan (r ++ cs.flatten) = ((F.scan (r ++ cs.flatten)).1, .reject e) :=
          Prod.ext rfl hscan.2
        rw [Framing.Framer.feed_cons_rest hc]
        -- A piece that completes nothing may cost a call that says `NeedMoreData`, or none.
        rcases ys with _ | ⟨y, ys⟩
        · rcases h.quiet hs hc with ⟨s1, hs1, hcall⟩
          rcases ih hs1 hr htail hrest with ⟨n, hn⟩
          rcases hcall with hcall | hcall
          · exact ⟨n, (ApduChannel.outcomes_congr hcall n).trans hn⟩
          · exact ⟨n + 1, (ApduChannel.outcomes_of_more hcall).trans hn⟩
        · have hys : ∀ x ∈ y :: ys, valid x := fun x hx =>
            hvalid x (hscan.1 ▸ List.mem_append_left _ hx)
          rcases h.found hs hc (hys y List.mem_cons_self) with ⟨s1, hcall, hs1⟩
          rcases h.outcomes_pending hs1 fun x hx => hys x (List.mem_cons_of_mem y hx) with
            ⟨s2, hs2, hall⟩
          rcases ih hs2 hr htail hrest with ⟨n, hn⟩
          refine ⟨n + ys.length + 1, ?_⟩
          rw [ApduChannel.outcomes_of_done hcall, hall, hn, List.map_append, List.map_cons]
          rfl
      · rcases h.rejected hs hc with ⟨hne, s', hcall⟩
        rw [Framing.Framer.scan_append_reject cs.flatten hc, Prod.mk.injEq] at hscan
        rw [Framing.Framer.feed_cons_reject hc, ← Framing.Tail.reject.inj hscan.2]
        exact ⟨1, ApduChannel.outcomes_of_fail hcall hne⟩

/-- All good frames come before the error exactly when a boundary separates
    them. -/
theorem delivered_iff (h : Feeds C F valid apdu status holds) {s : C.State}
    {good : List (List UInt8)} {frames : List ι} {bad : List UInt8} {e : ε}
    {cs : List (List UInt8)} (hgood : List.Forall₂ F.Encodes good frames)
    (hbad : F.scan bad = ([], .reject e)) (hvalid : ∀ x ∈ frames, valid x)
    (hcs : cs.flatten = good.flatten ++ bad) (hs : holds s [] [] cs) :
    (∃ n, C.outcomes n s = (frames.map apdu, some (status e))) ↔ Separated F good cs := by
  have hscan : F.scan ([] ++ cs.flatten) = (frames, .reject e) := by
    rw [List.nil_append, hcs, Framing.Framer.scan_flatten_append hgood, hbad, List.append_nil]
  rcases h.outcomes_eq hs Framing.Framer.scan_nil hscan hvalid with ⟨m, hm⟩
  rcases Framing.Framer.feed_of_scan Framing.Framer.scan_nil hscan with ⟨herr, hpre⟩
  rw [Separated, ← Framing.Framer.feed_eq_iff hgood hbad hcs]
  -- The calls tell what the framer was fed, so the condition on the pieces carries over.
  constructor
  · rintro ⟨n, hn⟩
    have hlen := congrArg List.length (ApduChannel.outcomes_unique hm hn).1
    rw [List.length_map, List.length_map] at hlen
    exact Prod.ext (hpre.eq_of_length hlen) herr
  · intro hfeed
    rw [hfeed] at hm
    exact ⟨m, hm⟩

end Feeds

end Feeding

/-- The reads that hand over the given bytes, one after the other. -/
def arrivals (cs : List (List UInt8)) : List ReadEvent := cs.map fun c => ⟨.ok, c⟩

namespace Tcp

variable {W : WrapperLib} {limits : WrapperCodecLimits}

/-- The decoder keeps the bytes, the frames are pending, the reads are to come. -/
structure Holds (law : WrapperStreamLaw W limits) (s : State W) (b : List UInt8)
    (frames : List WrapperFrame) (cs : List (List UInt8)) : Prop where
  alive : Alive law s
  kept : law.view s.decoder = b
  frames : s.pendingFrames = frames
  reads : s.reads = arrivals cs
  nonempty : ∀ c ∈ cs, c ≠ []

theorem Holds.none_pending {law : WrapperStreamLaw W limits} {s : State W} {b : List UInt8}
    {cs : List (List UInt8)} (hs : Holds law s b [] cs) : pending.apdus s = [] := by
  simp only [pending, hs.frames, List.map_nil]

theorem receiveNextFrame_of_reads {law : WrapperStreamLaw W limits} {s : State W} {b c : List UInt8}
    {cs : List (List UInt8)} (hs : Holds law s b [] (c :: cs)) :
    receiveNextFrame s = receiveNextFrameLoop (⟨.ok, c⟩ :: arrivals cs) s := by
  rw [receiveNextFrame, if_neg hs.alive.buffer, hs.reads]
  rfl

theorem receiveApdu_of_await {s s1 : State W} {f : WrapperFrame} {fs : List WrapperFrame}
    (hw : awaitFrame s = (.done (), s1)) (hf : s1.pendingFrames = f :: fs) :
    receiveApdu s = (.done f.data, { s1 with pendingFrames := fs }) := by
  rw [receiveApdu, PendingQueue.receiveVector_of_done hw]
  simp only [pending, hf, List.map_cons, List.headD_cons, List.tail_cons]

/-- A Wrapper/TCP channel does with each read what `feed` does. -/
theorem feeds (law : WrapperStreamLaw W limits) :
    Feeds (channel W) law.framer (fun _ => True) (·.data) mapWrapperStatus (Holds law) where
  pending := by
    intro (s : State W) b x xs cs hs _
    have hne : pending.apdus s ≠ [] := by
      simp only [pending, hs.frames, List.map_cons, ne_eq, reduceCtorEq, not_false_eq_true]
    have hw : awaitFrame s = (.done (), s) := PendingQueue.await_of_pending hne
    exact ⟨_, receiveApdu_of_await hw hs.frames,
      ⟨hs.alive.live, hs.alive.buffer, hs.alive.limits⟩, hs.kept, rfl, hs.reads, hs.nonempty⟩
  -- Bytes that complete no frame end the call, or are read on after in the same call.
  quiet := by
    intro (s : State W) b c r cs hs hscan
    have hc : c ≠ [] := hs.nonempty c List.mem_cons_self
    rw [← hs.kept] at hscan
    rcases law.follows.push_rest hs.alive.live hscan with ⟨hframes, hview, hstatus⟩
    let s1 : State W := { afterRead ⟨.ok, c⟩ (arrivals cs) s with
      decoder := (W.push s.decoder c).2.2 }
    have hs1 : Holds law s1 r [] cs :=
      ⟨⟨law.follows.push_live c hs.alive.live, hs.alive.buffer, hs.alive.limits⟩, hview,
        hs.frames, rfl, fun x hx => hs.nonempty x (List.mem_cons_of_mem c hx)⟩
    refine ⟨s1, hs1, Or.inl (PendingQueue.receiveVector_congr ?_)⟩
    rcases hstatus with hok | ⟨hmore, -⟩
    · -- A push that completed nothing ends the turn but not the loop.
      refine PendingQueue.await_of_unfilled hs.none_pending ?_ hs1.none_pending
      rw [receiveNextFrame_of_reads hs, loop_completed rfl hc hok, hframes]
      simp only [List.foldl_nil, List.append_nil]
      rfl
    · refine PendingQueue.await_congr hs.none_pending hs1.none_pending ?_
      have hnext : receiveNextFrame s1 = receiveNextFrameLoop (arrivals cs) s1 :=
        if_neg hs.alive.buffer
      rw [receiveNextFrame_of_reads hs, loop_continued rfl hc hmore, hnext]
  -- The first frame is handed out by the call, and the others wait in the queue.
  found := by
    intro (s : State W) b c r x xs cs hs hscan _
    have hc : c ≠ [] := hs.nonempty c List.mem_cons_self
    rw [← hs.kept] at hscan
    rcases law.follows.push_rest hs.alive.live hscan with ⟨hframes, hview, hstatus⟩
    have hok : mapWrapperStatus (W.push s.decoder c).1 = .ok := by
      rcases hstatus with hok | ⟨-, hnil⟩
      · exact hok
      · cases hnil
    let s1 : State W := { afterRead ⟨.ok, c⟩ (arrivals cs) s with
      decoder := (W.push s.decoder c).2.2
      sink := (x :: xs).foldl
        (fun sink f => emitTrace s.options.wrapperTcpTraceSink (decodedEvent f)
          (afterRead ⟨.ok, c⟩ (arrivals cs) s).calls.length sink) s.sink
      pendingFrames := x :: xs }
    have hbody : receiveNextFrame s = (.done (), s1) := by
      rw [receiveNextFrame_of_reads hs, loop_completed rfl hc hok, hframes, hs.frames,
        List.nil_append]
    have hw : awaitFrame s = (.done (), s1) :=
      PendingQueue.await_of_filled hs.none_pending hbody (List.cons_ne_nil _ _)
    exact ⟨_, receiveApdu_of_await hw rfl,
      ⟨law.follows.push_live c hs.alive.live, hs.alive.buffer, hs.alive.limits⟩, hview, rfl, rfl,
      fun y hy => hs.nonempty y (List.mem_cons_of_mem c hy)⟩
  -- What the same push has completed before the error is not looked at.
  rejected := by
    intro (s : State W) b c xs e cs hs hscan
    have hc : c ≠ [] := hs.nonempty c List.mem_cons_self
    rw [← hs.kept] at hscan
    rcases law.follows.push_reject hs.alive.live hscan with ⟨hst, -, hok, hmore⟩
    rw [← hst] at hok hmore
    have hbody := (receiveNextFrame_of_reads hs).trans (loop_rejected rfl hc hok hmore)
    have hcall : receiveApdu s = (.fail (mapWrapperStatus (W.push s.decoder c).1), _) :=
      Proc.bind_of_fail _ (PendingQueue.await_of_fail hs.none_pending hbody)
    rw [← hst]
    exact ⟨hmore, _, hcall⟩

end Tcp

namespace Hdlc

variable {L : HdlcLib} {options : ApduChannelOptions}

/-- The decoder keeps the bytes, the frames are pending, the reads are to come,
    and no APDU is pending. -/
structure Holds (law : HdlcStreamLaw L (decoderLimits L options)) (s : State L) (b : List UInt8)
    (frames : List L.Frame) (cs : List (List UInt8)) : Prop where
  intact : Intact law options s
  kept : law.view s.decoder = b
  apdus : s.pendingApdus = []
  frames : s.pendingHdlcFrames = frames
  reads : s.reads = arrivals cs
  nonempty : ∀ c ∈ cs, c ≠ []

/-- A frame that carries an APDU within the limit. -/
structure CarriesApdu (options : ApduChannelOptions) (frame : L.Frame) : Prop where
  whole : frame.segmented = false
  decodes : (L.decodeLpdu frame.information false).1 = .ok
  fits : options.maximumApduSize = 0 ∨
    (L.decodeLpdu frame.information false).2.length ≤ options.maximumApduSize

/-- The APDU a frame carries. -/
def carried (frame : L.Frame) : List UInt8 := (L.decodeLpdu frame.information false).2

section Turn

variable {s s1 : State L} {frame : L.Frame}

/-- Without a session, a frame that carries an APDU puts it in the queue. -/
theorem decodeFrame_of_carriesApdu (hplain : s.options.hdlcUseSession = false)
    (h : CarriesApdu s.options frame) :
    decodeFrameToPendingApdu frame s = (.done (), { s with
      pendingApdus := s.pendingApdus ++ [carried frame]
      trace := s.trace ++ [.queue frame.information (carried frame)] }) := by
  -- The checks between the frame and the queue are passed.
  have hok : ¬ mapLlcStatus (L.decodeLpdu frame.information false).1 ≠ .ok :=
    not_not.mpr (mapLlcStatus_eq_ok.mpr h.decodes)
  have hfits : ¬ (s.options.maximumApduSize ≠ 0 ∧
      s.options.maximumApduSize < (L.decodeLpdu frame.information false).2.length) := by
    rintro ⟨hne, hlt⟩
    rcases h.fits with hz | hle
    · exact hne hz
    · exact absurd hlt (Nat.not_lt.mpr hle)
  simp only [decodeFrameToPendingApdu, decodeCompleteInformationToPendingApdu, if_pos hplain,
    h.whole, Bool.false_eq_true, if_false, if_neg hok, if_neg hfits, carried]

/-- A call that gets such a frame hands its APDU over. -/
theorem receiveApdu_of_frame (hframe : receiveDecodedFrame s = (.done frame, s1))
    (hnone : s.pendingApdus = []) (hnone1 : s1.pendingApdus = [])
    (hplain : s1.options.hdlcUseSession = false) (h : CarriesApdu s1.options frame) :
    receiveApdu s = (.done (carried frame), { s1 with
      pendingApdus := []
      trace := s1.trace ++ [.queue frame.information (carried frame)] }) := by
  have hdecode := decodeFrame_of_carriesApdu hplain h
  rw [hnone1, List.nil_append] at hdecode
  -- One turn fills the queue, and the call takes off what it has put there.
  have hturn : receiveTurn s = (.done true, _) :=
    (Proc.bind_of_done _ hframe).trans (handleFrame_of_done hdecode)
  have hnext : receiveNextApdu s = (.done (), _) := Proc.repeatUntil_of_true hturn
  have hw : awaitApdu s = (.done (), _) :=
    PendingQueue.await_of_filled hnone hnext (List.cons_ne_nil _ _)
  exact PendingQueue.receiveVector_of_done hw

/-- A call that fails to get a frame fails with its status. -/
theorem receiveApdu_of_noFrame {status : ProfileStatus} (hnone : s.pendingApdus = [])
    (hframe : receiveDecodedFrame s = (.fail status, s1)) : receiveApdu s = (.fail status, s1) := by
  have hturn : receiveTurn s = (.fail status, s1) := Proc.bind_of_fail _ hframe
  have hnext : receiveNextApdu s = (.fail status, s1) := Proc.repeatUntil_of_fail hturn
  exact Proc.bind_of_fail _ (PendingQueue.await_of_fail hnone hnext)

/-- A call sees nothing of a state but the frame it gets. -/
theorem receiveApdu_congr (hnone : s.pendingApdus = []) (hnone1 : s1.pendingApdus = [])
    (hframe : receiveDecodedFrame s = receiveDecodedFrame s1) : receiveApdu s = receiveApdu s1 := by
  have hnext : receiveNextApdu s = receiveNextApdu s1 :=
    Proc.repeatUntil_congr (Proc.bind_congr _ hframe)
  exact PendingQueue.receiveVector_congr (PendingQueue.await_congr hnone hnone1 hnext)

end Turn

theorem receiveDecodedFrame_of_reads {law : HdlcStreamLaw L (decoderLimits L options)}
    {s : State L} {b c : List UInt8} {cs : List (List UInt8)} (hs : Holds law s b [] (c :: cs)) :
    receiveDecodedFrame s = receiveDecodedFrameLoop (⟨.ok, c⟩ :: arrivals cs) s := by
  rw [receiveDecodedFrame_of_empty hs.frames
    (hs.intact.buffer ▸ (scratchSize_pos options).ne'), hs.reads]
  rfl

/-- An HDLC channel without a session does with each read what `feed` does. -/
theorem feeds (law : HdlcStreamLaw L (decoderLimits L options))
    (hplain : options.hdlcUseSession = false) :
    Feeds (channel L) law.framer (CarriesApdu options) carried mapHdlcStatus (Holds law) where
  pending := by
    intro (s : State L) b x xs cs hs hx
    rw [← hs.intact.options] at hplain hx
    have hframe := receiveDecodedFrame_of_pending hs.frames
    refine ⟨_, receiveApdu_of_frame hframe hs.apdus hs.apdus hplain hx, ?_⟩
    exact ⟨⟨hs.intact.buffer, hs.intact.live, hs.intact.options⟩, hs.kept, rfl, rfl, hs.reads,
      hs.nonempty⟩
  quiet := by
    intro (s : State L) b c r cs hs hscan
    have hc : c ≠ [] := hs.nonempty c List.mem_cons_self
    rw [← hs.kept] at hscan
    rcases law.follows.push_rest hs.intact.live hscan with ⟨hframes, hview, hstatus⟩
    let s1 : State L := { afterRead ⟨.ok, c⟩ (arrivals cs) s with
      decoder := (L.push s.decoder c).2.2 }
    have hs1 : Holds law s1 r [] cs :=
      ⟨⟨hs.intact.buffer, law.follows.push_live c hs.intact.live, hs.intact.options⟩, hview,
        hs.apdus, hs.frames, rfl, fun x hx => hs.nonempty x (List.mem_cons_of_mem c hx)⟩
    refine ⟨s1, hs1, ?_⟩
    rcases hstatus with hok | ⟨hmore, -⟩
    · refine Or.inr (receiveApdu_of_noFrame hs.apdus ?_)
      rw [receiveDecodedFrame_of_reads hs, loop_noFrame rfl hc hok hframes]
    · refine Or.inl (receiveApdu_congr hs.apdus hs1.apdus ?_)
      have hnext : receiveDecodedFrame s1 = receiveDecodedFrameLoop (arrivals cs) s1 :=
        receiveDecodedFrame_of_empty hs1.frames
          (hs.intact.buffer ▸ (scratchSize_pos options).ne')
      rw [receiveDecodedFrame_of_reads hs, loop_continued rfl hc hmore, hnext]
  found := by
    intro (s : State L) b c r x xs cs hs hscan hx
    have hc : c ≠ [] := hs.nonempty c List.mem_cons_self
    rw [← hs.kept] at hscan
    rcases law.follows.push_rest hs.intact.live hscan with ⟨hframes, hview, hstatus⟩
    have hok : mapHdlcStatus (L.push s.decoder c).1 = .ok := by
      rcases hstatus with hok | ⟨-, hnil⟩
      · exact hok
      · cases hnil
    have hframe := (receiveDecodedFrame_of_reads hs).trans (loop_completed rfl hc hok hframes)
    rw [hs.frames, List.nil_append] at hframe
    rw [← hs.intact.options] at hplain hx
    refine ⟨_, receiveApdu_of_frame hframe hs.apdus hs.apdus hplain hx, ?_⟩
    exact ⟨⟨hs.intact.buffer, law.follows.push_live c hs.intact.live, hs.intact.options⟩, hview,
      rfl, rfl, rfl, fun y hy => hs.nonempty y (List.mem_cons_of_mem c hy)⟩
  rejected := by
    intro (s : State L) b c xs e cs hs hscan
    have hc : c ≠ [] := hs.nonempty c List.mem_cons_self
    rw [← hs.kept] at hscan
    rcases law.follows.push_reject hs.intact.live hscan with ⟨hst, -, hok, hmore⟩
    rw [← hst] at hok hmore
    have hframe := (receiveDecodedFrame_of_reads hs).trans (loop_rejected rfl hc hok hmore)
    rw [← hst]
    exact ⟨hmore, _, receiveApdu_of_noFrame hs.apdus hframe⟩

end Hdlc

/-- A cutting of good frames and malformed bytes behind them into reads. -/
structure Arrives {ι ε : Type} (F : Framing.Framer UInt8 ι ε) (frames : List ι) (e : ε)
    (good : List (List UInt8)) (bad : List UInt8) (cs : List (List UInt8)) : Prop where
  encodes : List.Forall₂ F.Encodes good frames
  malformed : F.scan bad = ([], .reject e)
  stream : cs.flatten = good.flatten ++ bad
  nonempty : ∀ c ∈ cs, c ≠ []

/-- The APDUs of all good frames are handed over before the error exactly when
    a boundary between two reads separates the frames from the rejection, over
    Wrapper/TCP and over HDLC without a session. -/
theorem delivered_before_error_iff {W : WrapperLib} {L : HdlcLib} {options : ApduChannelOptions}
    (lawW : WrapperStreamLaw W (makeWrapperLimits W options))
    (lawL : HdlcStreamLaw L (Hdlc.decoderLimits L options)) :
    (∀ (s : Tcp.State W) (frames : List WrapperFrame) (e : WrapperStatus)
        (good : List (List UInt8)) (bad : List UInt8) (cs : List (List UInt8)),
        Tcp.Reachable W options s → lawW.view s.decoder = [] → s.pendingFrames = [] →
        s.reads = arrivals cs → Arrives lawW.framer frames e good bad cs →
        ((∃ n, (Tcp.channel W).outcomes n s =
            (frames.map (·.data), some (mapWrapperStatus e))) ↔
          Separated lawW.framer good cs)) ∧
      ∀ (s : Hdlc.State L) (frames : List L.Frame) (e : HdlcStatus)
        (good : List (List UInt8)) (bad : List UInt8) (cs : List (List UInt8)),
        Hdlc.Reachable L options s → options.hdlcUseSession = false →
        lawL.view s.decoder = [] → s.pendingHdlcFrames = [] → s.pendingApdus = [] →
        s.reads = arrivals cs → Arrives lawL.framer frames e good bad cs →
        (∀ frame ∈ frames, Hdlc.CarriesApdu options frame) →
        ((∃ n, (Hdlc.channel L).outcomes n s =
            (frames.map Hdlc.carried, some (mapHdlcStatus e))) ↔
          Separated lawL.framer good cs) := by
  constructor
  -- For TCP whatever the frames carry.
  · intro s frames e good bad cs hreach hview hnone hreads h
    have hs : Tcp.Holds lawW s [] [] cs :=
      ⟨Tcp.alive_of_reachable lawW hreach, hview, hnone, hreads, h.nonempty⟩
    exact (Tcp.feeds lawW).delivered_iff h.encodes h.malformed (fun _ _ => trivial) h.stream hs
  · intro s frames e good bad cs hreach hplain hview hnone hapdus hreads h hvalid
    have hs : Hdlc.Holds lawL s [] [] cs :=
      ⟨Hdlc.intact_of_reachable hreach, hview, hapdus, hnone, hreads, h.nonempty⟩
    exact (Hdlc.feeds lawL hplain).delivered_iff h.encodes h.malformed hvalid h.stream hs

namespace Reference

/-- A WPDU with an APDU of two bytes, and a header of a version unheard of. -/
def goodWpdu : WrapperFrame := ⟨0x10, 0x01, [0xC0, 0x01]⟩
def badWpdu : List UInt8 := [0x00, 0x02, 0x00, 0x10, 0x00, 0x01, 0x00, 0x00]

/-- A frame with an APDU of two bytes, and a flag with no frame format behind. -/
def goodFrame : Frame := ⟨false, 0x03, 0x21, 0x10, [0xE6, 0xE7, 0x00, 0xC0, 0x01]⟩
def badFrame : List UInt8 := [0x7E, 0x00, 0x00]

theorem wpdu_arrives (limits : WrapperCodecLimits) (hdata : 2 ≤ limits.maximumDataSize)
    (hframe : 10 ≤ limits.maximumFrameSize) :
    Arrives (wrapperFramer limits) [goodWpdu] .invalidVersion [wpduBytes goodWpdu] badWpdu
      [wpduBytes goodWpdu, badWpdu] where
  encodes := List.Forall₂.cons
    (wrapperFramer_encodes (encodeWpdu_ok.mpr ⟨hdata, by decide, hframe, rfl⟩)) List.Forall₂.nil
  malformed := by
    refine Framing.Framer.scan_of_reject ?_
    rw [wrapperFramer_front, badWpdu, wrapperFront, if_pos (by decide)]
  stream := by simp only [List.flatten_cons, List.flatten_nil, List.append_nil]
  nonempty := by decide

theorem frame_arrives (limits : HdlcCodecLimits) (h : 5 ≤ limits.maximumInformationFieldSize) :
    Arrives (framer limits) [goodFrame] .invalidFrameFormat [frameBytes goodFrame] badFrame
      [frameBytes goodFrame, badFrame] where
  encodes := List.Forall₂.cons
    (framer_encodes ((if_neg (Nat.not_lt.mpr h)).trans rfl)) List.Forall₂.nil
  malformed := Framing.Framer.scan_of_reject rfl
  stream := by simp only [List.flatten_cons, List.flatten_nil, List.append_nil]
  nonempty := by decide

end Reference

/-- A boundary behind the one good frame, over either channel. -/
theorem delivered_before_error_apart :
    ((∃ n, (Tcp.channel Reference.wrapperLib).outcomes n
          (Reference.tcpChannel defaultApduChannelOptions
            (arrivals [Reference.wpduBytes Reference.goodWpdu, Reference.badWpdu])) =
        ([[0xC0, 0x01]], some .invalidFrame)) ↔
      Separated (Reference.wrapperStreamLaw
        (makeWrapperLimits Reference.wrapperLib defaultApduChannelOptions)).framer
        [Reference.wpduBytes Reference.goodWpdu]
        [Reference.wpduBytes Reference.goodWpdu, Reference.badWpdu]) ∧
    ((∃ n, (Hdlc.channel Reference.hdlcLib).outcomes n
          (Reference.hdlcChannel defaultApduChannelOptions
            (arrivals [Reference.frameBytes Reference.goodFrame, Reference.badFrame])) =
        ([[0xC0, 0x01]], some .invalidFrame)) ↔
      Separated (Reference.hdlcStreamLaw
        (Hdlc.decoderLimits Reference.hdlcLib defaultApduChannelOptions)).framer
        [Reference.frameBytes Reference.goodFrame]
        [Reference.frameBytes Reference.goodFrame, Reference.badFrame]) :=
  ⟨(delivered_before_error_iff (Reference.wrapperStreamLaw _)
      (Reference.hdlcStreamLaw (Hdlc.decoderLimits Reference.hdlcLib _))).1 _
      [Reference.goodWpdu] .invalidVersion _ _ _ (Tcp.Reachable.new rfl) rfl rfl rfl
      (Reference.wpdu_arrives _ (by decide) (by decide)),
    (delivered_before_error_iff (Reference.wrapperStreamLaw _)
      (Reference.hdlcStreamLaw (Hdlc.decoderLimits Reference.hdlcLib _))).2 _
      [Reference.goodFrame] .invalidFrameFormat _ _ _ ⟨_, [], rfl, rfl, rfl⟩ rfl rfl rfl rfl rfl
      (Reference.frame_arrives _ (by decide))
      (List.forall_mem_singleton.mpr ⟨rfl, rfl, by decide⟩)⟩

/-- One good frame and malformed bytes, in two reads and in one: in one the
    frame is lost, over either channel. -/
theorem delivered_before_error_refuted :
    (Tcp.channel Reference.wrapperLib).outcomes 2
        (Reference.tcpChannel defaultApduChannelOptions
          (arrivals [Reference.wpduBytes Reference.goodWpdu, Reference.badWpdu])) =
        ([[0xC0, 0x01]], some .invalidFrame) ∧
      (Tcp.channel Reference.wrapperLib).outcomes 2
        (Reference.tcpChannel defaultApduChannelOptions
          (arrivals [Reference.wpduBytes Reference.goodWpdu ++ Reference.badWpdu])) =
        ([], some .invalidFrame) ∧
      (Hdlc.channel Reference.hdlcLib).outcomes 2
        (Reference.hdlcChannel defaultApduChannelOptions
          (arrivals [Reference.frameBytes Reference.goodFrame, Reference.badFrame])) =
        ([[0xC0, 0x01]], some .invalidFrame) ∧
      (Hdlc.channel Reference.hdlcLib).outcomes 2
        (Reference.hdlcChannel defaultApduChannelOptions
          (arrivals [Reference.frameBytes Reference.goodFrame ++ Reference.badFrame])) =
        ([], some .invalidFrame) := by
  decide +kernel

end DlmsProfile
