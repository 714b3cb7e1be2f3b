import DlmsProfile.Wrapper.TcpDelivery
import DlmsProfile.Wrapper.TcpTrace

/-!
# Closing a Wrapper/TCP Channel

All that a channel knows of its past are the bytes its decoder keeps and the frames it has
not handed over. `Close` drops both, whatever the stream answers. So a channel that was
closed goes on as one just constructed.

A decoder that was reset need not be the object that a constructor makes, and two decoders
that keep the same bytes may answer a push that completes nothing in two ways. One answer
ends a turn of the receive loop and the other does not. So two channels are compared over
whole loops, not turn by turn.

## Main definitions

* `Tcp.resumed`: A channel with another decoder and a longer past.
* `Tcp.Resumes`: The decoders of the two keep the same bytes.
* `Tcp.afresh`: A channel just constructed, in the surroundings of another.

## Theorems

* `Tcp.awaitFrame_resumed`: A receive loop ends alike on both.
* `Tcp.performAll_resumed`: So does every run, with the same calls and events.
* `Tcp.close_resets`: After `Close` a channel is one just constructed.
-/

namespace DlmsProfile

namespace Tcp

variable {W : WrapperLib} {limits : WrapperCodecLimits}

/-- The event, with that many calls in front. -/
def Emitted.later (n : Nat) (e : Emitted) : Emitted := { e with after := n + e.after }

/-- A channel with another decoder and a longer past. -/
def resumed (before : List TransportCall) (events : List Emitted) (d : W.Decoder) (s : State W) :
    State W :=
  { s with
    decoder := d
    calls := before ++ s.calls
    sink := events ++ s.sink.map (Emitted.later before.length) }

/-- The second channel is the first with a longer past and a decoder that keeps the same. -/
def Resumes (law : WrapperStreamLaw W limits) (before : List TransportCall)
    (events : List Emitted) (s t : State W) : Prop :=
  law.live s.decoder ∧ ∃ d, law.live d ∧ law.view d = law.view s.decoder ∧
    t = resumed before events d s

section Events

variable (sinkSet : Bool) (before calls : List TransportCall) (events sink : List Emitted)

theorem emitTrace_later (event : TraceEvent) :
    emitTrace sinkSet event (before ++ calls).length
        (events ++ sink.map (Emitted.later before.length)) =
      events ++ (emitTrace sinkSet event calls.length sink).map
        (Emitted.later before.length) := by
  unfold emitTrace
  split
  · rw [List.map_append, List.append_assoc, List.length_append]
    rfl
  · rfl

theorem foldl_emitTrace_later (frames : List WrapperFrame) :
    frames.foldl (fun sink f => emitTrace sinkSet (decodedEvent f) (before ++ calls).length sink)
        (events ++ sink.map (Emitted.later before.length)) =
      events ++ (frames.foldl (fun sink f => emitTrace sinkSet (decodedEvent f) calls.length sink)
        sink).map (Emitted.later before.length) := by
  induction frames generalizing sink with
  | nil => rfl
  | cons f frames ih => rw [List.foldl_cons, List.foldl_cons, emitTrace_later, ih]

end Events

section Loop

variable {before : List TransportCall} {events : List Emitted} {d d' : W.Decoder} {s : State W}
  {e : ReadEvent} {rest : List ReadEvent}

theorem apdus_eq_nil_iff : pending.apdus s = [] ↔ s.pendingFrames = [] := List.map_eq_nil_iff

theorem afterRead_resumed : afterRead e rest (resumed before events d s) =
    resumed before events d (afterRead e rest s) := by
  simp only [afterRead, resumed, List.append_assoc]

/-- A read whose failure is told to the sink, or that of its push. -/
theorem resumed_failed (sinkSet : Bool) (event : TraceEvent) :
    { afterRead e rest (resumed before events d s) with
      decoder := d'
      sink := emitTrace sinkSet event (afterRead e rest (resumed before events d s)).calls.length
        (resumed before events d s).sink } =
      resumed before events d' { afterRead e rest s with
        sink := emitTrace sinkSet event (afterRead e rest s).calls.length s.sink } := by
  simp only [afterRead, resumed, List.append_assoc, emitTrace_later]

theorem receiveNextFrame_of_cons (hbuffer : s.readBufferSize ≠ 0) (hreads : s.reads = e :: rest) :
    receiveNextFrame s = receiveNextFrameLoop (e :: rest) s := by
  rw [receiveNextFrame, if_neg hbuffer, hreads]

/-- The frames of a push are told to the sink and queued. -/
theorem resumed_completed (sinkSet : Bool) (frames queue : List WrapperFrame) :
    { afterRead e rest (resumed before events d s) with
      decoder := d'
      sink := frames.foldl (fun sink f => emitTrace sinkSet (decodedEvent f)
        (afterRead e rest (resumed before events d s)).calls.length sink)
        (resumed before events d s).sink
      pendingFrames := queue } =
      resumed before events d' { afterRead e rest s with
        sink := frames.foldl (fun sink f => emitTrace sinkSet (decodedEvent f)
          (afterRead e rest s).calls.length sink) s.sink
        pendingFrames := queue } := by
  simp only [afterRead, resumed, List.append_assoc, foldl_emitTrace_later]

/-- A push that completes nothing leaves the loop to the reads behind it, whichever of
    its two answers it gives. -/
theorem awaitFrame_continued (hnone : s.pendingFrames = []) (hbuffer : s.readBufferSize ≠ 0)
    (hreads : s.reads = e :: rest) (hok : e.status = .ok) (he : e.bytes ≠ [])
    (hframes : (W.push s.decoder e.bytes).2.1 = [])
    (hstatus : mapWrapperStatus (W.push s.decoder e.bytes).1 = .ok ∨
      mapWrapperStatus (W.push s.decoder e.bytes).1 = .needMoreData) :
    awaitFrame s =
      awaitFrame { afterRead e rest s with decoder := (W.push s.decoder e.bytes).2.2 } := by
  have hempty : pending.apdus s = [] := apdus_eq_nil_iff.mpr hnone
  have hbody := receiveNextFrame_of_cons hbuffer hreads
  -- A push that completes nothing ends the step or not, and is read on after in any case.
  rcases hstatus with hdone | hmore
  · refine PendingQueue.await_of_unfilled hempty ?_ hempty
    rw [hbody, loop_completed hok he hdone, hframes, List.foldl_nil, List.append_nil]
    rfl
  · refine PendingQueue.await_congr hempty hempty ?_
    have hnext : receiveNextFrame { afterRead e rest s with
        decoder := (W.push s.decoder e.bytes).2.2 } = receiveNextFrameLoop rest
          { afterRead e rest s with decoder := (W.push s.decoder e.bytes).2.2 } := if_neg hbuffer
    rw [hbody, loop_continued hok he hmore, hnext]

end Loop

section Agreement

variable {law : WrapperStreamLaw W limits} {before : List TransportCall} {events : List Emitted}

/-- Two loops that end in the same way. -/
theorem awaitFrame_alike {o : Outcome ProfileStatus Unit} {s s1 : State W} {d d1 : W.Decoder}
    (hs : awaitFrame s = (o, s1))
    (ht : awaitFrame (resumed before events d s) = (o, resumed before events d1 s1))
    (hlive : law.live s1.decoder) (hd1 : law.live d1)
    (hview : law.view d1 = law.view s1.decoder) :
    (awaitFrame s).1 = (awaitFrame (resumed before events d s)).1 ∧
      Resumes law before events (awaitFrame s).2 (awaitFrame (resumed before events d s)).2 := by
  rw [hs, ht]
  exact ⟨rfl, hlive, d1, hd1, hview, rfl⟩

/-- A body that fails on both channels ends both loops. -/
theorem awaitFrame_fails {status : ProfileStatus} {s s1 : State W} {d d1 : W.Decoder}
    (hnone : s.pendingFrames = []) (hs : receiveNextFrame s = (.fail status, s1))
    (ht : receiveNextFrame (resumed before events d s) =
      (.fail status, resumed before events d1 s1))
    (hlive : law.live s1.decoder) (hd1 : law.live d1)
    (hview : law.view d1 = law.view s1.decoder) :
    (awaitFrame s).1 = (awaitFrame (resumed before events d s)).1 ∧
      Resumes law before events (awaitFrame s).2 (awaitFrame (resumed before events d s)).2 := by
  have hempty : pending.apdus s = [] := apdus_eq_nil_iff.mpr hnone
  exact awaitFrame_alike (PendingQueue.await_of_fail hempty hs)
    (PendingQueue.await_of_fail hempty ht) hlive hd1 hview

/-- So does one that fills the queue of both. -/
theorem awaitFrame_fills {s s1 : State W} {d d1 : W.Decoder} (hnone : s.pendingFrames = [])
    (hs : receiveNextFrame s = (.done (), s1))
    (ht : receiveNextFrame (resumed before events d s) = (.done (), resumed before events d1 s1))
    (hsome : s1.pendingFrames ≠ []) (hlive : law.live s1.decoder) (hd1 : law.live d1)
    (hview : law.view d1 = law.view s1.decoder) :
    (awaitFrame s).1 = (awaitFrame (resumed before events d s)).1 ∧
      Resumes law before events (awaitFrame s).2 (awaitFrame (resumed before events d s)).2 := by
  have hempty : pending.apdus s = [] := apdus_eq_nil_iff.mpr hnone
  have hne : pending.apdus s1 ≠ [] := fun hc => hsome (apdus_eq_nil_iff.mp hc)
  exact awaitFrame_alike (PendingQueue.await_of_filled hempty hs hne)
    (PendingQueue.await_of_filled hempty ht hne) hlive hd1 hview

/-- With an empty queue both channels go through the same reads. By induction on these: each
    fails, is empty, is rejected by both decoders, completes the same frames in both, or
    completes none and leaves the two of them to the next one. -/
theorem awaitFrame_reads {s : State W} {d : W.Decoder} (hlive : law.live s.decoder)
    (hd : law.live d) (hview : law.view d = law.view s.decoder) (hnone : s.pendingFrames = [])
    (hbuffer : s.readBufferSize ≠ 0) :
    (awaitFrame s).1 = (awaitFrame (resumed before events d s)).1 ∧
      Resumes law before events (awaitFrame s).2 (awaitFrame (resumed before events d s)).2 := by
  induction hreads : s.reads generalizing s d with
  | nil =>
      have hbody : ∀ s : State W, s.readBufferSize ≠ 0 → s.reads = [] →
          receiveNextFrame s = (.waiting, { s with reads := [] }) := by
        intro s hbuffer hreads
        rw [receiveNextFrame, if_neg hbuffer, hreads, receiveNextFrameLoop]
      have hempty : pending.apdus s = [] := apdus_eq_nil_iff.mpr hnone
      exact awaitFrame_alike (PendingQueue.await_of_waiting hempty (hbody s hbuffer hreads))
        (PendingQueue.await_of_waiting hempty
          (hbody (resumed before events d s) hbuffer hreads)) hlive hd hview
  | cons e rest ih =>
      have hbody := receiveNextFrame_of_cons hbuffer hreads
      have hbody' := receiveNextFrame_of_cons (s := resumed before events d s) hbuffer hreads
      -- A read that fails or is empty does not reach the decoders.
      by_cases hok : e.status = .ok
      swap
      · rw [loop_readFailed hok] at hbody hbody'
        refine awaitFrame_fails hnone hbody (hbody'.trans ?_) hlive hd hview
        exact congrArg (Prod.mk _) (resumed_failed _ _)
      by_cases he : e.bytes = []
      · rw [loop_readEmpty hok he] at hbody hbody'
        refine awaitFrame_fails hnone hbody (hbody'.trans ?_) hlive hd hview
        rw [afterRead_resumed]
      have hpush := law.follows.push_live e.bytes hlive
      have hpush' := law.follows.push_live e.bytes hd
      rcases hscan : law.framer.scan (law.view s.decoder ++ e.bytes) with ⟨xs, r | err⟩
      · rcases law.follows.push_rest hlive hscan with ⟨hframes, hkept, hstatus⟩
        rcases law.follows.push_rest hd (hview ▸ hscan) with ⟨hframes', hkept', hstatus'⟩
        by_cases hxs : xs = []
        · subst hxs
          -- The two answers may differ here, and the reads that follow are the same.
          have hs := awaitFrame_continued hnone hbuffer hreads hok he hframes
            (hstatus.imp_right And.left)
          have ht := awaitFrame_continued (s := resumed before events d s) hnone hbuffer hreads hok
            he hframes' (hstatus'.imp_right And.left)
          rw [hs, ht, afterRead_resumed]
          exact ih hpush hpush' (hkept'.trans hkept.symm) hnone hbuffer rfl
        · have hdone := hstatus.resolve_right fun h => hxs h.2
          have hdone' := hstatus'.resolve_right fun h => hxs h.2
          rw [loop_completed hok he hdone, hframes] at hbody
          rw [loop_completed (s := resumed before events d s) hok he hdone'] at hbody'
          refine awaitFrame_fills hnone hbody (hbody'.trans ?_)
            (List.append_ne_nil_of_right_ne_nil _ hxs) hpush hpush' (hkept'.trans hkept.symm)
          rw [← hframes']
          exact congrArg (Prod.mk _) (resumed_completed _ _ _)
      -- A rejection leaves nothing in either decoder.
      · rcases law.follows.push_reject hlive hscan with ⟨hst, -, hnot, hmore⟩
        rcases law.follows.push_reject hd (hview ▸ hscan) with ⟨hst', -, -, -⟩
        rw [loop_rejected hok he (hst ▸ hnot) (hst ▸ hmore), hst] at hbody
        rw [loop_rejected (s := resumed before events d s) hok he (hst' ▸ hnot)
          (hst' ▸ hmore)] at hbody'
        refine awaitFrame_fails hnone hbody (hbody'.trans ?_) (law.reset hpush).1
          (law.reset hpush').1 ((law.reset hpush').2.trans (law.reset hpush).2.symm)
        rw [← hst']
        exact congrArg (Prod.mk _) (resumed_failed _ _)

/-- A receive loop ends alike on both channels. -/
theorem awaitFrame_resumed :
    Proc.Agree (Resumes law before events) (awaitFrame : Call W Unit) awaitFrame := by
  rintro s _ ⟨hlive, d, hd, hview, rfl⟩
  -- With frames in the queue no loop begins.
  by_cases hnone : s.pendingFrames = []
  swap
  · have hne : pending.apdus s ≠ [] := fun hc => hnone (apdus_eq_nil_iff.mp hc)
    exact awaitFrame_alike (PendingQueue.await_of_pending hne)
      (PendingQueue.await_of_pending hne) hlive hd hview
  by_cases hbuffer : s.readBufferSize = 0
  · exact awaitFrame_fails hnone (if_pos hbuffer) (if_pos hbuffer) hlive hd hview
  · exact awaitFrame_reads hlive hd hview hnone hbuffer

theorem writeAll_resumed (bytes : List UInt8) :
    Proc.Agree (Resumes law before events) (writeAll bytes : Call W Unit) (writeAll bytes) := by
  rintro s _ ⟨hlive, d, hd, hview, rfl⟩
  simp only [writeAll, check_snd]
  refine ⟨check_fst _ _ _, hlive, d, hd, hview, ?_⟩
  simp only [resumed, List.append_assoc]

theorem sendApdu_resumed (apdu : ProfileByteView) :
    Proc.Agree (Resumes law before events) (sendApdu apdu : Call W Unit) (sendApdu apdu) := by
  rintro s _ ⟨hlive, d, hd, hview, rfl⟩
  unfold resumed sendApdu
  simp only
  split
  · exact ⟨rfl, hlive, d, hd, hview, rfl⟩
  split
  · exact ⟨rfl, hlive, d, hd, hview, rfl⟩
  split
  · exact ⟨rfl, hlive, d, hd, hview, rfl⟩
  · refine writeAll_resumed _ _ _ ⟨hlive, d, hd, hview, ?_⟩
    simp only [resumed, emitTrace_later]

/-- An operation answers the same on both channels and leaves them as they were. -/
theorem perform_resumed (op : Operation) {s t : State W} (hst : Resumes law before events s t) :
    (perform op s).1 = (perform op t).1 ∧
      Resumes law before events (perform op s).2 (perform op t).2 := by
  -- By the calls. `Close` brings both decoders to the same view, and the others keep it.
  cases op with
  | «open» =>
      rcases hst with ⟨hlive, d, hd, hview, rfl⟩
      simp only [perform, openStream, check_snd]
      refine ⟨congrArg Reply.status (check_fst _ _ _), hlive, d, hd, hview, ?_⟩
      simp only [resumed, List.append_assoc]
  | close =>
      rcases hst with ⟨hlive, d, hd, hview, rfl⟩
      have hreset := law.reset hlive
      have hreset' := law.reset hd
      simp only [perform, closeStream, check_snd]
      refine ⟨congrArg Reply.status (check_fst _ _ _), hreset.1, W.reset d, hreset'.1,
        hreset'.2.trans hreset.2.symm, ?_⟩
      simp only [resumed, List.append_assoc]
  | send apdu =>
      rcases sendApdu_resumed apdu s t hst with ⟨hout, hrel⟩
      exact ⟨congrArg Reply.status hout, hrel⟩
  | receive call =>
      have hq : ∀ s t : State W, Resumes law before events s t →
          pending.apdus s = pending.apdus t := by
        rintro s _ ⟨-, d, -, -, rfl⟩
        rfl
      have hpop : ∀ s t : State W, Resumes law before events s t →
          Resumes law before events (pending.pop s) (pending.pop t) := by
        rintro s _ ⟨hlive, d, hd, hview, rfl⟩
        exact ⟨hlive, d, hd, hview, rfl⟩
      rcases PendingQueue.agree_call hq hpop awaitFrame_resumed call s t hst with ⟨hout, hrel⟩
      exact ⟨congrArg Reply.received hout, hrel⟩

/-- So does every run. -/
theorem performAll_resumed (ops : List Operation) {s t : State W}
    (hst : Resumes law before events s t) :
    (performAll ops s).1 = (performAll ops t).1 ∧
      Resumes law before events (performAll ops s).2 (performAll ops t).2 := by
  induction ops generalizing s t with
  | nil => exact ⟨rfl, hst⟩
  | cons op ops ih =>
      rcases perform_resumed op hst with ⟨hout, hrel⟩
      simp only [performAll, hout]
      split
      · exact ⟨rfl, hrel⟩
      · rcases ih hrel with ⟨houts, hrels⟩
        exact ⟨by rw [houts], hrels⟩

end Agreement

/-- A channel just constructed, with nothing called yet, on the stream of another. -/
def afresh (options : ApduChannelOptions) (s : State W) : State W :=
  { s with
    toChannel := newChannel W options
    calls := []
    sink := [] }

/-- No call changes what construction fixes. -/
theorem setup_of_reachable {options : ApduChannelOptions} {s : State W}
    (h : Reachable W options s) :
    s.options = options ∧ s.wrapperLimits = makeWrapperLimits W options ∧
      s.readBufferSize = scratchSize options := by
  induction h with
  | new h =>
      rw [h]
      exact ⟨rfl, rfl, rfl⟩
  | @step s op _ ih =>
      have hsame := exec_sameSetup op s
      exact ⟨hsame.options.trans ih.1, hsame.wrapperLimits.trans ih.2.1,
        hsame.readBufferSize.trans ih.2.2⟩

/-- A channel that was just closed is one just constructed with what it did before in front. -/
theorem close_resumes {options : ApduChannelOptions}
    (law : WrapperStreamLaw W (makeWrapperLimits W options)) {s : State W}
    (h : Reachable W options s) :
    Resumes law (exec .close s).calls (exec .close s).sink (afresh options (exec .close s))
      (exec .close s) := by
  have hreset := law.reset (alive_of_reachable law h).live
  rcases setup_of_reachable h with ⟨hoptions, hlimits, hbuffer⟩
  refine ⟨law.new.1, W.reset s.decoder, hreset.1, hreset.2.trans law.new.2.symm, ?_⟩
  rw [exec, closeStream, check_snd]
  simp only [resumed, afresh, newChannel, List.append_nil, List.map_nil, ← hlimits, ← hbuffer]
  rw [← hoptions]

/-- `Close` is a full reset, whatever happened before and whatever the stream answers to it.
    In every run from then on a channel answers as one just constructed, makes the same
    calls, and tells its sink the same. -/
theorem close_resets {options : ApduChannelOptions}
    (law : WrapperStreamLaw W (makeWrapperLimits W options)) {s : State W}
    (h : Reachable W options s) (ops : List Operation) :
    (performAll ops (exec .close s)).1 = (performAll ops (afresh options (exec .close s))).1 ∧
      (performAll ops (exec .close s)).2.calls = (exec .close s).calls ++
        (performAll ops (afresh options (exec .close s))).2.calls ∧
      (performAll ops (exec .close s)).2.sink = (exec .close s).sink ++
        (performAll ops (afresh options (exec .close s))).2.sink.map
          (Emitted.later (exec .close s).calls.length) := by
  -- The run of the channel made anew is this one without what lies before it.
  rcases performAll_resumed ops (close_resumes law h) with ⟨houts, -, d, -, -, hstate⟩
  refine ⟨houts.symm, ?_, ?_⟩
  · rw [hstate]
    rfl
  · rw [hstate]
    rfl

/-- A channel closed in the middle of a WPDU, with the one before it handed over. -/
theorem close_resets_midway :
    let s := exec (.receive .vector) (Reference.tcpChannel defaultApduChannelOptions
      [Reference.arrived [0x00, 0x01, 0x00, 0x10, 0x00, 0x01, 0x00, 0x01, 0xC0, 0x00, 0x01],
        Reference.arrived [0x00, 0x01, 0x00, 0x10, 0x00, 0x01, 0x00, 0x01, 0xC1]])
    let closed := exec .close s
    let fresh := afresh defaultApduChannelOptions closed
    let ops : List Operation := [.open, .receive .vector]
    (performAll ops closed).1 = (performAll ops fresh).1 ∧
      (performAll ops closed).2.calls = closed.calls ++ (performAll ops fresh).2.calls ∧
      (performAll ops closed).2.sink = closed.sink ++
        (performAll ops fresh).2.sink.map (Emitted.later closed.calls.length) :=
  close_resets (Reference.wrapperStreamLaw _) (.step (.receive .vector) (.new rfl)) _

end Tcp

end DlmsProfile
