import DlmsProfile.Wrapper.Tcp

/-!
# What the Trace Sink Sees

The trace sink of a Wrapper/TCP channel is a hook for diagnosis, and the plan
that introduced it asks two things of it. It must not change what the channel
does, and what it is told must be what happened.

The first is a law about two runs, one with a sink and one without, from the
same state and over the same transport. The two states differ in one option
and in what the sink was given (`Silenced`), no call looks at either, and so
the runs stay side by side.

The second ties the sink to what can be seen without it. `eventsOf` reads the
events of one operation off its transport calls, the frames its queue gained
and the status it ended with. Each event carries the number of transport calls
answered before it, which fixes its moment: an encoded frame comes before the
write that carries it, a decoded frame after the read that completed it.

## Main definitions

* `Reply`, `perform`, `performAll`: Operations with what they answer.
* `Silenced`: Two states that differ in the sink alone.
* `eventsOf`, `told`: The events of an operation, and of a run.

## Theorems

* `perform_silenced`: An operation does the same without a sink.
* `awaitFrame_tells`: The events of a receive loop.
* `trace_exact`: Both, for every run.
-/

namespace DlmsProfile

namespace Tcp

variable {W : WrapperLib}

/-- What an operation answered. -/
inductive Reply where
  | status (outcome : Outcome ProfileStatus Unit)
  | received (answer : Answer)

/-- An operation, with what it answers. -/
def perform : Operation → State W → Reply × State W
  | .open, s => (.status (openStream s).1, (openStream s).2)
  | .close, s => (.status (closeStream s).1, (closeStream s).2)
  | .send apdu, s => (.status (sendApdu apdu s).1, (sendApdu apdu s).2)
  | .receive call, s => (.received ((channel W).call call s).1, ((channel W).call call s).2)

theorem perform_snd (op : Operation) (s : State W) : (perform op s).2 = exec op s := by
  cases op <;> rfl

/-- The operation has not returned. -/
def Reply.isWaiting : Reply → Bool
  | .status .waiting => true
  | .status _ => false
  | .received answer => answer.isWaiting

/-- Operations in order. One that does not return is the last. -/
def performAll : List Operation → State W → List Reply × State W
  | [], s => ([], s)
  | op :: ops, s =>
    if (perform op s).1.isWaiting then ([(perform op s).1], (perform op s).2)
    else
      ((perform op s).1 :: (performAll ops (perform op s).2).1,
        (performAll ops (perform op s).2).2)

/-- The second state is the first with another sink. -/
def Silenced (s t : State W) : Prop :=
  ∃ sinkSet sink,
    t = { s with options := { s.options with wrapperTcpTraceSink := sinkSet }, sink := sink }

theorem writeAll_silenced (bytes : List UInt8) :
    Proc.Agree Silenced (writeAll bytes : Call W Unit) (writeAll bytes) := by
  rintro s _ ⟨sinkSet, sink, rfl⟩
  simp only [writeAll, check_snd]
  exact ⟨check_fst _ _ _, sinkSet, sink, rfl⟩

theorem sendApdu_silenced (apdu : ProfileByteView) :
    Proc.Agree Silenced (sendApdu apdu : Call W Unit) (sendApdu apdu) := by
  rintro s _ ⟨sinkSet, sink, rfl⟩
  unfold sendApdu
  simp only
  split
  · exact ⟨rfl, sinkSet, sink, rfl⟩
  split
  · exact ⟨rfl, sinkSet, sink, rfl⟩
  split
  · exact ⟨rfl, sinkSet, sink, rfl⟩
  · exact writeAll_silenced _ _ _ ⟨sinkSet, _, rfl⟩

theorem receiveNextFrameLoop_silenced (reads : List ReadEvent) :
    Proc.Agree Silenced (receiveNextFrameLoop reads : Call W Unit)
      (receiveNextFrameLoop reads) := by
  -- On the reads. The sink is told of them, and nothing is asked of it.
  induction reads with
  | nil =>
      rintro s _ ⟨sinkSet, sink, rfl⟩
      exact ⟨rfl, sinkSet, sink, rfl⟩
  | cons e rest ih =>
      rintro s _ ⟨sinkSet, sink, rfl⟩
      simp only [receiveNextFrameLoop]
      split
      · exact ⟨rfl, sinkSet, _, rfl⟩
      split
      · exact ⟨rfl, sinkSet, _, rfl⟩
      split
      · exact ⟨rfl, sinkSet, _, rfl⟩
      split
      · exact ⟨rfl, sinkSet, _, rfl⟩
      · exact ih _ _ ⟨sinkSet, sink, rfl⟩

theorem receiveNextFrame_silenced :
    Proc.Agree Silenced (receiveNextFrame : Call W Unit) receiveNextFrame := by
  rintro s _ ⟨sinkSet, sink, rfl⟩
  simp only [receiveNextFrame]
  split
  · exact ⟨rfl, sinkSet, sink, rfl⟩
  · exact receiveNextFrameLoop_silenced _ _ _ ⟨sinkSet, sink, rfl⟩

/-- An operation answers the same without a sink and leaves the same channel. -/
theorem perform_silenced (op : Operation) (s t : State W) (hst : Silenced s t) :
    (perform op s).1 = (perform op t).1 ∧ Silenced (perform op s).2 (perform op t).2 := by
  -- By the calls. None of them reads what the sink holds or whether there is one.
  cases op with
  | «open» =>
      rcases hst with ⟨sinkSet, sink, rfl⟩
      simp only [perform, openStream, check_snd]
      exact ⟨congrArg Reply.status (check_fst _ _ _), sinkSet, sink, rfl⟩
  | close =>
      rcases hst with ⟨sinkSet, sink, rfl⟩
      simp only [perform, closeStream, check_snd]
      exact ⟨congrArg Reply.status (check_fst _ _ _), sinkSet, sink, rfl⟩
  | send apdu =>
      rcases sendApdu_silenced apdu s t hst with ⟨hout, hrel⟩
      exact ⟨congrArg Reply.status hout, hrel⟩
  | receive call =>
      have hq : ∀ s t : State W, Silenced s t → pending.apdus s = pending.apdus t := by
        rintro s _ ⟨sinkSet, sink, rfl⟩
        rfl
      have hpop : ∀ s t : State W, Silenced s t → Silenced (pending.pop s) (pending.pop t) := by
        rintro s _ ⟨sinkSet, sink, rfl⟩
        exact ⟨sinkSet, sink, rfl⟩
      rcases PendingQueue.agree_call hq hpop (PendingQueue.agree_await hq receiveNextFrame_silenced)
        call s t hst with ⟨hout, hrel⟩
      exact ⟨congrArg Reply.received hout, hrel⟩

theorem performAll_silenced (ops : List Operation) (s t : State W) (hst : Silenced s t) :
    (performAll ops s).1 = (performAll ops t).1 ∧
      Silenced (performAll ops s).2 (performAll ops t).2 := by
  induction ops generalizing s t with
  | nil => exact ⟨rfl, hst⟩
  | cons op ops ih =>
      rcases perform_silenced op s t hst with ⟨hout, hrel⟩
      simp only [performAll, hout]
      split
      · exact ⟨rfl, hrel⟩
      · rcases ih _ _ hrel with ⟨houts, hrels⟩
        exact ⟨by rw [houts], hrels⟩

/-- The WPDU of a `SendApdu` that passed encoding. -/
def encodedBy (apdu : ProfileByteView) (s : State W) : Option (List UInt8) :=
  let encoded := W.encodeWpdu
    { sourcePort := s.options.localWrapperPort
      destinationPort := s.options.remoteWrapperPort
      data := apdu.data } s.wrapperLimits
  if isValidByteView apdu = true ∧
      (s.options.maximumApduSize = 0 ∨ apdu.size ≤ s.options.maximumApduSize) ∧ encoded.1 = .ok then
    some encoded.2
  else none

/-- The event of a WPDU about to be written. -/
def encodedEvent (apdu : ProfileByteView) (s : State W) (wpdu : List UInt8) : TraceEvent where
  kind := .encodedFrame
  direction := .outbound
  status := .ok
  sourcePort := s.options.localWrapperPort
  destinationPort := s.options.remoteWrapperPort
  encodedSize := wpdu.length
  apduSize := apdu.size
  bytes := wpdu
  byteSize := wpdu.length

/-- The event of a receive loop that ended with a status: that of its last read,
    or that of the push of the bytes the last read gave. -/
def endEvents : Outcome ProfileStatus Unit → Option TransportCall → List TraceEvent
  | .fail status, some (.read e) =>
    if status = .needMoreData then []
    else if e.status = .ok then [failedEvent .decodeStatus status e.bytes]
    else [failedEvent .readStatus status []]
  | _, _ => []

/-- The events of a receive loop: the frames the queue gained, in its order, and
    how the loop ended, all of them after its last read. -/
def loopEvents (s : State W) (o : Outcome ProfileStatus Unit) (s1 : State W) : List Emitted :=
  ((s1.pendingFrames.drop s.pendingFrames.length).map decodedEvent ++
    endEvents o s1.calls.getLast?).map fun event => ⟨event, s1.calls.length⟩

/-- The events of an operation. -/
def eventsOf : Operation → State W → List Emitted
  | .open, _ => []
  | .close, _ => []
  | .send apdu, s =>
    ((encodedBy apdu s).map fun wpdu => ⟨encodedEvent apdu s wpdu, s.calls.length⟩).toList
  | .receive .vector, s => loopEvents s (awaitFrame s).1 (awaitFrame s).2
  | .receive (.into output), s =>
    if isValidMutableBuffer output = true then loopEvents s (awaitFrame s).1 (awaitFrame s).2
    else []

/-- The events of a run. -/
def told : List Operation → State W → List Emitted
  | [], _ => []
  | op :: ops, s =>
    eventsOf op s ++ if (perform op s).1.isWaiting then [] else told ops (perform op s).2

/-- What a receive loop told the sink on its way from one state to another. -/
structure Tells (s : State W) (o : Outcome ProfileStatus Unit) (s1 : State W) : Prop where
  gained : s.pendingFrames <+: s1.pendingFrames
  sink : s1.sink = s.sink ++ loopEvents s o s1
  options : s1.options = s.options
  buffer : s1.readBufferSize = s.readBufferSize

theorem foldl_emitTrace (after : Nat) (frames : List WrapperFrame) (sink : List Emitted) :
    frames.foldl (fun sink f => emitTrace true (decodedEvent f) after sink) sink =
      sink ++ frames.map fun f => ⟨decodedEvent f, after⟩ := by
  induction frames generalizing sink with
  | nil => exact (List.append_nil sink).symm
  | cons f frames ih =>
      rw [List.foldl_cons, ih, emitTrace, if_pos rfl, List.map_cons, List.append_assoc,
        List.singleton_append]

/-- A loop that added nothing to the queue tells of its end only. -/
theorem tells_of_end {s s1 : State W} {o : Outcome ProfileStatus Unit}
    (hgained : s1.pendingFrames = s.pendingFrames)
    (hsink : s1.sink = s.sink ++
      (endEvents o s1.calls.getLast?).map fun event => ⟨event, s1.calls.length⟩)
    (hoptions : s1.options = s.options) (hbuffer : s1.readBufferSize = s.readBufferSize) :
    Tells s o s1 := by
  refine ⟨hgained ▸ List.prefix_rfl, ?_, hoptions, hbuffer⟩
  rw [hsink, loopEvents, hgained, List.drop_length, List.map_nil, List.nil_append]

/-- The events of `ReceiveNextFrame`, by induction on the reads to come: only the
    read that ends the loop has any. -/
theorem receiveNextFrameLoop_tells (reads : List ReadEvent) (s : State W)
    (hset : s.options.wrapperTcpTraceSink = true) :
    Tells s (receiveNextFrameLoop reads s).1 (receiveNextFrameLoop reads s).2 := by
  induction reads generalizing s with
  | nil => exact tells_of_end rfl (List.append_nil _).symm rfl rfl
  | cons e rest ih =>
      have hlast : (afterRead e rest s).calls.getLast? = some (.read e) := List.getLast?_concat
      by_cases hread : e.status = .ok
      · by_cases hempty : e.bytes = []
        · rw [loop_readEmpty hread hempty]
          refine tells_of_end rfl ?_ rfl rfl
          rw [hlast]
          exact (List.append_nil _).symm
        · by_cases hok : mapWrapperStatus (W.push s.decoder e.bytes).1 = .ok
          · rw [loop_completed hread hempty hok]
            refine ⟨List.prefix_append _ _, ?_, rfl, rfl⟩
            simp only [loopEvents, hset, foldl_emitTrace, List.drop_left, endEvents,
              List.append_nil, List.map_map]
            rfl
          · by_cases hmore : mapWrapperStatus (W.push s.decoder e.bytes).1 = .needMoreData
            · -- Nothing is told before the next read.
              rw [loop_continued hread hempty hmore]
              rcases ih { afterRead e rest s with decoder := (W.push s.decoder e.bytes).2.2 } hset
                with ⟨hgained, hsink, hoptions, hbuffer⟩
              exact ⟨hgained, hsink, hoptions, hbuffer⟩
            · rw [loop_rejected hread hempty hok hmore]
              refine tells_of_end rfl ?_ rfl rfl
              simp only [hlast, hset, endEvents, if_neg hmore, if_pos hread]
              rfl
      · rw [loop_readFailed hread]
        refine tells_of_end rfl ?_ rfl rfl
        simp only [hlast, hset, endEvents,
          if_neg (mapTransportStatus_ne_needMoreData e.status), if_neg hread]
        rfl

theorem receiveNextFrame_tells (s : State W) (hset : s.options.wrapperTcpTraceSink = true)
    (hbuffer : s.readBufferSize ≠ 0) :
    Tells s (receiveNextFrame s).1 (receiveNextFrame s).2 := by
  rw [receiveNextFrame, if_neg hbuffer]
  exact receiveNextFrameLoop_tells s.reads s hset

/-- A turn that completed no frame had nothing to tell. -/
theorem Tells.of_none {s s1 s2 : State W} {o : Outcome ProfileStatus Unit}
    (h : Tells s (.done ()) s1) (hnone : s.pendingFrames = []) (hnone1 : s1.pendingFrames = [])
    (hrest : Tells s1 o s2) : Tells s o s2 := by
  have hsink : s1.sink = s.sink := by
    rw [h.sink, loopEvents, hnone1, List.drop_nil]
    exact List.append_nil _
  refine ⟨hnone ▸ List.nil_prefix, ?_, hrest.options.trans h.options, hrest.buffer.trans h.buffer⟩
  rw [hrest.sink, hsink, loopEvents, loopEvents, hnone, hnone1]

/-- The events of the loop in front of both overloads, by induction on its turns. -/
theorem awaitFrame_tells (s : State W) (hset : s.options.wrapperTcpTraceSink = true)
    (hbuffer : s.readBufferSize ≠ 0) : Tells s (awaitFrame s).1 (awaitFrame s).2 := by
  by_cases hnone : pending.apdus s = []
  · rw [awaitFrame, PendingQueue.await_of_empty hnone]
    -- By the turns of the loop. One that is not the last leaves the queue empty.
    refine Proc.repeatUntil_induct
      (fun s o s1 => pending.apdus s = [] → s.options.wrapperTcpTraceSink = true →
        s.readBufferSize ≠ 0 → Tells s o s1) ?_ ?_ ?_ ?_ s hnone hset hbuffer
    · intro s s1 e hb _ hset hbuffer
      have htells := receiveNextFrame_tells s hset hbuffer
      rwa [PendingQueue.turn_fail hb] at htells
    · intro s s1 hb _ hset hbuffer
      have htells := receiveNextFrame_tells s hset hbuffer
      rwa [PendingQueue.turn_waiting hb] at htells
    · intro s s1 hb _ hset hbuffer
      have htells := receiveNextFrame_tells s hset hbuffer
      rwa [(PendingQueue.turn_done_iff.mp hb).1] at htells
    · intro s s1 o s2 hb ih hnone hset hbuffer
      rcases PendingQueue.turn_done_iff.mp hb with ⟨hb, hmore⟩
      have htells := receiveNextFrame_tells s hset hbuffer
      rw [hb] at htells
      have hnone1 : pending.apdus s1 = [] := by
        simpa only [Bool.not_eq_false', List.isEmpty_iff] using hmore
      have hrest := ih hnone1 (htells.options ▸ hset) (htells.buffer ▸ hbuffer)
      exact htells.of_none (List.map_eq_nil_iff.mp hnone) (List.map_eq_nil_iff.mp hnone1) hrest
  · rw [awaitFrame, PendingQueue.await_of_pending hnone]
    exact tells_of_end rfl (List.append_nil _).symm rfl rfl

/-- The events of a receive call: those of its loop, whatever is made of its end. -/
theorem call_tells (call : ReceiveCall) (s : State W) (hset : s.options.wrapperTcpTraceSink = true)
    (hbuffer : s.readBufferSize ≠ 0) :
    (perform (.receive call) s).2.sink = s.sink ++ eventsOf (.receive call) s := by
  have htells := awaitFrame_tells s hset hbuffer
  -- What is done with the front of the queue is not told to the sink.
  cases call with
  | vector =>
      simp only [perform, ApduChannel.call, receiveApdu, eventsOf]
      rcases hw : awaitFrame s with ⟨⟨⟩ | status | _, s1⟩ <;> rw [hw] at htells
      · rw [PendingQueue.receiveVector_of_done hw]
        exact htells.sink
      · have hfail : pending.receiveVector awaitFrame s = (.fail status, s1) :=
          Proc.bind_of_fail _ hw
        rw [hfail]
        exact htells.sink
      · have hwait : pending.receiveVector awaitFrame s = (.waiting, s1) :=
          Proc.bind_of_waiting _ hw
        rw [hwait]
        exact htells.sink
  | into output =>
      simp only [perform, ApduChannel.call, receiveApduInto, eventsOf]
      by_cases hv : isValidMutableBuffer output = true
      · rw [if_pos hv]
        rcases hw : awaitFrame s with ⟨⟨⟩ | status | _, s1⟩ <;> rw [hw] at htells
        · rw [PendingQueue.receiveBuffer_of_done hv hw, PendingQueue.copyFirst]
          simp only
          split
          · exact htells.sink
          · exact htells.sink
        · rw [PendingQueue.receiveBuffer_of_fail hv hw]
          exact htells.sink
        · rw [PendingQueue.receiveBuffer_of_waiting hv hw]
          exact htells.sink
      · rw [if_neg hv, PendingQueue.receiveBuffer, if_pos (Bool.not_eq_true _ ▸ hv)]
        exact (List.append_nil _).symm

/-- `SendApdu` is announced to the sink, then written. -/
theorem sendApdu_of_encoded {apdu : ProfileByteView} {s : State W} {wpdu : List UInt8}
    (h : encodedBy apdu s = some wpdu) :
    sendApdu apdu s = writeAll wpdu { s with
      sink := emitTrace s.options.wrapperTcpTraceSink (encodedEvent apdu s wpdu) s.calls.length
        s.sink } := by
  unfold encodedBy at h
  simp only [Option.ite_none_right_eq_some, Option.some.injEq] at h
  rcases h with ⟨⟨hvalid, hsize, hencoded⟩, rfl⟩
  -- The three checks are passed, as there is a WPDU.
  have hroom : ¬ (s.options.maximumApduSize ≠ 0 ∧ s.options.maximumApduSize < apdu.size) := by
    omega
  have hok : ¬ mapWrapperStatus (W.encodeWpdu
      { sourcePort := s.options.localWrapperPort
        destinationPort := s.options.remoteWrapperPort
        data := apdu.data } s.wrapperLimits).1 ≠ .ok :=
    not_not_intro (mapWrapperStatus_eq_ok.mpr hencoded)
  rw [sendApdu, if_neg (by rw [hvalid]; exact Bool.true_eq_false.mp), if_neg hroom]
  simp only
  rw [if_neg hok]
  rfl

theorem sendApdu_of_refused {apdu : ProfileByteView} {s : State W} (h : encodedBy apdu s = none) :
    (sendApdu apdu s).2 = s := by
  unfold sendApdu
  simp only
  -- At each check the state is still as it was. Past all three there is a WPDU.
  split
  · rfl
  next hvalid =>
    split
    · rfl
    next hroom =>
      split
      · rfl
      next hok =>
        rw [not_not, mapWrapperStatus_eq_ok] at hok
        have hsize : s.options.maximumApduSize = 0 ∨ apdu.size ≤ s.options.maximumApduSize := by
          omega
        unfold encodedBy at h
        simp only [if_pos (And.intro (Bool.not_eq_false _ ▸ hvalid) (And.intro hsize hok)),
          reduceCtorEq] at h

/-- `SendApdu` writes exactly when it passed encoding, and what it encoded. -/
theorem sendApdu_calls (apdu : ProfileByteView) (s : State W) :
    (sendApdu apdu s).2.calls = s.calls ++
      ((encodedBy apdu s).map fun wpdu => .write wpdu (s.writes.headD .ok)).toList := by
  rcases h : encodedBy apdu s with _ | wpdu
  · rw [sendApdu_of_refused h]
    exact (List.append_nil _).symm
  · rw [sendApdu_of_encoded h, writeAll, check_snd]
    rfl

theorem sendApdu_tells (apdu : ProfileByteView) (s : State W)
    (hset : s.options.wrapperTcpTraceSink = true) :
    (sendApdu apdu s).2.sink = s.sink ++ eventsOf (.send apdu) s := by
  rcases h : encodedBy apdu s with _ | wpdu
  · rw [sendApdu_of_refused h, eventsOf, h]
    exact (List.append_nil _).symm
  · rw [sendApdu_of_encoded h, writeAll, check_snd, hset, eventsOf, h]
    rfl

/-- The events of one operation. -/
theorem perform_tells (op : Operation) (s : State W) (hset : s.options.wrapperTcpTraceSink = true)
    (hbuffer : s.readBufferSize ≠ 0) : (perform op s).2.sink = s.sink ++ eventsOf op s := by
  cases op with
  | «open» =>
      simp only [perform, openStream, check_snd]
      exact (List.append_nil _).symm
  | close =>
      simp only [perform, closeStream, check_snd]
      exact (List.append_nil _).symm
  | send apdu => exact sendApdu_tells apdu s hset
  | receive call => exact call_tells call s hset hbuffer

theorem performAll_sameSetup (ops : List Operation) (s : State W) :
    SameSetup s (performAll ops s).2 := by
  induction ops generalizing s with
  | nil => exact SameSetup.rfl
  | cons op ops ih =>
      have hsame := perform_snd op s ▸ exec_sameSetup op s
      simp only [performAll]
      split
      · exact hsame
      · exact hsame.trans (ih _)

/-- The events of a run, by induction on its operations. -/
theorem performAll_tells (ops : List Operation) (s : State W)
    (hset : s.options.wrapperTcpTraceSink = true) (hbuffer : s.readBufferSize ≠ 0) :
    (performAll ops s).2.sink = s.sink ++ told ops s := by
  -- On the calls. One that waits is the last, and tells what it has seen so far.
  induction ops generalizing s with
  | nil => exact (List.append_nil _).symm
  | cons op ops ih =>
      have hone := perform_tells op s hset hbuffer
      have hsame := perform_snd op s ▸ exec_sameSetup op s
      simp only [performAll, told]
      split
      · rw [hone, List.append_nil]
      · have hrest := ih (perform op s).2 (hsame.options ▸ hset)
          (hsame.readBufferSize ▸ hbuffer)
        rw [hrest, hone, List.append_assoc]

/-- A channel just constructed with the options, with a sink or without. -/
def begun (options : ApduChannelOptions) (sinkSet : Bool) (s : State W) : State W :=
  { s with toChannel := newChannel W { options with wrapperTcpTraceSink := sinkSet } }

theorem begun_silenced (options : ApduChannelOptions) (s : State W) :
    Silenced (begun options false s) (begun options true s) := ⟨true, s.sink, rfl⟩

/-- Trace sink transparency and exactness. Over any run of operations a channel
    with a sink answers as one without, and leaves the same transport calls and
    the same channel. The sink is given the events of the run and nothing else,
    each at its moment: a `SendApdu` that passed encoding writes what its event
    says, and a frame is told with its own sizes. -/
theorem trace_exact (options : ApduChannelOptions) (s : State W) (ops : List Operation) :
    (performAll ops (begun options true s)).1 = (performAll ops (begun options false s)).1 ∧
      (performAll ops (begun options true s)).2 =
        { (performAll ops (begun options false s)).2 with
          options := { options with wrapperTcpTraceSink := true }
          sink := s.sink ++ told ops (begun options true s) } ∧
      (∀ (apdu : ProfileByteView) (s1 : State W), (sendApdu apdu s1).2.calls = s1.calls ++
        ((encodedBy apdu s1).map fun wpdu => .write wpdu (s1.writes.headD .ok)).toList) ∧
      ∀ frame : WrapperFrame, (decodedEvent frame).apduSize = frame.data.length ∧
        (decodedEvent frame).encodedSize = (frame.data.length + 8) % 2 ^ 64 := by
  -- The run without a sink is the same up to what the sink holds, and that is `told`.
  rcases performAll_silenced ops _ _ (begun_silenced options s) with ⟨houts, sinkSet, sink, hstate⟩
  have hsame := performAll_sameSetup ops (begun options true s)
  have htold := performAll_tells ops (begun options true s) rfl (scratchSize_pos _).ne'
  refine ⟨houts.symm, ?_, sendApdu_calls, fun frame => ⟨rfl, ?_⟩⟩
  · have hoptions := hsame.options
    rw [hstate] at htold hoptions ⊢
    simp only at htold hoptions
    rw [htold, hoptions]
    rfl
  · rw [Nat.add_comm]
    rfl

end Tcp

end DlmsProfile
