import DlmsProfile.Library.Causality
import DlmsProfile.Hdlc.Invariant
import DlmsProfile.Wrapper.TcpTrace
import DlmsProfile.Wrapper.Udp

/-!
# No Channel Looks Ahead

A state here carries the reads that are to come, and a call runs over them until it returns
or has none left. A channel that is blocked in the transport is not run over reads that
nobody has brought yet. Both are the same if no call makes use of what it has not read.

So it is for every call of the three channels, and therefore for every run of calls. What
comes later changes nothing about calls that have returned, and it is still there to be
read. It changes nothing about what a call that waits has done so far: the bytes that were
written, the reads that were made and the frames that were judged, in this order.

## Main definitions

* `Tcp.withMore`, `Udp.withMore`, `Hdlc.withMore`: More reads are to come.
* `Udp.perform`: One call of any kind, and what it gave back.

## Theorems

* `PendingQueue.causal_await`, `PendingQueue.causal_call`: The receive calls of a queue.
* `Tcp.causal_perform`, `Udp.causal_perform`, `Hdlc.causal_exec`: The calls of a channel.
* `no_channel_looks_ahead`: What a run does before it waits does not depend on what comes.
-/

namespace DlmsProfile

/-- What is done before a status is looked at, and does not read. -/
theorem causal_check {σ τ : Type} {more : σ → σ} {log : σ → List τ} {status : σ → ProfileStatus}
    {f : σ → σ} (hstatus : ∀ s, status (more s) = status s) (hf : ∀ s, f (more s) = more (f s))
    (hgrows : ∀ s, log s <+: log (f s)) : Proc.Causal more log fun s => check (status s) (f s) := by
  refine Proc.causal_of_blind (fun s => ?_) (fun s h => ?_) fun s => ?_
  · rw [check_snd]
    exact hgrows s
  · exact check_ne_waiting (Prod.ext h rfl)
  · rw [hstatus, hf]
    exact Prod.ext (check_fst _ _ _) (by rw [check_snd, check_snd])

namespace PendingQueue

variable {σ τ : Type} {q : PendingQueue σ} {more : σ → σ} {log : σ → List τ}

/-- What is pending does not depend on what is to come, so neither does the loop. -/
theorem causal_await {size : σ → Nat} {body : Proc σ ProfileStatus Unit}
    {hsize : ∀ s s', body s = (.done (), s') → size s' < size s}
    (hq : ∀ s, q.apdus (more s) = q.apdus s) (hbody : Proc.Causal more log body) :
    Proc.Causal more log (q.await size body hsize) := by
  refine Proc.causal_of_each fun s => ?_
  by_cases hs : q.apdus s = []
  · have hturn : Proc.Causal more log (q.turn body) := by
      refine Proc.causal_bind hbody fun _ => Proc.causal_gets fun s => ?_
      rw [hq]
    exact ⟨_, Proc.causal_repeatUntil hturn, await_of_empty hs, await_of_empty ((hq s).trans hs)⟩
  · refine ⟨pure (), Proc.causal_pure (), await_of_pending hs, await_of_pending ?_⟩
    rwa [hq]

/-- The copy looks at the queue and at the buffer, not at the reads. -/
theorem copyFirst_more (hq : ∀ s, q.apdus (more s) = q.apdus s)
    (hpop : ∀ s, q.pop (more s) = more (q.pop s)) (output : ProfileMutableBuffer) (s : σ) :
    q.copyFirst output true (more s) =
      ((q.copyFirst output true s).1, more (q.copyFirst output true s).2) := by
  simp only [copyFirst, hq]
  split
  · rfl
  · simp only [if_true, hpop]

/-- Nor does it ask the transport for anything. -/
theorem log_copyFirst (hlog : ∀ s, log (q.pop s) = log s) (output : ProfileMutableBuffer) (s : σ) :
    log (q.copyFirst output true s).2 = log s := by
  simp only [copyFirst]
  split
  · rfl
  · exact hlog s

/-- Nor do the calls that take their APDUs from the queue. -/
theorem causal_call {await : Proc σ ProfileStatus Unit} {reads : σ → List ReadEvent}
    (hq : ∀ s, q.apdus (more s) = q.apdus s) (hpop : ∀ s, q.pop (more s) = more (q.pop s))
    (hlog : ∀ s, log (q.pop s) = log s) (hawait : Proc.Causal more log await)
    (call : ReceiveCall) :
    CausalStep more log Answer.isWaiting ((q.channel await reads).call call) := by
  -- By the overload. What is done behind the waiting asks the transport for nothing.
  cases call with
  | vector =>
      have hvector : Proc.Causal more log (q.receiveVector await) := by
        refine Proc.causal_bind hawait fun _ => Proc.causal_of_blind ?_ ?_ ?_
        · intro s
          rw [hlog]
        · exact fun _ h => by cases h
        · intro s
          rw [hq, hpop]
      refine hvector.step Answer.vector fun o => ?_
      cases o <;> simp only [Answer.isWaiting, reduceCtorEq]
  | into output =>
      cases hv : isValidMutableBuffer output with
      | false =>
          have hcall : ∀ s, (q.channel await reads).call (.into output) s =
              (.into (.fail .invalidArgument) output, s) := call_of_invalid hv
          refine ⟨fun s => ?_, fun s _ => ?_, fun s hs => ?_⟩
          · rw [hcall]
          · rw [hcall, hcall]
          · rw [hcall] at hs
            cases hs
      | true =>
          have hsnd : ∀ s, log (q.receiveBuffer await output s).2 = log (await s).2 := by
            intro s
            rcases hw : await s with ⟨⟨⟩ | status | _, s1⟩
            · rw [receiveBuffer_of_done hv hw, log_copyFirst hlog]
            · rw [receiveBuffer_of_fail hv hw]
            · rw [receiveBuffer_of_waiting hv hw]
          refine ⟨fun s => ?_, fun s hs => ?_, fun s hs => ?_⟩
          · exact (hawait.grows s).trans (hsnd s ▸ List.prefix_rfl)
          · simp only [ApduChannel.call, channel] at hs ⊢
            have hreturned := hawait.returned s
            rcases hw : await s with ⟨⟨⟩ | status | _, s1⟩ <;> rw [hw] at hreturned
            · have hmore := hreturned fun h => by cases h
              rw [receiveBuffer_of_done hv hw, receiveBuffer_of_done hv hmore,
                copyFirst_more hq hpop]
            · have hmore := hreturned fun h => by cases h
              rw [receiveBuffer_of_fail hv hw, receiveBuffer_of_fail hv hmore]
            · rw [receiveBuffer_of_waiting hv hw] at hs
              cases hs
          · simp only [ApduChannel.call, channel] at hs ⊢
            -- A call that waits does so in the waiting, for the copy does not.
            have hwaited : (await s).1 = .waiting := by
              rcases hw : await s with ⟨⟨⟩ | status | _, s1⟩
              · rw [receiveBuffer_of_done hv hw] at hs
                simp only [copyFirst] at hs
                split at hs <;> cases hs
              · rw [receiveBuffer_of_fail hv hw] at hs
                cases hs
              · rfl
            rw [hsnd, hsnd]
            exact hawait.waited s hwaited

end PendingQueue

namespace Hdlc

theorem status_isWaiting (o : Outcome ProfileStatus Unit) :
    (Result.status o).isWaiting = true ↔ o = .waiting := by
  cases o <;> simp only [Result.isWaiting, Bool.false_eq_true, reduceCtorEq]

theorem flag_isWaiting (o : Outcome ProfileStatus Bool) :
    (Result.flag o).isWaiting = true ↔ o = .waiting := by
  cases o <;> simp only [Result.isWaiting, Bool.false_eq_true, reduceCtorEq]

end Hdlc

namespace Tcp

theorem status_isWaiting (o : Outcome ProfileStatus Unit) :
    (Reply.status o).isWaiting = true ↔ o = .waiting := by
  cases o <;> simp only [Reply.isWaiting, Bool.false_eq_true, reduceCtorEq]

variable {W : WrapperLib}

/-- More reads are to come. -/
def withMore (later : List ReadEvent) (s : State W) : State W :=
  { s with reads := s.reads ++ later }

/-- The loop only ever adds calls of the transport. -/
theorem receiveNextFrameLoop_grows (reads : List ReadEvent) (s : State W) :
    s.calls <+: (receiveNextFrameLoop reads s).2.calls := by
  -- On the reads, each of which is one call more.
  induction reads generalizing s with
  | nil => exact List.prefix_rfl
  | cons e rest ih =>
      have hread : s.calls <+: (afterRead e rest s).calls := List.prefix_append _ _
      by_cases hok : e.status = .ok
      swap
      · rw [loop_readFailed hok]
        exact hread
      by_cases he : e.bytes = []
      · rw [loop_readEmpty hok he]
        exact hread
      by_cases hp : mapWrapperStatus (W.push s.decoder e.bytes).1 = .ok
      · rw [loop_completed hok he hp]
        exact hread
      by_cases hm : mapWrapperStatus (W.push s.decoder e.bytes).1 = .needMoreData
      · rw [loop_continued hok he hm]
        exact hread.trans (ih { afterRead e rest s with decoder := (W.push s.decoder e.bytes).2.2 })
      · rw [loop_rejected hok he hp hm]
        exact hread

/-- A loop that ends leaves what comes after the read that ended it, and one that waits has
    made reads that it makes again when there are more. -/
theorem receiveNextFrameLoop_more (later reads : List ReadEvent) (s : State W)
    (hreads : s.reads = reads) :
    ((receiveNextFrameLoop reads s).1 ≠ .waiting →
      receiveNextFrameLoop (reads ++ later) (withMore later s) =
        ((receiveNextFrameLoop reads s).1, withMore later (receiveNextFrameLoop reads s).2)) ∧
    ((receiveNextFrameLoop reads s).1 = .waiting →
      (receiveNextFrameLoop reads s).2.calls <+:
        (receiveNextFrameLoop (reads ++ later) (withMore later s)).2.calls) := by
  -- On the reads. The loop ends before it comes to those added, or it has waited.
  induction reads generalizing s with
  | nil =>
      refine ⟨fun h => absurd rfl h, fun _ => ?_⟩
      exact receiveNextFrameLoop_grows later (withMore later s)
  | cons e rest ih =>
      rw [List.cons_append]
      by_cases hok : e.status = .ok
      swap
      · rw [loop_readFailed hok, loop_readFailed hok]
        exact ⟨fun _ => rfl, fun h => by cases h⟩
      by_cases he : e.bytes = []
      · rw [loop_readEmpty hok he, loop_readEmpty hok he]
        exact ⟨fun _ => rfl, fun h => by cases h⟩
      by_cases hp : mapWrapperStatus (W.push s.decoder e.bytes).1 = .ok
      · rw [loop_completed hok he hp, loop_completed (s := withMore later s) hok he hp]
        exact ⟨fun _ => rfl, fun h => by cases h⟩
      by_cases hm : mapWrapperStatus (W.push s.decoder e.bytes).1 = .needMoreData
      · rw [loop_continued hok he hm, loop_continued (s := withMore later s) hok he hm]
        exact ih { afterRead e rest s with decoder := (W.push s.decoder e.bytes).2.2 } rfl
      · rw [loop_rejected hok he hp hm, loop_rejected (s := withMore later s) hok he hp hm]
        exact ⟨fun _ => rfl, fun h => by cases h⟩

/-- Without a buffer nothing is read, and with one the loop runs over the reads. -/
theorem causal_receiveNextFrame (later : List ReadEvent) :
    Proc.Causal (withMore later) (·.calls) (receiveNextFrame (W := W)) := by
  refine Proc.causal_of_each fun s => ?_
  by_cases hb : s.readBufferSize = 0
  · have hfail : ∀ {s : State W}, s.readBufferSize = 0 →
        receiveNextFrame s = Proc.fail .invalidArgument s := fun hb => by
      rw [receiveNextFrame, if_pos hb]
      rfl
    exact ⟨_, Proc.causal_fail .invalidArgument, hfail hb, hfail (s := withMore later s) hb⟩
  · refine ⟨fun s => receiveNextFrameLoop s.reads s, ⟨?_, ?_, ?_⟩, if_neg hb, if_neg hb⟩
    · exact fun s => receiveNextFrameLoop_grows s.reads s
    · exact fun s h => (receiveNextFrameLoop_more later s.reads s rfl).1 h
    · exact fun s h => (receiveNextFrameLoop_more later s.reads s rfl).2 h

/-- A call of the TCP channel does not look ahead. -/
theorem causal_call (later : List ReadEvent) (call : ReceiveCall) :
    CausalStep (withMore later) (·.calls) Answer.isWaiting ((channel W).call call) := by
  have hsame : ∀ s : State W, pending.apdus (withMore later s) = pending.apdus s := fun _ => rfl
  have hpop : ∀ s : State W, pending.pop (withMore later s) = withMore later (pending.pop s) :=
    fun _ => rfl
  have hawait : Proc.Causal (withMore later) (·.calls) (awaitFrame (W := W)) :=
    PendingQueue.causal_await hsame (causal_receiveNextFrame later)
  exact PendingQueue.causal_call hsame hpop (fun _ => rfl) hawait call

/-- What is sent, and whether it is, comes of the options and the APDU. -/
theorem causal_sendApdu (later : List ReadEvent) (apdu : ProfileByteView) :
    Proc.Causal (withMore later) (·.calls) (sendApdu (W := W) apdu) := by
  refine Proc.causal_of_each fun s => ?_
  let frame : WrapperFrame :=
    { sourcePort := s.options.localWrapperPort
      destinationPort := s.options.remoteWrapperPort
      data := apdu.data }
  let encoded := W.encodeWpdu frame s.wrapperLimits
  -- Which of the branches is taken does not depend on the reads.
  by_cases hview : isValidByteView apdu = false
  · exact ⟨Proc.fail .invalidArgument, Proc.causal_fail _, if_pos hview, if_pos hview⟩
  by_cases hlarge : s.options.maximumApduSize ≠ 0 ∧ s.options.maximumApduSize < apdu.size
  · exact ⟨Proc.fail .payloadTooLarge, Proc.causal_fail _,
      (if_neg hview).trans (if_pos hlarge), (if_neg hview).trans (if_pos hlarge)⟩
  by_cases hencoded : mapWrapperStatus encoded.1 ≠ .ok
  · exact ⟨Proc.fail (mapWrapperStatus encoded.1), Proc.causal_fail _,
      (if_neg hview).trans ((if_neg hlarge).trans (if_pos hencoded)),
      (if_neg hview).trans ((if_neg hlarge).trans (if_pos hencoded))⟩
  -- The event of the frame is offered to the sink, and then the frame is written.
  let event :=
    { makeTraceEvent .encodedFrame .outbound .ok with
      sourcePort := frame.sourcePort
      destinationPort := frame.destinationPort
      encodedSize := encoded.2.length
      apduSize := apdu.size
      bytes := encoded.2
      byteSize := encoded.2.length }
  have hwrites : Proc.Causal (withMore later) (·.calls) fun s : State W =>
      check (mapTransportStatus (s.writes.headD .ok)) { s with
        writes := s.writes.tail
        calls := s.calls ++ [.write encoded.2 (s.writes.headD .ok)]
        sink := emitTrace s.options.wrapperTcpTraceSink event s.calls.length s.sink } :=
    causal_check (fun _ => rfl) (fun _ => rfl) fun _ => List.prefix_append _ _
  exact ⟨_, hwrites, (if_neg hview).trans ((if_neg hlarge).trans (if_neg hencoded)),
    (if_neg hview).trans ((if_neg hlarge).trans (if_neg hencoded))⟩

/-- By the calls, each of which is a check, a send or a receive. -/
theorem causal_perform (later : List ReadEvent) (op : Operation) :
    CausalStep (withMore later) (·.calls) Tcp.Reply.isWaiting (perform (W := W) op) := by
  cases op with
  | «open» =>
      have hopen : Proc.Causal (withMore later) (·.calls) (openStream (W := W)) :=
        causal_check (fun _ => rfl) (fun _ => rfl) fun _ => List.prefix_append _ _
      exact hopen.step _ Tcp.status_isWaiting
  | close =>
      have hclose : Proc.Causal (withMore later) (·.calls) (closeStream (W := W)) :=
        causal_check (fun _ => rfl) (fun _ => rfl) fun _ => List.prefix_append _ _
      exact hclose.step _ Tcp.status_isWaiting
  | send apdu => exact (causal_sendApdu later apdu).step _ Tcp.status_isWaiting
  | receive call => exact (causal_call later call).answered fun _ => rfl

/-- The run of the module is the general one over its step. -/
theorem performAll_eq (ops : List Operation) (s : State W) :
    performAll ops s = runs perform Reply.isWaiting ops s := by
  induction ops generalizing s with
  | nil => rfl
  | cons op ops ih => rw [performAll, runs, ih]

end Tcp

namespace Udp

variable {W : WrapperLib}

/-- More datagrams are to come. -/
def withMore (later : List ReadEvent) (s : State) : State := { s with reads := s.reads ++ later }

/-- What one datagram comes to. -/
def frameOf (W : WrapperLib) (limits : WrapperCodecLimits) (e : ReadEvent) :
    Outcome ProfileStatus WrapperFrame :=
  let decoded := W.decodeWpdu e.bytes limits
  if mapTransportStatus e.status ≠ .ok then .fail (mapTransportStatus e.status)
  else if e.bytes = [] then .fail .needMoreData
  else if mapWrapperStatus decoded.1 = .ok then .done decoded.2
  else if mapWrapperStatus decoded.1 = .needMoreData then .fail .invalidLength
  else .fail (mapWrapperStatus decoded.1)

/-- A datagram always comes to something. -/
theorem frameOf_ne_waiting (limits : WrapperCodecLimits) (e : ReadEvent) :
    frameOf W limits e ≠ .waiting := by
  simp only [frameOf]
  split
  · exact fun h => by cases h
  split
  · exact fun h => by cases h
  split
  · exact fun h => by cases h
  split <;> exact fun h => by cases h

/-- One datagram is taken, whatever comes of it. -/
theorem receiveFrame_of_read {s : State} {e : ReadEvent} {rest : List ReadEvent}
    (hb : s.readBufferSize ≠ 0) (hreads : s.reads = e :: rest) :
    receiveFrame W s = (frameOf W s.wrapperLimits e,
      { s with reads := rest, calls := s.calls ++ [.read e] }) := by
  rw [receiveFrame, if_neg hb, hreads]
  simp only [frameOf]
  split
  · rfl
  split
  · rfl
  split
  · rfl
  split <;> rfl

theorem receiveFrame_of_noBuffer {s : State} (hb : s.readBufferSize = 0) :
    receiveFrame W s = (.fail .invalidArgument, s) := if_pos hb

theorem receiveFrame_of_empty {s : State} (hb : s.readBufferSize ≠ 0) (hreads : s.reads = []) :
    receiveFrame W s = (.waiting, s) := by
  rw [receiveFrame, if_neg hb, hreads]

/-- A call adds at most the one read. -/
theorem receiveFrame_grows (s : State) : s.calls <+: (receiveFrame W s).2.calls := by
  by_cases hb : s.readBufferSize = 0
  · rw [receiveFrame_of_noBuffer hb]
  · cases hreads : s.reads with
    | nil => rw [receiveFrame_of_empty hb hreads]
    | cons e rest =>
        rw [receiveFrame_of_read hb hreads]
        exact List.prefix_append _ _

/-- The first datagram is the first with more to come as well. -/
theorem causal_receiveFrame (later : List ReadEvent) :
    Proc.Causal (withMore later) (·.calls) (receiveFrame W) := by
  refine ⟨receiveFrame_grows, fun s h => ?_, fun s h => ?_⟩ <;>
    -- Without a buffer nothing is read, and with one the first datagram only.
    by_cases hb : s.readBufferSize = 0
  · have hmore : (withMore later s).readBufferSize = 0 := hb
    rw [receiveFrame_of_noBuffer hb, receiveFrame_of_noBuffer hmore]
  · cases hreads : s.reads with
    | nil => exact absurd (congrArg Prod.fst (receiveFrame_of_empty hb hreads)) h
    | cons e rest =>
        have hb' : (withMore later s).readBufferSize ≠ 0 := hb
        have hmore : (withMore later s).reads = e :: (rest ++ later) :=
          congrArg (· ++ later) hreads
        rw [receiveFrame_of_read hb hreads, receiveFrame_of_read hb' hmore]
        rfl
  · rw [receiveFrame_of_noBuffer hb] at h
    cases h
  · cases hreads : s.reads with
    | nil =>
        rw [receiveFrame_of_empty hb hreads]
        exact receiveFrame_grows (withMore later s)
    | cons e rest =>
        rw [receiveFrame_of_read hb hreads] at h
        exact absurd h (frameOf_ne_waiting _ _)

/-- What the buffer overload answers to what came of a datagram. -/
def answerInto (output : ProfileMutableBuffer) : Outcome ProfileStatus WrapperFrame → Answer
  | .done frame =>
    .into (copyFrameData frame (output.setWritten 0)).1
      (copyFrameData frame (output.setWritten 0)).2
  | .fail status => .into (.fail status) (output.setWritten 0)
  | .waiting => .into .waiting (output.setWritten 0)

/-- The overload waits exactly if the datagram is waited for. -/
theorem answerInto_isWaiting (output : ProfileMutableBuffer)
    (o : Outcome ProfileStatus WrapperFrame) :
    (answerInto output o).isWaiting = true ↔ o = .waiting := by
  cases o with
  | done frame =>
      simp only [answerInto, copyFrameData]
      split <;> simp only [Answer.isWaiting, Bool.false_eq_true, reduceCtorEq]
  | fail status => simp only [answerInto, Answer.isWaiting, Bool.false_eq_true, reduceCtorEq]
  | waiting => simp only [answerInto, Answer.isWaiting]

/-- A call of the UDP channel does not look ahead. -/
theorem causal_call (later : List ReadEvent) (call : ReceiveCall) :
    CausalStep (withMore later) (·.calls) Answer.isWaiting ((channel W).call call) := by
  have hframe := causal_receiveFrame (W := W) later
  cases call with
  | vector =>
      have hvector : Proc.Causal (withMore later) (·.calls) (receiveApdu W) :=
        Proc.causal_bind hframe fun frame => Proc.causal_pure frame.data
      refine hvector.step Answer.vector fun o => ?_
      cases o <;> simp only [Answer.isWaiting, reduceCtorEq]
  | into output =>
      cases hv : isValidMutableBuffer output with
      | false =>
          have hcall : ∀ s, (channel W).call (.into output) s =
              (.into (.fail .invalidArgument) output, s) := fun s => by
            simp only [ApduChannel.call, receiveApduInto, hv, if_true]
          refine ⟨fun s => ?_, fun s _ => ?_, fun s hs => ?_⟩
          · rw [hcall]
          · rw [hcall, hcall]
          · rw [hcall] at hs
            cases hs
      | true =>
          have hcall : (channel W).call (.into output) = fun s =>
              (answerInto output (receiveFrame W s).1, (receiveFrame W s).2) := by
            funext s
            simp only [ApduChannel.call, receiveApduInto, hv, Bool.true_eq_false, if_false]
            rcases receiveFrame W s with ⟨frame | status | _, s1⟩ <;> rfl
          rw [hcall]
          exact hframe.step _ (answerInto_isWaiting output)

/-- A send is one datagram, or none if it is refused. -/
theorem causal_sendApdu (later : List ReadEvent) (apdu : ProfileByteView) :
    Proc.Causal (withMore later) (·.calls) (sendApdu W apdu) := by
  refine Proc.causal_of_each fun s => ?_
  let encoded := W.encodeWpdu
    { sourcePort := s.options.localWrapperPort
      destinationPort := s.options.remoteWrapperPort
      data := apdu.data } s.wrapperLimits
  by_cases hview : isValidByteView apdu = false
  · exact ⟨Proc.fail .invalidArgument, Proc.causal_fail _, if_pos hview, if_pos hview⟩
  by_cases hlarge : s.options.maximumApduSize ≠ 0 ∧ s.options.maximumApduSize < apdu.size
  · exact ⟨Proc.fail .payloadTooLarge, Proc.causal_fail _,
      (if_neg hview).trans (if_pos hlarge), (if_neg hview).trans (if_pos hlarge)⟩
  by_cases hencoded : mapWrapperStatus encoded.1 ≠ .ok
  · exact ⟨Proc.fail (mapWrapperStatus encoded.1), Proc.causal_fail _,
      (if_neg hview).trans ((if_neg hlarge).trans (if_pos hencoded)),
      (if_neg hview).trans ((if_neg hlarge).trans (if_pos hencoded))⟩
  have hsends : Proc.Causal (withMore later) (·.calls) (sendDatagram encoded.2) :=
    causal_check (fun _ => rfl) (fun _ => rfl) fun _ => List.prefix_append _ _
  exact ⟨_, hsends, (if_neg hview).trans ((if_neg hlarge).trans (if_neg hencoded)),
    (if_neg hview).trans ((if_neg hlarge).trans (if_neg hencoded))⟩

/-- One call of any kind, and what it gave back. -/
def perform (W : WrapperLib) (op : Operation) (s : State) : Tcp.Reply × State :=
  match op with
  | .open => (.status (openDatagram s).1, (openDatagram s).2)
  | .close => (.status (closeDatagram s).1, (closeDatagram s).2)
  | .send apdu => (.status (sendApdu W apdu s).1, (sendApdu W apdu s).2)
  | .receive call => (.received ((channel W).call call s).1, ((channel W).call call s).2)

/-- `Udp.exec` is what this leaves of the state. -/
theorem perform_snd (op : Operation) (s : State) : (perform W op s).2 = exec W op s := by
  cases op <;> rfl

/-- The four kinds of calls, as for TCP. -/
theorem causal_perform (later : List ReadEvent) (op : Operation) :
    CausalStep (withMore later) (·.calls) Tcp.Reply.isWaiting (perform W op) := by
  cases op with
  | «open» =>
      have hopen : Proc.Causal (withMore later) (·.calls) openDatagram :=
        causal_check (fun _ => rfl) (fun _ => rfl) fun _ => List.prefix_append _ _
      exact hopen.step _ Tcp.status_isWaiting
  | close =>
      have hclose : Proc.Causal (withMore later) (·.calls) closeDatagram :=
        causal_check (fun _ => rfl) (fun _ => rfl) fun _ => List.prefix_append _ _
      exact hclose.step _ Tcp.status_isWaiting
  | send apdu => exact (causal_sendApdu later apdu).step _ Tcp.status_isWaiting
  | receive call => exact (causal_call later call).answered fun _ => rfl

end Udp

namespace Hdlc

variable {L : HdlcLib}

/-- More reads are to come. -/
def withMore (later : List ReadEvent) (s : State L) : State L :=
  { s with reads := s.reads ++ later }

variable {later : List ReadEvent}

/-- A procedure that does not look ahead. -/
abbrev Causal (later : List ReadEvent) {α : Type} (x : Call L α) : Prop :=
  Proc.Causal (withMore later) (·.trace) x

/-- What is changed in the state without a record of it. -/
theorem causal_modify {f : State L → State L}
    (hf : ∀ s, f (withMore later s) = withMore later (f s)) (htrace : ∀ s, (f s).trace = s.trace) :
    Causal later (Proc.modify f) := by
  refine Proc.causal_of_blind (fun s => ?_) (fun _ h => by cases h) fun s => ?_
  · rw [Proc.modify_apply, htrace]
  · rw [Proc.modify_apply, Proc.modify_apply, hf]

/-- The loop only ever adds to the trace. -/
theorem receiveDecodedFrameLoop_grows (reads : List ReadEvent) (s : State L) :
    s.trace <+: (receiveDecodedFrameLoop reads s).2.trace := by
  -- On the reads, as for TCP.
  induction reads generalizing s with
  | nil => exact List.prefix_rfl
  | cons e rest ih =>
      have hread : s.trace <+: (afterRead e rest s).trace := List.prefix_append _ _
      by_cases hok : e.status = .ok
      swap
      · rw [loop_readFailed hok]
        exact hread
      by_cases he : e.bytes = []
      · rw [loop_readEmpty hok he]
        exact hread
      by_cases hp : mapHdlcStatus (L.push s.decoder e.bytes).1 = .ok
      · cases hframes : (L.push s.decoder e.bytes).2.1 with
        | nil =>
            rw [loop_noFrame hok he hp hframes]
            exact hread
        | cons frame frames =>
            rw [loop_completed hok he hp hframes]
            exact hread
      by_cases hm : mapHdlcStatus (L.push s.decoder e.bytes).1 = .needMoreData
      · rw [loop_continued hok he hm]
        exact hread.trans (ih { afterRead e rest s with decoder := (L.push s.decoder e.bytes).2.2 })
      · rw [loop_rejected hok he hp hm]
        exact hread

/-- A loop that ends leaves what comes after the read that ended it, and one that waits has
    made reads that it makes again when there are more. -/
theorem receiveDecodedFrameLoop_more (later reads : List ReadEvent) (s : State L)
    (hreads : s.reads = reads) :
    ((receiveDecodedFrameLoop reads s).1 ≠ .waiting →
      receiveDecodedFrameLoop (reads ++ later) (withMore later s) =
        ((receiveDecodedFrameLoop reads s).1,
          withMore later (receiveDecodedFrameLoop reads s).2)) ∧
    ((receiveDecodedFrameLoop reads s).1 = .waiting →
      (receiveDecodedFrameLoop reads s).2.trace <+:
        (receiveDecodedFrameLoop (reads ++ later) (withMore later s)).2.trace) := by
  -- On the reads, as for TCP.
  induction reads generalizing s with
  | nil =>
      refine ⟨fun h => absurd rfl h, fun _ => ?_⟩
      exact receiveDecodedFrameLoop_grows later (withMore later s)
  | cons e rest ih =>
      rw [List.cons_append]
      by_cases hok : e.status = .ok
      swap
      · rw [loop_readFailed hok, loop_readFailed hok]
        exact ⟨fun _ => rfl, fun h => by cases h⟩
      by_cases he : e.bytes = []
      · rw [loop_readEmpty hok he, loop_readEmpty hok he]
        exact ⟨fun _ => rfl, fun h => by cases h⟩
      by_cases hp : mapHdlcStatus (L.push s.decoder e.bytes).1 = .ok
      · cases hframes : (L.push s.decoder e.bytes).2.1 with
        | nil =>
            rw [loop_noFrame hok he hp hframes,
              loop_noFrame (s := withMore later s) hok he hp hframes]
            exact ⟨fun _ => rfl, fun h => by cases h⟩
        | cons frame frames =>
            rw [loop_completed hok he hp hframes,
              loop_completed (s := withMore later s) hok he hp hframes]
            exact ⟨fun _ => rfl, fun h => by cases h⟩
      by_cases hm : mapHdlcStatus (L.push s.decoder e.bytes).1 = .needMoreData
      · rw [loop_continued hok he hm, loop_continued (s := withMore later s) hok he hm]
        exact ih { afterRead e rest s with decoder := (L.push s.decoder e.bytes).2.2 } rfl
      · rw [loop_rejected hok he hp hm, loop_rejected (s := withMore later s) hok he hp hm]
        exact ⟨fun _ => rfl, fun h => by cases h⟩

/-- A frame comes from the queue, or the loop runs over the reads. -/
theorem causal_receiveDecodedFrame : Causal later (receiveDecodedFrame (L := L)) := by
  refine Proc.causal_of_each fun s => ?_
  rcases hp : s.pendingHdlcFrames with _ | ⟨frame, frames⟩
  · have hp' : (withMore later s).pendingHdlcFrames = [] := hp
    by_cases hb : s.readBufferSize = 0
    · have hb' : (withMore later s).readBufferSize = 0 := hb
      exact ⟨Proc.fail .invalidArgument, Proc.causal_fail _, receiveDecodedFrame_of_noBuffer hp hb,
        receiveDecodedFrame_of_noBuffer hp' hb'⟩
    · have hb' : (withMore later s).readBufferSize ≠ 0 := hb
      refine ⟨fun s => receiveDecodedFrameLoop s.reads s, ⟨?_, ?_, ?_⟩,
        receiveDecodedFrame_of_empty hp hb, receiveDecodedFrame_of_empty hp' hb'⟩
      · exact fun s => receiveDecodedFrameLoop_grows s.reads s
      · exact fun s h => (receiveDecodedFrameLoop_more later s.reads s rfl).1 h
      · exact fun s h => (receiveDecodedFrameLoop_more later s.reads s rfl).2 h
  · -- A frame that is queued is taken, and nothing is read.
    have hp' : (withMore later s).pendingHdlcFrames = frame :: frames := hp
    have htakes : Causal later
        (Proc.modify (fun s : State L => { s with pendingHdlcFrames := frames })
        >>= fun _ => (pure frame : Call L L.Frame)) :=
      Proc.causal_bind (causal_modify (fun _ => rfl) fun _ => rfl) fun _ => Proc.causal_pure frame
    exact ⟨_, htakes, receiveDecodedFrame_of_pending hp, receiveDecodedFrame_of_pending hp'⟩

theorem causal_sessionReceive (frame : L.Frame) : Causal later (sessionReceive frame) :=
  causal_check (fun _ => rfl) (fun _ => rfl) fun _ => List.prefix_append _ _

/-- A frame is taken and shown to the session, which does not read. -/
theorem causal_control : Causal later (receiveSessionControlFrame (L := L)) :=
  Proc.causal_bind causal_receiveDecodedFrame causal_sessionReceive

/-- A write is answered by its own script. -/
theorem causal_writeFrameBytes (bytes : List UInt8) :
    Causal later (writeFrameBytes (L := L) bytes) :=
  causal_check (fun _ => rfl) (fun _ => rfl) fun _ => List.prefix_append _ _

/-- So is a sleep, if there is a delay at all. -/
theorem causal_sleepBeforeRetry : Causal later (sleepBeforeRetry (L := L)) := by
  refine Proc.causal_of_each fun s => ?_
  -- Whether there is a delay is a matter of the options.
  by_cases hdelay : s.options.hdlcRetryDelayMilliseconds = 0
  · have hnone : ∀ {s : State L}, s.options.hdlcRetryDelayMilliseconds = 0 →
        sleepBeforeRetry s = (.done (), s) := fun h => if_pos h
    exact ⟨_, Proc.causal_pure (), hnone hdelay, hnone (s := withMore later s) hdelay⟩
  · refine ⟨fun s => check (mapTransportStatus (s.sleeps.headD .ok))
      { s with
        sleeps := s.sleeps.tail
        trace := s.trace ++
          [.sleepFor s.options.hdlcRetryDelayMilliseconds (s.sleeps.headD .ok)] },
      causal_check (fun _ => rfl) (fun _ => rfl) fun _ => List.prefix_append _ _,
      if_neg hdelay, ?_⟩
    exact if_neg (c := (withMore later s).options.hdlcRetryDelayMilliseconds = 0) hdelay

/-- A wait is gone on with, and so are the retries behind it. -/
theorem causal_retryLoop (bytes : List UInt8) (left : Nat) :
    Causal later (retryLoop (L := L) bytes left) := by
  -- On the retries left. What follows an attempt depends on its status only.
  induction left with
  | zero => exact causal_control
  | succ left ih =>
      refine Proc.causal_then causal_control (fun o ho => ?_) retryLoop_of_waiting
      cases o with
      | done a => exact ⟨pure (), Proc.causal_pure (), fun _ _ => retryLoop_of_done⟩
      | fail status =>
          cases hagain : isRetriableReceiveStatus status with
          | false =>
              exact ⟨Proc.fail status, Proc.causal_fail status,
                fun _ _ h => retryLoop_of_fail h (Or.inl hagain)⟩
          | true =>
              refine ⟨_, ?_, fun _ _ h => retryLoop_of_retry h hagain⟩
              exact Proc.causal_bind causal_sleepBeforeRetry fun _ =>
                Proc.causal_bind (causal_writeFrameBytes bytes) fun _ => ih
      | waiting => exact absurd rfl ho

/-- The number of retries is an option. -/
theorem causal_controlWithRetry (bytes : List UInt8) :
    Causal later (receiveSessionControlFrameWithRetry (L := L) bytes) :=
  Proc.causal_of_each fun s =>
    ⟨retryLoop bytes s.options.hdlcRetryCount.toNat, causal_retryLoop bytes _, rfl, rfl⟩

/-- What is required is a matter of the options. -/
theorem causal_require {condition : State L → Bool} (status : ProfileStatus)
    (h : ∀ s, condition (withMore later s) = condition s) :
    Causal later (require condition status) := by
  refine Proc.causal_of_each fun s => ?_
  by_cases hs : condition s = true
  · exact ⟨pure (), Proc.causal_pure (), if_pos hs, if_pos ((h s).trans hs)⟩
  · exact ⟨Proc.fail status, Proc.causal_fail status, if_neg hs, if_neg (h s ▸ hs)⟩

theorem causal_isOpen : Causal later (isOpen (L := L)) :=
  Proc.causal_of_blind (fun _ => List.prefix_append _ _) (fun _ h => by cases h) fun _ => rfl

theorem causal_requireOpen : Causal later (requireOpen (L := L)) := by
  refine Proc.causal_bind causal_isOpen fun opened => ?_
  cases opened with
  | true => exact Proc.causal_pure ()
  | false => exact Proc.causal_fail ProfileStatus.notOpen

theorem causal_checked {α : Type} (result : HdlcStatus × α) :
    Causal later (checked (L := L) result) := by
  by_cases h : mapHdlcStatus result.1 = .ok
  · exact Proc.causal_of_each fun s =>
      ⟨pure result.2, Proc.causal_pure _, if_pos h, if_pos h⟩
  · exact Proc.causal_of_each fun s =>
      ⟨Proc.fail _, Proc.causal_fail _, if_neg h, if_neg h⟩

/-- The session builds from what it holds itself. -/
theorem causal_sessionBuild (build : L.Session → HdlcStatus × List UInt8 × L.Session) :
    Causal later (sessionBuild build) := by
  refine Proc.causal_of_each fun s => ?_
  -- What is built is built of the session alone.
  let built := build s.session
  refine ⟨Proc.modify (fun s => { s with session := built.2.2 }) >>= fun _ =>
    checked (built.1, built.2.1), ?_, rfl, rfl⟩
  exact Proc.causal_bind (causal_modify (fun _ => rfl) fun _ => rfl) fun _ => causal_checked _

/-- A session is made anew, or kept, on its own state. -/
theorem causal_ensureSession : Causal later (ensureSession (L := L)) := by
  refine Proc.causal_of_each fun s => ?_
  let made := makeHdlcSessionOptions L s.options
  -- The session decides, and it is the same with more to read.
  by_cases hmade : made.1 ≠ .ok
  · exact ⟨Proc.fail made.1, Proc.causal_fail _, if_pos hmade, if_pos hmade⟩
  by_cases hdisc : L.sessionState s.session = .disconnected
  · refine ⟨Proc.modify fun s => { s with
      session := L.newSession made.2
      hdlcLimits := made.2.limits
      decoder := L.newDecoder made.2.limits
      reassembler := L.newReassembler made.2.limits
      pendingHdlcFrames := [] }, causal_modify (fun _ => rfl) (fun _ => rfl), ?_, ?_⟩
    · exact (if_neg hmade).trans (if_pos hdisc)
    · exact (if_neg hmade).trans (if_pos hdisc)
  · exact ⟨pure (), Proc.causal_pure (), (if_neg hmade).trans (if_neg hdisc),
      (if_neg hmade).trans (if_neg hdisc)⟩

/-- The link calls are chains of such steps. -/
theorem causal_connectDataLink : Causal later (connectDataLink (L := L)) := by
  refine Proc.causal_bind (causal_require _ fun _ => rfl) fun _ => ?_
  refine Proc.causal_bind causal_requireOpen fun _ => ?_
  refine Proc.causal_bind (causal_require _ fun _ => rfl) fun _ => ?_
  refine Proc.causal_bind causal_ensureSession fun _ => ?_
  refine Proc.causal_bind (causal_sessionBuild _) fun bytes => ?_
  exact Proc.causal_bind (causal_writeFrameBytes bytes) fun _ => causal_controlWithRetry bytes

theorem causal_acceptDataLink : Causal later (acceptDataLink (L := L)) := by
  refine Proc.causal_bind (causal_require _ fun _ => rfl) fun _ => ?_
  refine Proc.causal_bind causal_requireOpen fun _ => ?_
  refine Proc.causal_bind (causal_require _ fun _ => rfl) fun _ => ?_
  refine Proc.causal_bind causal_ensureSession fun _ => ?_
  refine Proc.causal_bind causal_control fun _ => ?_
  exact Proc.causal_bind (causal_sessionBuild _) causal_writeFrameBytes

theorem causal_disconnectDataLink : Causal later (disconnectDataLink (L := L)) := by
  refine Proc.causal_bind (causal_require _ fun _ => rfl) fun _ => ?_
  refine Proc.causal_bind causal_requireOpen fun _ => ?_
  refine Proc.causal_bind (causal_sessionBuild _) fun bytes => ?_
  exact Proc.causal_bind (causal_writeFrameBytes bytes) fun _ => causal_controlWithRetry bytes

theorem causal_buildSessionInformationFrame (information : List UInt8)
    (segmented pollFinal : Bool) :
    Causal later (buildSessionInformationFrame (L := L) information segmented pollFinal) := by
  refine Proc.causal_bind (causal_sessionBuild _) fun bytes => ?_
  cases segmented with
  | false => exact Proc.causal_pure bytes
  | true =>
      refine Proc.causal_bind (Proc.causal_gets fun _ => rfl) fun limits => ?_
      exact Proc.causal_bind (causal_checked _) fun _ => causal_checked _

theorem causal_buildFrame (lpdu : List UInt8) : Causal later (buildFrame (L := L) lpdu) := by
  refine Proc.causal_bind (Proc.causal_gets fun _ => rfl) fun options => ?_
  refine Proc.causal_bind (Proc.causal_gets fun _ => rfl) fun limits => ?_
  refine Proc.causal_bind (causal_checked _) fun client => ?_
  refine Proc.causal_bind (causal_checked _) fun server => ?_
  exact Proc.causal_bind (causal_checked _) fun control => causal_checked _

/-- A full window waits for one frame, an open one for none. -/
theorem causal_awaitWindow : Causal later (awaitWindow (L := L)) := by
  refine Proc.causal_of_each fun s => ?_
  by_cases hopen : L.canSendInformationFrame s.session
  · exact ⟨pure (), Proc.causal_pure (), if_pos hopen, if_pos hopen⟩
  · exact ⟨_, causal_control, if_neg hopen, if_neg hopen⟩

/-- A chunk is built, recorded, written and waited for. -/
theorem causal_sendChunk (chunk : List UInt8) (finalFrame : Bool) :
    Causal later (sendChunk (L := L) chunk finalFrame) := by
  refine Proc.causal_bind causal_awaitWindow fun _ => ?_
  refine Proc.causal_bind (Proc.causal_gets fun _ => rfl) fun before => ?_
  refine Proc.causal_bind (causal_buildSessionInformationFrame _ _ _) fun bytes => ?_
  refine Proc.causal_bind ?_ fun _ => ?_
  · exact Proc.causal_of_blind (fun _ => List.prefix_append _ _) (fun _ h => by cases h)
      fun _ => rfl
  · exact Proc.causal_bind (causal_writeFrameBytes bytes) fun _ => causal_controlWithRetry bytes

/-- By the chunks that are left. -/
theorem causal_sendChunks (size left : Nat) (remaining : List UInt8) :
    Causal later (sendChunks (L := L) size left remaining) := by
  induction left generalizing remaining with
  | zero => exact Proc.causal_pure ()
  | succ left ih => exact Proc.causal_bind (causal_sendChunk _ _) fun _ => ih _

/-- The chunks are cut by what was negotiated. -/
theorem causal_sendSessionInformation (lpdu : List UInt8) :
    Causal later (sendSessionInformation (L := L) lpdu) := by
  refine Proc.causal_of_each fun s => ?_
  by_cases hclosed : L.sessionState s.session ≠ .connected
  · exact ⟨Proc.fail .notOpen, Proc.causal_fail _, if_pos hclosed, if_pos hclosed⟩
  · let limit := (L.negotiatedLimits s.session).maxInformationFieldLengthTransmit
    let chunk := chunkSize limit lpdu.length
    refine ⟨Proc.modify (fun s => { s with
        hdlcLimits := { s.hdlcLimits with maximumInformationFieldSize := limit } }) >>= fun _ =>
      sendChunks chunk (frameCount lpdu.length chunk) lpdu, ?_, if_neg hclosed, if_neg hclosed⟩
    exact Proc.causal_bind (causal_modify (fun _ => rfl) fun _ => rfl) fun _ =>
      causal_sendChunks _ _ _

/-- The checks in front of it look at the options and the APDU. -/
theorem causal_sendApdu (apdu : ProfileByteView) : Causal later (sendApdu (L := L) apdu) := by
  refine Proc.causal_of_each fun s => ?_
  have hall : ∀ t : State L, t.options = s.options →
      sendApdu apdu t = (if isValidByteView apdu = false then Proc.fail .invalidArgument
        else if s.options.maximumApduSize ≠ 0 ∧ s.options.maximumApduSize < apdu.size then
          Proc.fail .payloadTooLarge
        else if mapLlcStatus (encodeApdu L s.options apdu.data).1 ≠ .ok then
          Proc.fail (mapLlcStatus (encodeApdu L s.options apdu.data).1)
        else if s.options.hdlcUseSession then
          sendSessionInformation (encodeApdu L s.options apdu.data).2
        else buildFrame (encodeApdu L s.options apdu.data).2 >>= writeFrameBytes :
          Call L Unit) t := by
    intro t ht
    rw [sendApdu, ht]
    dsimp only
    split
    · rfl
    split
    · rfl
    split
    · rfl
    split <;> rfl
  refine ⟨_, ?_, hall s rfl, hall (withMore later s) rfl⟩
  split
  · exact Proc.causal_fail _
  split
  · exact Proc.causal_fail _
  split
  · exact Proc.causal_fail _
  split
  · exact causal_sendSessionInformation _
  · exact Proc.causal_bind (causal_buildFrame _) causal_writeFrameBytes

theorem causal_sendSessionReceiveReady (pollFinal : Bool) :
    Causal later (sendSessionReceiveReady (L := L) pollFinal) :=
  Proc.causal_bind (causal_sessionBuild _) causal_writeFrameBytes

/-- An information field is decoded from the frame that carries it. -/
theorem causal_decodeComplete (frame : L.Frame) :
    Causal later (decodeCompleteInformationToPendingApdu frame) := by
  refine Proc.causal_of_blind (fun s => ?_) (fun s => ?_) fun s => ?_ <;>
    -- What the information field holds decides, and nothing is read for it.
    rcases hread : readInformation L s.options frame.information with status | apdu
  · rw [decodeComplete_of_error hread]
    exact List.prefix_append _ _
  · rw [decodeComplete_of_ok hread]
    exact List.prefix_append _ _
  · rw [decodeComplete_of_error hread]
    exact fun h => by cases h
  · rw [decodeComplete_of_ok hread]
    exact fun h => by cases h
  · rw [decodeComplete_of_error hread, decodeComplete_of_error (s := withMore later s) hread]
    rfl
  · rw [decodeComplete_of_ok hread, decodeComplete_of_ok (s := withMore later s) hread]
    rfl

/-- The session accepts, the field is queued and the RR is written. -/
theorem causal_acceptCompleted (completed : L.Frame) (hasCompleted : Bool) :
    Causal later (acceptCompleted completed hasCompleted) := by
  refine Proc.causal_bind (causal_sessionReceive completed) fun _ => ?_
  split
  · exact Proc.causal_pure ()
  · exact Proc.causal_bind (causal_decodeComplete completed) fun _ =>
      causal_sendSessionReceiveReady true

/-- A frame goes past the reassembler, which takes it as it comes. -/
theorem causal_decodeFrame (frame : L.Frame) :
    Causal later (decodeFrameToPendingApdu (L := L) frame) := by
  refine Proc.causal_of_each fun s => ?_
  by_cases hplain : s.options.hdlcUseSession = false
  · have hplain' : (withMore later s).options.hdlcUseSession = false := hplain
    cases hseg : frame.segmented with
    | true =>
        refine ⟨Proc.fail .unsupportedFeature, Proc.causal_fail _, ?_, ?_⟩ <;>
          simp only [decodeFrameToPendingApdu, hplain, hplain', hseg, if_true, Proc.fail]
    | false =>
        refine ⟨_, causal_decodeComplete frame, ?_, ?_⟩ <;>
          simp only [decodeFrameToPendingApdu, hplain, hplain', hseg, if_true, Bool.false_eq_true,
            if_false]
  -- What the reassembler makes of the frame is the same, whatever is to come.
  let pushed := L.pushFrame s.reassembler frame
  have hkeeps : ∀ (r : L.Reassembler) {x : Call L Unit}, Causal later x →
      Causal later (Proc.modify (reassembling r) >>= fun _ => x) := fun r _ hx =>
    Proc.causal_bind (causal_modify (fun _ => rfl) fun _ => rfl) fun _ => hx
  have hplain' : ¬ (withMore later s).options.hdlcUseSession = false := hplain
  by_cases hmore : mapHdlcStatus pushed.1 = .needMoreData
  · refine ⟨_, hkeeps pushed.2.2 (Proc.causal_fail .needMoreData), ?_, ?_⟩
    · exact (if_neg hplain).trans (if_pos hmore)
    · exact (if_neg hplain').trans (if_pos hmore)
  by_cases hok : mapHdlcStatus pushed.1 ≠ .ok
  · refine ⟨_, hkeeps (L.resetReassembler pushed.2.2) (Proc.causal_fail (mapHdlcStatus pushed.1)),
      ?_, ?_⟩
    · exact (if_neg hplain).trans ((if_neg hmore).trans (if_pos hok))
    · exact (if_neg hplain').trans ((if_neg hmore).trans (if_pos hok))
  · refine ⟨_, hkeeps pushed.2.2 (causal_acceptCompleted pushed.2.1.1 pushed.2.1.2), ?_, ?_⟩
    · exact (if_neg hplain).trans ((if_neg hmore).trans (if_neg hok))
    · exact (if_neg hplain').trans ((if_neg hmore).trans (if_neg hok))

/-- Whether the loop goes on depends on the status and the queue. -/
theorem causal_handleFrame (frame : L.Frame) : Causal later (handleFrame frame) := by
  refine Proc.causal_then (causal_decodeFrame frame) (fun o ho => ?_) handleFrame_of_waiting
  cases o with
  | done a =>
      exact ⟨Proc.gets fun s => !s.pendingApdus.isEmpty, Proc.causal_gets fun _ => rfl,
        fun _ _ => handleFrame_of_done⟩
  | fail status =>
      by_cases hmore : status = .needMoreData
      · subst hmore
        exact ⟨pure false, Proc.causal_pure false, fun _ _ => handleFrame_of_more⟩
      · exact ⟨Proc.fail status, Proc.causal_fail status,
          fun _ _ h => handleFrame_of_fail h hmore⟩
  | waiting => exact absurd rfl ho

/-- The waiting of the HDLC channel does not look ahead. -/
theorem causal_awaitApdu : Causal later (awaitApdu (L := L)) :=
  PendingQueue.causal_await (fun _ => rfl)
    (Proc.causal_repeatUntil (Proc.causal_bind causal_receiveDecodedFrame causal_handleFrame))

/-- A call of the HDLC channel does not look ahead. -/
theorem causal_call (later : List ReadEvent) (call : ReceiveCall) :
    CausalStep (withMore later) (·.trace) Answer.isWaiting ((channel L).call call) := by
  have hsame : ∀ s : State L, pending.apdus (withMore later s) = pending.apdus s := fun _ => rfl
  have hpop : ∀ s : State L, pending.pop (withMore later s) = withMore later (pending.pop s) :=
    fun _ => rfl
  exact PendingQueue.causal_call hsame hpop (fun _ => rfl) causal_awaitApdu call

/-- Nor does any other call of it. -/
theorem causal_exec (later : List ReadEvent) (op : Operation) :
    CausalStep (withMore later) (·.trace) Result.isWaiting (exec (L := L) op) := by
  -- By the calls, each put together from steps that are causal.
  cases op with
  | «open» =>
      have hopen : Causal later (openStream (L := L)) :=
        causal_check (fun _ => rfl) (fun _ => rfl) fun _ => List.prefix_append _ _
      exact hopen.step _ status_isWaiting
  | close =>
      have hclose : Causal later (closeStream (L := L)) :=
        causal_check (fun _ => rfl) (fun _ => rfl) fun _ => List.prefix_append _ _
      exact hclose.step _ status_isWaiting
  | isOpen => exact causal_isOpen.step _ flag_isWaiting
  | connectDataLink => exact causal_connectDataLink.step _ status_isWaiting
  | acceptDataLink => exact causal_acceptDataLink.step _ status_isWaiting
  | disconnectDataLink => exact causal_disconnectDataLink.step _ status_isWaiting
  | send apdu => exact (causal_sendApdu apdu).step _ status_isWaiting
  | receive call => exact (causal_call later call).answered fun _ => rfl

/-- The run of the module is the general one over its step. -/
theorem run_eq (ops : List Operation) (s : State L) :
    run ops s = runs exec Result.isWaiting ops s := by
  induction ops generalizing s with
  | nil => rfl
  | cons op ops ih => rw [run, runs, ih]

/-- More calls over more reads do more. -/
theorem run_grows (later : List ReadEvent) (ops ops' : List Operation) (s : State L) :
    (run ops s).2.trace <+: (run (ops ++ ops') (withMore later s)).2.trace := by
  simp only [run_eq]
  exact (runs_append_grows (causal_exec later) ops ops' s).trans
    ((runs_continues (causal_exec later) (ops ++ ops') s).grows fun _ => rfl)

end Hdlc

/-- No channel looks ahead: whatever calls were made and whatever comes later, calls that
    all returned are not told apart by it and leave it to be read, and a call that waits is
    gone on with, after the same answers and the same dealings with the transport. -/
theorem no_channel_looks_ahead (W : WrapperLib) (L : HdlcLib) (later : List ReadEvent) :
    (∀ ops (s : Tcp.State W), Continues (Tcp.withMore later) (·.calls) Tcp.Reply.isWaiting
      (Tcp.performAll ops s) (Tcp.performAll ops (Tcp.withMore later s))) ∧
    (∀ ops s, Continues (Udp.withMore later) (·.calls) Tcp.Reply.isWaiting
      (runs (Udp.perform W) Tcp.Reply.isWaiting ops s)
      (runs (Udp.perform W) Tcp.Reply.isWaiting ops (Udp.withMore later s))) ∧
    ∀ ops (s : Hdlc.State L), Continues (Hdlc.withMore later) (·.trace) Hdlc.Result.isWaiting
      (Hdlc.run ops s) (Hdlc.run ops (Hdlc.withMore later s)) := by
  refine ⟨fun ops s => ?_, runs_continues (Udp.causal_perform later), fun ops s => ?_⟩
  · rw [Tcp.performAll_eq, Tcp.performAll_eq]
    exact runs_continues (Tcp.causal_perform later) ops s
  · rw [Hdlc.run_eq, Hdlc.run_eq]
    exact runs_continues (Hdlc.causal_exec later) ops s

end DlmsProfile
