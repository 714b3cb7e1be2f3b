import DlmsProfile.Core.Throwing
import DlmsProfile.Wrapper.TcpTrace
import DlmsProfile.Wrapper.Udp

/-!
# The Wrapper Channels and Exceptions

The two wrapper channels once more, with every place at which they allocate in a
container of their own or call the trace sink as a site. Over TCP these are of several
kinds, and the calls take which of them can go wrong at all. What the wrapper library
and the transport do is taken over from the channels without exceptions, as these
do not throw.

Over TCP one of the four emissions is inside a handler, that of a decoded frame,
together with the insertion into the queue. A handler left that way resets the
decoder and empties the queue. Over UDP the copy into the caller's vector is the
only site there is.

## Main definitions

* `Tcp.Site`: The places at which the channel over TCP may throw.
* `Tcp.Throwing.call`, `Udp.Throwing.call`: The calls with their sites.
* `Tcp.answer`, `Udp.answer`: The status of a call when nothing throws.
* `Tcp.Exposed`: Something may throw outside every handler, told by the state before.

## Theorems

* `Tcp.Throwing.shadows_call`, `Udp.Throwing.shadows_call`: A call with its sites
  shadows the call.
* `Tcp.Throwing.exposes_call`, `Udp.Throwing.not_exposes_call`: Which calls pass a site
  that no handler encloses.
-/

namespace DlmsProfile

open Proc

namespace Tcp

variable {W : WrapperLib}

/-- The status a call answers. -/
def answer : Operation → Call W Unit
  | .open => openStream
  | .close => closeStream
  | .send apdu => sendApdu apdu
  | .receive call => pending.answering awaitFrame call

theorem answer_snd (op : Operation) (s : State W) : (answer op s).2 = exec op s := by
  cases op with
  | «open» => rfl
  | close => rfl
  | send apdu => rfl
  | receive call => exact PendingQueue.answering_snd call _ s

/-- A place at which the channel may throw: a call of the trace sink, the insertion into
    `pendingFrames_`, and the copy into the caller's vector. -/
inductive Site where
  | emission (kind : TraceKind)
  | pendingFrames
  | output
deriving DecidableEq, Repr

/-- Whatever can go wrong does go wrong somewhere. -/
def anywhere : Site → Bool := fun _ => true

/-- Only what a handler encloses goes wrong: the emission of a decoded frame, the
    insertion and the copy. -/
def Site.enclosed : Site → Bool
  | .emission kind => kind == .decodedFrame
  | .pendingFrames => true
  | .output => true

/-- The sink has seen one more event, if there is one. -/
def emitting (event : TraceEvent) : Call W Unit :=
  modify fun s => { s with
    sink := emitTrace s.options.wrapperTcpTraceSink event s.calls.length s.sink }

namespace Throwing

/-- `EmitTrace`: a configured sink may throw. -/
def emit (may : Site → Bool) (event : TraceEvent) : Throwing (State W) Unit := fun s =>
  if s.state.options.wrapperTcpTraceSink then
    (do
      mayThrowIf (may (.emission event.kind))
      safely (emitting event)) s
  -- No sink, no event, and nothing that could throw.
  else (.done (), s)

/-- `SendApdu`. The event is emitted outside any handler. -/
def sendApdu (may : Site → Bool) (apdu : ProfileByteView) : Throwing (State W) Unit := fun s =>
  if isValidByteView apdu = false then (.fail (.status .invalidArgument), s)
  else if s.state.options.maximumApduSize ≠ 0 ∧ s.state.options.maximumApduSize < apdu.size then
    (.fail (.status .payloadTooLarge), s)
  else
    let frame : WrapperFrame :=
      { sourcePort := s.state.options.localWrapperPort
        destinationPort := s.state.options.remoteWrapperPort
        data := apdu.data }
    let encoded := W.encodeWpdu frame s.state.wrapperLimits
    if mapWrapperStatus encoded.1 ≠ .ok then (.fail (.status (mapWrapperStatus encoded.1)), s)
    else
      (do
        -- A sink that throws here keeps the WPDU off the stream.
        emit may (encodedEvent apdu s.state encoded.2)
        safely (writeAll encoded.2)) s

/-- What `ReceiveNextFrame` does with the frames of a push: every event and the
    insertion are inside one handler. -/
def keepFrames (may : Site → Bool) (frames : List WrapperFrame) : Throwing (State W) Unit :=
  guarded (fun s => { s with decoder := W.reset s.decoder, pendingFrames := [] }) .internalError
    (do
      forEach (fun frame => emit may (decodedEvent frame)) frames
      -- Once the events are out. A throw here takes back the frames, not the events.
      mayThrowIf (may .pendingFrames)
      safely (modify fun s => { s with pendingFrames := s.pendingFrames ++ frames }))

/-- What `ReceiveNextFrame` does with a push that failed: the event is emitted
    outside any handler, and the decoder is reset after it. -/
def refuseBytes (may : Site → Bool) (status : ProfileStatus) (bytes : List UInt8) :
    Throwing (State W) Unit := do
  -- A sink that throws here leaves the decoder in its error, not reset.
  emit may (failedEvent .decodeStatus status bytes)
  safely (modify fun s => { s with decoder := W.reset s.decoder })
  fail (.status status)

/-- The loop of `ReceiveNextFrame` over the reads to come. -/
def receiveNextFrameLoop (may : Site → Bool) : List ReadEvent → Throwing (State W) Unit
  | [], s => (.waiting, { s with state := { s.state with reads := [] } })
  | e :: rest, s =>
    let readStatus := mapTransportStatus e.status
    let pushed := W.push s.state.decoder e.bytes
    let decodeStatus := mapWrapperStatus pushed.1
    let read : Faulty (State W) := { s with state := afterRead e rest s.state }
    let decoded : Faulty (State W) :=
      { s with state := { afterRead e rest s.state with decoder := pushed.2.2 } }
    if readStatus ≠ .ok then
      -- A read that failed is reported to the sink before the status is returned.
      (do
        emit may (failedEvent .readStatus readStatus [])
        fail (.status readStatus)) read
    else if e.bytes = [] then (.fail (.status .needMoreData), read)
    else if decodeStatus = .ok then keepFrames may pushed.2.1 decoded
    else if decodeStatus ≠ .needMoreData then refuseBytes may decodeStatus e.bytes decoded
    else receiveNextFrameLoop may rest decoded

/-- `ReceiveNextFrame`. -/
def receiveNextFrame (may : Site → Bool) : Throwing (State W) Unit := fun s =>
  if s.state.readBufferSize = 0 then (.fail (.status .invalidArgument), s)
  else receiveNextFrameLoop may s.state.reads s

variable (may : Site → Bool)

theorem shadows_emit (event : TraceEvent) :
    Shadows .internalError (emitting event : Call W Unit) (emit may event) := by
  intro s
  -- Without a sink both sides do nothing, and there is no site.
  by_cases hsink : s.options.wrapperTcpTraceSink = true
  · refine (shadows_site (may (.emission event.kind)) (shadows_safely (emitting event)) s).congr rfl
      fun faults sites => ?_
    simp only [emit, hsink, if_true]
  · refine (shadows_pure () s).congr ?_ fun faults sites => ?_
    · simp only [emitting, modify_apply, emitTrace, if_neg hsink, pure_apply]
    · simp only [emit, if_neg hsink]
      rfl

theorem shadows_sendApdu (apdu : ProfileByteView) :
    Shadows .internalError (Tcp.sendApdu apdu : Call W Unit) (sendApdu may apdu) := by
  intro s
  -- Three checks that throw nothing. What is left emits, and then writes.
  by_cases hvalid : isValidByteView apdu = false
  · refine (shadows_fail .invalidArgument s).congr ?_ fun faults sites => ?_
    · exact if_pos hvalid
    · exact if_pos hvalid
  by_cases hlarge : s.options.maximumApduSize ≠ 0 ∧ s.options.maximumApduSize < apdu.size
  · refine (shadows_fail .payloadTooLarge s).congr ?_ fun faults sites => ?_
    · simp only [Tcp.sendApdu, if_neg hvalid, if_pos hlarge]
      rfl
    · simp only [sendApdu, if_neg hvalid, if_pos hlarge]
      rfl
  let frame : WrapperFrame :=
    { sourcePort := s.options.localWrapperPort
      destinationPort := s.options.remoteWrapperPort
      data := apdu.data }
  let encoded := W.encodeWpdu frame s.wrapperLimits
  by_cases henc : mapWrapperStatus encoded.1 ≠ .ok
  · refine (shadows_fail (mapWrapperStatus encoded.1) s).congr ?_ fun faults sites => ?_
    · simp only [Tcp.sendApdu, if_neg hvalid, if_neg hlarge]
      exact if_pos henc
    · simp only [sendApdu, if_neg hvalid, if_neg hlarge]
      exact if_pos henc
  · refine (shadows_bind (shadows_emit may (encodedEvent apdu s encoded.2))
      (fun _ => shadows_safely (writeAll encoded.2)) s).congr ?_ fun faults sites => ?_
    · simp only [Tcp.sendApdu, if_neg hvalid, if_neg hlarge]
      exact if_neg henc
    · simp only [sendApdu, if_neg hvalid, if_neg hlarge]
      exact if_neg henc

/-- The frames of a push are emitted, then queued. -/
theorem shadows_keepFrames (frames : List WrapperFrame) :
    Shadows .internalError
      ((do
        forEach (fun frame => emitting (decodedEvent frame)) frames
        modify fun s => { s with pendingFrames := s.pendingFrames ++ frames }) : Call W Unit)
      (keepFrames may frames) := fun s =>
  shadowsAt_guarded (shadows_bind (shadows_forEach (fun _ => shadows_emit may _) frames)
    (fun _ => shadows_site _ (shadows_safely _)) s)

theorem forEach_emitting (frames : List WrapperFrame) (s : State W) :
    forEach (fun frame => emitting (decodedEvent frame)) frames s = (.done (), { s with
      sink := frames.foldl (fun sink frame =>
        emitTrace s.options.wrapperTcpTraceSink (decodedEvent frame) s.calls.length sink)
          s.sink }) := by
  -- The fold moves from frame to frame as the loop does.
  induction frames generalizing s with
  | nil => rfl
  | cons frame frames ih => exact ih _

theorem shadows_refuseBytes (status : ProfileStatus) (bytes : List UInt8) :
    Shadows .internalError
      ((do
        emitting (failedEvent .decodeStatus status bytes)
        modify fun s => { s with decoder := W.reset s.decoder }
        fail status) : Call W Unit)
      (refuseBytes may status bytes) :=
  shadows_bind (shadows_emit may _) fun _ =>
    shadows_bind (shadows_safely _) fun _ => shadows_fail status

section Loop

variable {e : ReadEvent} {rest : List ReadEvent} {s : State W}

/-- The loop over one more read, told by what becomes of the read. -/
theorem sites_readFailed (h : e.status ≠ .ok) (faults sites : List Bool) :
    receiveNextFrameLoop may (e :: rest) ⟨s, faults, sites⟩ =
      (emit may (failedEvent .readStatus (mapTransportStatus e.status) []) >>= fun _ =>
        fail (.status (mapTransportStatus e.status))) ⟨afterRead e rest s, faults, sites⟩ := by
  have hne : mapTransportStatus e.status ≠ .ok := fun hc => h (mapTransportStatus_eq_ok.mp hc)
  conv_lhs => simp only [receiveNextFrameLoop]
  exact if_pos hne

theorem sites_readEmpty (h : e.status = .ok) (he : e.bytes = []) (faults sites : List Bool) :
    receiveNextFrameLoop may (e :: rest) ⟨s, faults, sites⟩ =
      (.fail (.status .needMoreData), ⟨afterRead e rest s, faults, sites⟩) := by
  have hok : ¬ mapTransportStatus e.status ≠ .ok := fun hc => hc (mapTransportStatus_eq_ok.mpr h)
  conv_lhs => simp only [receiveNextFrameLoop]
  rw [if_neg hok, if_pos he]

theorem sites_completed (h : e.status = .ok) (he : e.bytes ≠ [])
    (hp : mapWrapperStatus (W.push s.decoder e.bytes).1 = .ok) (faults sites : List Bool) :
    receiveNextFrameLoop may (e :: rest) ⟨s, faults, sites⟩ =
      keepFrames may (W.push s.decoder e.bytes).2.1
        ⟨{ afterRead e rest s with decoder := (W.push s.decoder e.bytes).2.2 }, faults, sites⟩ := by
  have hok : ¬ mapTransportStatus e.status ≠ .ok := fun hc => hc (mapTransportStatus_eq_ok.mpr h)
  conv_lhs => simp only [receiveNextFrameLoop]
  rw [if_neg hok, if_neg he, if_pos hp]

theorem sites_continued (h : e.status = .ok) (he : e.bytes ≠ [])
    (hm : mapWrapperStatus (W.push s.decoder e.bytes).1 = .needMoreData)
    (faults sites : List Bool) :
    receiveNextFrameLoop may (e :: rest) ⟨s, faults, sites⟩ = receiveNextFrameLoop may rest
      ⟨{ afterRead e rest s with decoder := (W.push s.decoder e.bytes).2.2 }, faults, sites⟩ := by
  have hok : ¬ mapTransportStatus e.status ≠ .ok := fun hc => hc (mapTransportStatus_eq_ok.mpr h)
  have hp : mapWrapperStatus (W.push s.decoder e.bytes).1 ≠ .ok := by
    rw [hm]
    exact ProfileStatus.noConfusion
  conv_lhs => simp only [receiveNextFrameLoop]
  rw [if_neg hok, if_neg he, if_neg hp, if_neg (not_not_intro hm)]

theorem sites_rejected (h : e.status = .ok) (he : e.bytes ≠ [])
    (hp : mapWrapperStatus (W.push s.decoder e.bytes).1 ≠ .ok)
    (hm : mapWrapperStatus (W.push s.decoder e.bytes).1 ≠ .needMoreData)
    (faults sites : List Bool) :
    receiveNextFrameLoop may (e :: rest) ⟨s, faults, sites⟩ =
      refuseBytes may (mapWrapperStatus (W.push s.decoder e.bytes).1) e.bytes
        ⟨{ afterRead e rest s with decoder := (W.push s.decoder e.bytes).2.2 }, faults, sites⟩ := by
  have hok : ¬ mapTransportStatus e.status ≠ .ok := fun hc => hc (mapTransportStatus_eq_ok.mpr h)
  conv_lhs => simp only [receiveNextFrameLoop]
  rw [if_neg hok, if_neg he, if_neg hp, if_pos hm]

end Loop

theorem shadows_receiveNextFrameLoop (reads : List ReadEvent) :
    Shadows .internalError (Tcp.receiveNextFrameLoop reads : Call W Unit)
      (receiveNextFrameLoop may reads) := by
  -- On the reads, with the cases of the loop in the order in which it makes them.
  induction reads with
  | nil => exact shadows_safely _
  | cons e rest ih =>
      intro s
      by_cases hok : e.status = .ok
      swap
      · exact (shadows_bind (shadows_emit may (failedEvent .readStatus _ []))
          (fun _ => shadows_fail (mapTransportStatus e.status)) (afterRead e rest s)).congr
            (loop_readFailed hok) (sites_readFailed may hok)
      by_cases he : e.bytes = []
      · exact (shadows_fail .needMoreData (afterRead e rest s)).congr (loop_readEmpty hok he)
          (sites_readEmpty may hok he)
      by_cases hst : mapWrapperStatus (W.push s.decoder e.bytes).1 = .ok
      · refine (shadows_keepFrames may (W.push s.decoder e.bytes).2.1 { afterRead e rest s with
          decoder := (W.push s.decoder e.bytes).2.2 }).congr ?_ (sites_completed may hok he hst)
        rw [loop_completed hok he hst, bind_of_done _ (forEach_emitting _ _)]
        rfl
      by_cases hm : mapWrapperStatus (W.push s.decoder e.bytes).1 = .needMoreData
      · exact (ih { afterRead e rest s with decoder := (W.push s.decoder e.bytes).2.2 }).congr
          (loop_continued hok he hm) (sites_continued may hok he hm)
      · exact (shadows_refuseBytes may (mapWrapperStatus (W.push s.decoder e.bytes).1) e.bytes
          { afterRead e rest s with decoder := (W.push s.decoder e.bytes).2.2 }).congr
            (loop_rejected hok he hst hm) (sites_rejected may hok he hst hm)

theorem shadows_receiveNextFrame :
    Shadows .internalError (Tcp.receiveNextFrame : Call W Unit) (receiveNextFrame may) := by
  intro s
  by_cases hbuffer : s.readBufferSize = 0
  · refine (shadows_fail .invalidArgument s).congr ?_ fun faults sites => ?_
    · exact if_pos hbuffer
    · exact if_pos hbuffer
  · refine (shadows_receiveNextFrameLoop may s.reads s).congr (if_neg hbuffer)
      fun faults sites => ?_
    exact if_neg hbuffer

/-- `while (pendingFrames_.empty())`, common to both overloads. -/
def awaitFrame : Throwing (State W) Unit :=
  pending.awaiting (·.reads.length) (receiveNextFrame may)
    (PendingQueue.size_of_shadows (fun _ _ => receiveNextFrame_reads_lt)
      (shadows_receiveNextFrame may))

theorem shadows_awaitFrame :
    Shadows .internalError (Tcp.awaitFrame : Call W Unit) (awaitFrame may) :=
  PendingQueue.shadows_awaiting (shadows_receiveNextFrame may)

/-- The calls of the channel, where something can go wrong at the given sites only. -/
def call : Operation → Throwing (State W) Unit
  | .open => safely openStream
  | .close => safely closeStream
  | .send apdu => sendApdu may apdu
  | .receive call => pending.receiving (may .output) (awaitFrame may) call

/-- A call with its sites shadows the call. -/
theorem shadows_call (op : Operation) :
    Shadows .internalError (answer op : Call W Unit) (call may op) := by
  cases op with
  | «open» => exact shadows_safely _
  | close => exact shadows_safely _
  | send apdu => exact shadows_sendApdu may apdu
  | receive call => exact PendingQueue.shadows_receiving _ (shadows_awaitFrame may) call

end Throwing

/-- Which emission outside a handler the reads to come lead to, if any, when they are
    decoded until there is a frame. -/
def failsAhead (W : WrapperLib) : W.Decoder → List ReadEvent → Option TraceKind
  | _, [] => none
  | decoder, e :: rest =>
    let pushed := W.push decoder e.bytes
    if e.status ≠ .ok then some .readStatus
    else if e.bytes = [] then none
    else if mapWrapperStatus pushed.1 = .ok then
      if pushed.2.1 = [] then failsAhead W pushed.2.2 rest else none
    else if mapWrapperStatus pushed.1 = .needMoreData then failsAhead W pushed.2.2 rest
    else some .decodeStatus

/-- The WPDU of an APDU would be written. -/
def Writes (s : State W) (apdu : ProfileByteView) : Prop :=
  isValidByteView apdu = true ∧
    ¬ (s.options.maximumApduSize ≠ 0 ∧ s.options.maximumApduSize < apdu.size) ∧
    (W.encodeWpdu
      { sourcePort := s.options.localWrapperPort
        destinationPort := s.options.remoteWrapperPort
        data := apdu.data } s.wrapperLimits).1 = .ok

/-- Something may throw outside every handler. A sink is configured, and the channel is to
    write an APDU, or to receive one with no frame in hand when a read or its bytes fail
    before there is a frame. -/
def Exposed (may : Site → Bool) (op : Operation) (s : State W) : Prop :=
  s.options.wrapperTcpTraceSink = true ∧
    match op with
    | .open => False
    | .close => False
    | .send apdu => Writes s apdu ∧ may (.emission .encodedFrame) = true
    | .receive call => PendingQueue.Accepts call ∧ s.pendingFrames = [] ∧ s.readBufferSize ≠ 0 ∧
        ∃ kind, failsAhead W s.decoder s.reads = some kind ∧ may (.emission kind) = true

/-- What a handler encloses is not outside of it. -/
theorem not_exposed_enclosed (op : Operation) (s : State W) : ¬ Exposed Site.enclosed op s := by
  have hkind : ∀ (decoder : W.Decoder) (reads : List ReadEvent) (kind : TraceKind),
      failsAhead W decoder reads = some kind → Site.enclosed (.emission kind) = false := by
    intro decoder reads kind
    -- The two kinds the reads lead to are those emitted outside a handler.
    induction reads generalizing decoder with
    | nil => exact fun h => by cases h
    | cons e rest ih =>
        rw [failsAhead]
        split
        · exact fun h => Option.some.inj h ▸ rfl
        split
        · exact fun h => by cases h
        split
        · split
          · exact ih _
          · exact fun h => by cases h
        split
        · exact ih _
        · exact fun h => Option.some.inj h ▸ rfl
  cases op with
  | «open» => exact And.right
  | close => exact And.right
  | send apdu => exact fun h => Bool.false_ne_true h.2.2
  | receive call =>
      rintro ⟨-, -, -, -, kind, hfails, hmay⟩
      exact Bool.false_ne_true ((hkind _ _ _ hfails).symm.trans hmay)

namespace Throwing

section Exposes

variable {may}

theorem exposes_emit (event : TraceEvent) (s : State W) :
    Exposes (emit may event) s ↔
      s.options.wrapperTcpTraceSink = true ∧ may (.emission event.kind) = true := by
  -- A sink is called at one site, which no handler here encloses.
  by_cases hsink : s.options.wrapperTcpTraceSink = true
  · have hsite : Exposes (emit may event) s ↔ Exposes (mayThrowIf (may (.emission event.kind)) >>=
        fun _ => safely (emitting event : Call W Unit)) s :=
      exposes_congr fun faults sites => if_pos hsink
    rw [hsite, exposes_site ProfileStatus.internalError (shadows_safely _), and_iff_right hsink]
    exact or_iff_left (not_exposes_safely _ s)
  · have hnone : Exposes (emit may event) s ↔ Exposes (pure () : Throwing (State W) Unit) s :=
      exposes_congr fun faults sites => if_neg hsink
    rw [hnone]
    exact iff_of_false (not_exposes_pure () s) fun hc => hsink hc.1

theorem exposes_sendApdu (apdu : ProfileByteView) (s : State W) :
    Exposes (sendApdu may apdu) s ↔ Exposed may (.send apdu) s := by
  -- A call that fails a check has passed no site. In `Exposed` that check fails as well.
  by_cases hvalid : isValidByteView apdu = false
  · have hfail : Exposes (sendApdu may apdu) s ↔
        Exposes (fail (.status .invalidArgument) : Throwing (State W) Unit) s :=
      exposes_congr fun faults sites => if_pos hvalid
    rw [hfail]
    refine iff_of_false (not_exposes_fail _ s) fun hc => ?_
    rw [hc.2.1.1] at hvalid
    cases hvalid
  by_cases hlarge : s.options.maximumApduSize ≠ 0 ∧ s.options.maximumApduSize < apdu.size
  · have hfail : Exposes (sendApdu may apdu) s ↔
        Exposes (fail (.status .payloadTooLarge) : Throwing (State W) Unit) s :=
      exposes_congr fun faults sites => (if_neg hvalid).trans (if_pos hlarge)
    rw [hfail]
    exact iff_of_false (not_exposes_fail _ s) fun hc => hc.2.1.2.1 hlarge
  let encoded := W.encodeWpdu
    { sourcePort := s.options.localWrapperPort
      destinationPort := s.options.remoteWrapperPort
      data := apdu.data } s.wrapperLimits
  by_cases henc : mapWrapperStatus encoded.1 ≠ .ok
  · have hfail : Exposes (sendApdu may apdu) s ↔
        Exposes (fail (.status (mapWrapperStatus encoded.1)) : Throwing (State W) Unit) s :=
      exposes_congr fun faults sites =>
        (if_neg hvalid).trans ((if_neg hlarge).trans (if_pos henc))
    rw [hfail]
    exact iff_of_false (not_exposes_fail _ s) fun hc =>
      henc (mapWrapperStatus_eq_ok.mpr hc.2.1.2.2)
  · have hemit : Exposes (sendApdu may apdu) s ↔
        Exposes (emit may (encodedEvent apdu s encoded.2) >>=
          fun _ => safely (writeAll encoded.2 : Call W Unit)) s :=
      exposes_congr fun faults sites =>
        (if_neg hvalid).trans ((if_neg hlarge).trans (if_neg henc))
    -- The write behind the event cannot throw, so the event alone counts.
    rw [hemit, exposes_bind_left (shadows_emit may _ s) (fun _ => shadows_safely _)
      fun _ => not_exposes_safely _, exposes_emit]
    refine and_congr Iff.rfl (and_iff_right ⟨Bool.not_eq_false _ ▸ hvalid, hlarge, ?_⟩).symm
    exact mapWrapperStatus_eq_ok.mp (not_not.mp henc)

theorem exposes_refuseBytes (status : ProfileStatus) (bytes : List UInt8) (s : State W) :
    Exposes (refuseBytes may status bytes) s ↔
      s.options.wrapperTcpTraceSink = true ∧ may (.emission .decodeStatus) = true := by
  have htail : Shadows .internalError
      ((do
        modify fun s => { s with decoder := W.reset s.decoder }
        fail status) : Call W Unit)
      (do
        safely (modify fun s => { s with decoder := W.reset s.decoder })
        fail (.status status)) := shadows_bind (shadows_safely _) fun _ => shadows_fail status
  -- The reset behind the event throws nothing either.
  rw [refuseBytes, exposes_bind_left (shadows_emit may _ s) (fun _ => htail), exposes_emit]
  · exact Iff.rfl
  · intro _ s1
    rw [exposes_bind_safely]
    exact fun ⟨_, s2, _, h⟩ => not_exposes_fail _ s2 h

theorem exposes_awaitFrame (may : Site → Bool) {s : State W} (hb : s.readBufferSize ≠ 0) :
    Exposes (awaitFrame may) s ↔ s.pendingFrames = [] ∧
      (Exposes (receiveNextFrameLoop may s.reads) s ∨
        ∃ s1, Tcp.receiveNextFrameLoop s.reads s = (.done (), s1) ∧
          Exposes (awaitFrame may) s1) := by
  have hstep : Exposes (receiveNextFrame may) s ↔ Exposes (receiveNextFrameLoop may s.reads) s :=
    exposes_congr fun faults sites => if_neg hb
  have hloop : Tcp.receiveNextFrame s = Tcp.receiveNextFrameLoop s.reads s := if_neg hb
  rw [awaitFrame, PendingQueue.exposes_awaiting (fun _ _ => receiveNextFrame_reads_lt)
    (shadows_receiveNextFrame may), hstep, hloop]
  exact and_congr List.map_eq_nil_iff Iff.rfl

/-- What the loop in front of both overloads exposes, the step of it that has begun
    having the given reads to come. -/
theorem exposes_reads (reads : List ReadEvent) {s : State W} (hreads : s.reads = reads)
    (hp : s.pendingFrames = []) (hb : s.readBufferSize ≠ 0) :
    (Exposes (receiveNextFrameLoop may reads) s ∨
      ∃ s1, Tcp.receiveNextFrameLoop reads s = (.done (), s1) ∧ Exposes (awaitFrame may) s1) ↔
      s.options.wrapperTcpTraceSink = true ∧
        ∃ kind, failsAhead W s.decoder reads = some kind ∧ may (.emission kind) = true := by
  -- On the reads, the cases being those of `failsAhead`.
  induction reads generalizing s with
  | nil =>
      refine iff_of_false ?_ fun ⟨_, kind, h, _⟩ => by cases h
      rintro (h | ⟨s1, h, -⟩)
      · exact absurd h List.not_mem_nil
      · cases h
  | cons e rest ih =>
      -- The next read goes on from here, in this step or in the next.
      have hnext := ih (s := { afterRead e rest s with decoder := (W.push s.decoder e.bytes).2.2 })
        rfl hp hb
      by_cases hok : e.status = .ok
      swap
      · rw [exposes_congr (sites_readFailed may hok), exposes_bind_left (shadows_emit may _ _)
          (fun _ => shadows_fail _) fun _ => not_exposes_fail _, exposes_emit,
          loop_readFailed hok, failsAhead, if_pos hok]
        simp only [Prod.mk.injEq, reduceCtorEq, false_and, exists_false, or_false,
          Option.some.injEq, exists_eq_left']
        exact Iff.rfl
      by_cases he : e.bytes = []
      · rw [exposes_congr (sites_readEmpty may hok he), loop_readEmpty hok he, failsAhead,
          if_neg (not_not.mpr hok), if_pos he]
        refine iff_of_false ?_ fun ⟨_, kind, h, _⟩ => by cases h
        rintro (h | ⟨s1, h, -⟩)
        · exact absurd h List.not_mem_nil
        · cases h
      by_cases hst : mapWrapperStatus (W.push s.decoder e.bytes).1 = .ok
      · rw [exposes_congr (sites_completed may hok he hst), loop_completed hok he hst, failsAhead,
          if_neg (not_not.mpr hok), if_neg he, if_pos hst]
        -- What the push has completed is emitted and queued inside the handler.
        have hnone : ∀ t : State W, ¬ Exposes (keepFrames may (W.push s.decoder e.bytes).2.1) t :=
          fun t => not_exposes_guarded _ t
        rw [or_iff_right (hnone _)]
        simp only [Prod.mk.injEq, true_and, exists_eq_left']
        refine (exposes_awaitFrame may ?_).trans ?_
        · exact hb
        -- A push that completes no frame has the caller's loop read on.
        by_cases hf : (W.push s.decoder e.bytes).2.1 = []
        · rw [if_pos hf]
          simp only [hf, hp, List.append_nil, true_and]
          exact ih rfl rfl hb
        · rw [if_neg hf]
          refine iff_of_false (fun hc => hf ?_) fun ⟨_, kind, h, _⟩ => by cases h
          exact (List.append_eq_nil_iff.mp hc.1).2
      by_cases hm : mapWrapperStatus (W.push s.decoder e.bytes).1 = .needMoreData
      · rw [exposes_congr (sites_continued may hok he hm), loop_continued hok he hm, failsAhead,
          if_neg (not_not.mpr hok), if_neg he, if_neg hst, if_pos hm]
        exact hnext
      · rw [exposes_congr (sites_rejected may hok he hst hm), loop_rejected hok he hst hm,
          failsAhead, if_neg (not_not.mpr hok), if_neg he, if_neg hst, if_neg hm,
          exposes_refuseBytes]
        simp only [Prod.mk.injEq, reduceCtorEq, false_and, exists_false, or_false,
          Option.some.injEq, exists_eq_left']
        exact Iff.rfl

theorem exposes_awaitFrame_iff (s : State W) :
    Exposes (awaitFrame may) s ↔ s.pendingFrames = [] ∧ s.readBufferSize ≠ 0 ∧
      s.options.wrapperTcpTraceSink = true ∧
        ∃ kind, failsAhead W s.decoder s.reads = some kind ∧ may (.emission kind) = true := by
  by_cases hb : s.readBufferSize = 0
  · refine iff_of_false ?_ fun hc => hc.2.1 hb
    -- Without a read buffer the step fails before it reads.
    have hstep : Exposes (receiveNextFrame may) s ↔
        Exposes (fail (.status .invalidArgument) : Throwing (State W) Unit) s :=
      exposes_congr fun faults sites => if_pos hb
    have hfail : Tcp.receiveNextFrame s = (.fail .invalidArgument, s) := if_pos hb
    rw [awaitFrame, PendingQueue.exposes_awaiting (fun _ _ => receiveNextFrame_reads_lt)
      (shadows_receiveNextFrame may), hstep, hfail]
    rintro ⟨-, h | ⟨s1, h, -⟩⟩
    · exact not_exposes_fail _ s h
    · cases h
  · rw [exposes_awaitFrame may hb, and_iff_right hb]
    exact and_congr_right fun hp => exposes_reads s.reads rfl hp hb

/-- What a call exposes is told by the state before it. -/
theorem exposes_call (op : Operation) (s : State W) :
    Exposes (call may op) s ↔ Exposed may op s := by
  cases op with
  | «open» => exact iff_of_false (not_exposes_safely _ s) And.right
  | close => exact iff_of_false (not_exposes_safely _ s) And.right
  | send apdu => exact exposes_sendApdu apdu s
  | receive call =>
      -- The copy behind the waiting is guarded, so the waiting alone counts.
      rw [Throwing.call, PendingQueue.exposes_receiving (shadows_awaitFrame may),
        exposes_awaitFrame_iff, Exposed]
      constructor
      · rintro ⟨haccepts, hp, hb, hsink, hkind⟩
        exact ⟨hsink, haccepts, hp, hb, hkind⟩
      · rintro ⟨hsink, haccepts, hp, hb, hkind⟩
        exact ⟨haccepts, hp, hb, hsink, hkind⟩

end Exposes

end Throwing

end Tcp

namespace Udp

variable {W : WrapperLib}

/-- The status a call answers. -/
def answer (W : WrapperLib) : Operation → Call Unit
  | .open => openDatagram
  | .close => closeDatagram
  | .send apdu => sendApdu W apdu
  | .receive .vector => receiveApdu W >>= fun _ => pure ()
  | .receive (.into output) => fun s =>
    ((receiveApduInto W output s).1.1, (receiveApduInto W output s).2)

theorem answer_snd (op : Operation) (s : State) : (answer W op s).2 = exec W op s := by
  rcases op with _ | _ | apdu | _ | output
  · rfl
  · rfl
  · rfl
  · simp only [answer, exec, ApduChannel.call]
    rcases hr : receiveApdu W s with ⟨apdu | status | _, s1⟩
    · rw [bind_of_done _ hr]
      rfl
    · rw [bind_of_fail _ hr]
    · rw [bind_of_waiting _ hr]
  · rfl

namespace Throwing

/-- `ReceiveApdu` into a vector. The copy of the frame's data may throw. -/
def receiveApdu (W : WrapperLib) : Throwing State (List UInt8) := do
  let frame ← safely (receiveFrame W)
  guarded id .internalError (do
    mayThrow
    pure frame.data)

/-- The calls of the channel. Only one of them allocates. -/
def call (W : WrapperLib) : Operation → Throwing State Unit
  | .receive .vector => receiveApdu W >>= fun _ => pure ()
  | op => safely (answer W op)

theorem shadows_receiveApdu :
    Shadows .internalError (Udp.receiveApdu W) (receiveApdu W) :=
  shadows_bind (shadows_safely _) fun _ s =>
    shadowsAt_guarded (shadows_site true (shadows_pure _) s)

/-- A call with its sites shadows the call. -/
theorem shadows_call (op : Operation) :
    Shadows .internalError (answer W op) (call W op) := by
  rcases op with _ | _ | apdu | _ | output
  · exact shadows_safely _
  · exact shadows_safely _
  · exact shadows_safely _
  · exact shadows_bind shadows_receiveApdu fun _ => shadows_pure ()
  · exact shadows_safely _

/-- No call exposes its site. -/
theorem not_exposes_call (op : Operation) (s : State) : ¬ Exposes (call W op) s := by
  rcases op with _ | _ | apdu | _ | output
  · exact not_exposes_safely _ s
  · exact not_exposes_safely _ s
  · exact not_exposes_safely _ s
  -- The copy is guarded, and the receiving in front of it throws nothing.
  · have hcopy : ∀ frame : WrapperFrame, Shadows .internalError
        (pure frame.data : Call (List UInt8)) (guarded id .internalError (do
          mayThrow
          pure frame.data)) := fun frame s1 =>
      shadowsAt_guarded (shadows_site true (shadows_pure frame.data) s1)
    rw [call, exposes_bind_left (shadows_receiveApdu s) (fun _ => shadows_pure ())
      fun _ => not_exposes_pure (), receiveApdu,
      exposes_bind_left (shadows_safely _ s) hcopy
        fun _ => not_exposes_guarded _]
    exact not_exposes_safely _ s
  · exact not_exposes_safely _ s

end Throwing

end Udp

end DlmsProfile
