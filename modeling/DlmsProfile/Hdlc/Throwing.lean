import DlmsProfile.Core.Throwing
import DlmsProfile.Hdlc.Retry

/-!
# The HDLC Channel and Exceptions

The HDLC channel once more, with every place at which it allocates in a container
of its own as a site. The sites are the copies of frames, out of a push into the
queue and out of the queue into the frame at hand, and the copies of APDUs, into
the queue and into the caller's vector. Only the copies of APDUs are inside a
handler. Every call that takes in a frame passes a site outside.

Addresses, limits, sessions, decoders and frames under construction belong to the
lower libraries, which do not throw.

## Main definitions

* `Hdlc.answer`: The status of a call when nothing throws.
* `Hdlc.Throwing.receiveDecodedFrame`: The two places a frame comes from.
* `Hdlc.Throwing.call`: The calls with their sites.

## Theorems

* `Hdlc.Throwing.shadows_call`: A call with its sites shadows the call.
-/

namespace DlmsProfile

open Proc

namespace Hdlc

variable {L : HdlcLib}

/-- The status a call answers. `IsOpen` answers a flag. -/
def answer : Operation → Call L Unit
  | .open => openStream
  | .close => closeStream
  | .isOpen => isOpen >>= fun _ => pure ()
  | .connectDataLink => connectDataLink
  | .acceptDataLink => acceptDataLink
  | .disconnectDataLink => disconnectDataLink
  | .send apdu => sendApdu apdu
  | .receive call => pending.answering awaitApdu call

theorem answer_snd (op : Operation) (s : State L) : (answer op s).2 = (exec op s).2 := by
  cases op with
  | receive call => exact PendingQueue.answering_snd call _ s
  | _ => rfl

/-- `pendingHdlcFrames_.push_back`. -/
def pushBack (frame : L.Frame) : Call L Unit :=
  modify fun s => { s with pendingHdlcFrames := s.pendingHdlcFrames ++ [frame] }

/-- `pendingHdlcFrames_.pop_front`, the front at hand. -/
def popFront (frame : L.Frame) (frames : List L.Frame) : Call L L.Frame := fun s =>
  (.done frame, { s with pendingHdlcFrames := frames })

/-- `pendingApdus_.clear`. -/
def dropApdus (s : State L) : State L := { s with pendingApdus := [] }

/-- A place at which the channel may throw: the copies of frames, out of the queue of frames
    and out of a push, the insertion into `pendingApdus_`, and the copy into the caller's
    vector. -/
inductive Site where
  | frontFrame
  | pushedFrame
  | firstFrame
  | pendingApdu
  | output
deriving DecidableEq, Repr

/-- Whatever can go wrong does go wrong somewhere. -/
def anywhere : Site → Bool := fun _ => true

/-- Only what a handler encloses goes wrong: the copies of APDUs. -/
def Site.enclosed : Site → Bool
  | .pendingApdu => true
  | .output => true
  | _ => false

namespace Throwing

variable (may : Site → Bool)

/-- A frame of a push goes to the queue. -/
def queueFrame (frame : L.Frame) : Throwing (State L) Unit := do
  mayThrowIf (may .pushedFrame)
  safely (pushBack frame)

/-- What `ReceiveDecodedFrame` does with the frames of a push: all but the first are
    queued, then the first is copied. -/
def handOut (frame : L.Frame) (frames : List L.Frame) : Throwing (State L) L.Frame := do
  forEach (queueFrame may) frames
  mayThrowIf (may .firstFrame)
  pure frame

/-- The loop of `ReceiveDecodedFrame` over the reads to come. -/
def receiveDecodedFrameLoop : List ReadEvent → Throwing (State L) L.Frame
  | [], s => (.waiting, { s with state := { s.state with reads := [] } })
  | e :: rest, s =>
    let readStatus := mapTransportStatus e.status
    let pushed := L.push s.state.decoder e.bytes
    let decodeStatus := mapHdlcStatus pushed.1
    let read : Faulty (State L) := { s with state := afterRead e rest s.state }
    let decoded : Faulty (State L) :=
      { s with state := { afterRead e rest s.state with decoder := pushed.2.2 } }
    -- What the transport says comes first, and nothing is pushed if it says no.
    if readStatus ≠ .ok then (.fail (.status readStatus), read)
    else if e.bytes = [] then (.fail (.status .needMoreData), read)
    else if decodeStatus = .ok then
      match pushed.2.1 with
      | [] => (.fail (.status .needMoreData), decoded)
      -- Only here is anything copied. A throw leaves the bytes read and the decoder moved on.
      | frame :: frames => handOut may frame frames decoded
    else if decodeStatus ≠ .needMoreData then
      (.fail (.status decodeStatus),
        { s with state := { afterRead e rest s.state with decoder := L.resetDecoder pushed.2.2 } })
    else receiveDecodedFrameLoop rest decoded

/-- `ReceiveDecodedFrame`. The front of the queue is copied before it is removed. -/
def receiveDecodedFrame : Throwing (State L) L.Frame := fun s =>
  match s.state.pendingHdlcFrames with
  -- `frame = pendingHdlcFrames_.front()` may throw, and then nothing is popped.
  | frame :: frames =>
    (do
      mayThrowIf (may .frontFrame)
      safely (popFront frame frames)) s
  | [] =>
    if s.state.readBufferSize = 0 then (.fail (.status .invalidArgument), s)
    else receiveDecodedFrameLoop may s.state.reads s

/-- `ReceiveSessionControlFrame`. -/
def receiveSessionControlFrame : Throwing (State L) Unit := do
  let frame ← receiveDecodedFrame may
  safely (sessionReceive frame)

/-- `ReceiveSessionControlFrameWithRetry`. -/
def receiveSessionControlFrameWithRetry (retryFrameBytes : List UInt8) :
    Throwing (State L) Unit := fun s =>
  retry (receiveSessionControlFrame may) (worthStatus isRetriableReceiveStatus)
    (safely (beforeRetry retryFrameBytes)) s.state.options.hdlcRetryCount.toNat s

/-- `ConnectDataLink`. -/
def connectDataLink : Throwing (State L) Unit := do
  safely (require (·.options.hdlcUseSession) .unsupportedFeature)
  safely requireOpen
  safely (require (·.options.hdlcRole == .client) .unsupportedFeature)
  safely ensureSession
  let frameBytes ← safely (sessionBuild L.buildConnectRequest)
  safely (writeFrameBytes frameBytes)
  receiveSessionControlFrameWithRetry may frameBytes

/-- `AcceptDataLink`. -/
def acceptDataLink : Throwing (State L) Unit := do
  safely (require (·.options.hdlcUseSession) .unsupportedFeature)
  safely requireOpen
  safely (require (·.options.hdlcRole == .server) .unsupportedFeature)
  safely ensureSession
  receiveSessionControlFrame may
  let frameBytes ← safely (sessionBuild L.buildConnectResponse)
  safely (writeFrameBytes frameBytes)

/-- `DisconnectDataLink`. -/
def disconnectDataLink : Throwing (State L) Unit := do
  safely (require (·.options.hdlcUseSession) .unsupportedFeature)
  safely requireOpen
  let frameBytes ← safely (sessionBuild L.buildDisconnectRequest)
  safely (writeFrameBytes frameBytes)
  receiveSessionControlFrameWithRetry may frameBytes

/-- `if (!session_.CanSendInformationFrame())`. -/
def awaitWindow : Throwing (State L) Unit := fun s =>
  if L.canSendInformationFrame s.state.session then (.done (), s)
  else receiveSessionControlFrame may s

/-- What a turn of the loop of `SendSessionInformation` does once the window is open. -/
def emitChunk (chunk : List UInt8) (finalFrame : Bool) : Throwing (State L) Unit := do
  let before ← safely (gets (·.session))
  let frameBytes ← safely (buildSessionInformationFrame chunk (!finalFrame) finalFrame)
  safely (log (.emit before frameBytes))
  safely (writeFrameBytes frameBytes)
  receiveSessionControlFrameWithRetry may frameBytes

/-- One turn of the loop of `SendSessionInformation`. -/
def sendChunk (chunk : List UInt8) (finalFrame : Bool) : Throwing (State L) Unit := do
  awaitWindow may
  emitChunk may chunk finalFrame

/-- The loop of `SendSessionInformation`. -/
def sendChunks (chunkSize : Nat) : Nat → List UInt8 → Throwing (State L) Unit
  | 0, _ => pure ()
  | left + 1, remaining => do
    sendChunk may (remaining.take chunkSize) (left == 0)
    sendChunks chunkSize left (remaining.drop chunkSize)

/-- `SendSessionInformation`. -/
def sendSessionInformation (lpdu : List UInt8) : Throwing (State L) Unit := fun s =>
  if L.sessionState s.state.session ≠ .connected then (.fail (.status .notOpen), s)
  else
    let limit := (L.negotiatedLimits s.state.session).maxInformationFieldLengthTransmit
    let chunk := chunkSize limit lpdu.length
    sendChunks may chunk (frameCount lpdu.length chunk) lpdu { s with
      state := { s.state with
        hdlcLimits := { s.state.hdlcLimits with maximumInformationFieldSize := limit } } }

/-- `SendApdu`. -/
def sendApdu (apdu : ProfileByteView) : Throwing (State L) Unit := fun s =>
  if isValidByteView apdu = false then (.fail (.status .invalidArgument), s)
  else if s.state.options.maximumApduSize ≠ 0 ∧ s.state.options.maximumApduSize < apdu.size then
    (.fail (.status .payloadTooLarge), s)
  else
    let encoded := encodeApdu L s.state.options apdu.data
    if mapLlcStatus encoded.1 ≠ .ok then (.fail (.status (mapLlcStatus encoded.1)), s)
    else if s.state.options.hdlcUseSession then sendSessionInformation may encoded.2 s
    -- Without a session no frame is awaited, so there is nothing to copy.
    else safely (buildFrame encoded.2 >>= writeFrameBytes) s

/-- `DecodeCompleteInformationToPendingApdu`. Once the APDU is decoded and small
    enough it is queued, inside a handler. -/
def decodeCompleteInformationToPendingApdu (frame : L.Frame) : Throwing (State L) Unit := fun s =>
  let decoded := L.decodeLpdu frame.information false
  if mapLlcStatus decoded.1 ≠ .ok ∨
      s.state.options.maximumApduSize ≠ 0 ∧
        s.state.options.maximumApduSize < decoded.2.length then
    safely (Hdlc.decodeCompleteInformationToPendingApdu frame) s
  else
    -- The handler of the source clears the whole queue, not only what it was adding.
    guarded dropApdus .internalError (do
      mayThrowIf (may .pendingApdu)
      safely (Hdlc.decodeCompleteInformationToPendingApdu frame)) s

/-- What `DecodeFrameToPendingApdu` does with a frame the reassembler has let
    through. -/
def acceptCompleted (completed : L.Frame) (hasCompleted : Bool) : Throwing (State L) Unit := do
  safely (sessionReceive completed)
  if !hasCompleted || completed.information.isEmpty then pure ()
  else
    decodeCompleteInformationToPendingApdu may completed
    -- The RR goes out only if the queue has taken the APDU.
    safely (sendSessionReceiveReady true)

/-- `DecodeFrameToPendingApdu`. -/
def decodeFrameToPendingApdu (frame : L.Frame) : Throwing (State L) Unit := fun s =>
  if s.state.options.hdlcUseSession = false then
    if frame.segmented then (.fail (.status .unsupportedFeature), s)
    else decodeCompleteInformationToPendingApdu may frame s
  else
    -- The reassembler and the session are the library's, and are taken not to throw.
    let pushed := L.pushFrame s.state.reassembler frame
    let status := mapHdlcStatus pushed.1
    let reassembled (r : L.Reassembler) : Faulty (State L) :=
      { s with state := { s.state with reassembler := r } }
    if status = .needMoreData then (.fail (.status .needMoreData), reassembled pushed.2.2)
    else if status ≠ .ok then
      (.fail (.status status), reassembled (L.resetReassembler pushed.2.2))
    else acceptCompleted may pushed.2.1.1 pushed.2.1.2 (reassembled pushed.2.2)

/-- What the loop of `ReceiveNextApdu` does with a frame, and whether it was the
    last. -/
def handleFrame (frame : L.Frame) : Throwing (State L) Bool :=
  handle (decodeFrameToPendingApdu may frame)
    (fun _ => safely (gets fun s => !s.pendingApdus.isEmpty))
    (onStatus fun status =>
      if status = .needMoreData then pure false else fail (.status status))

/-- One turn of the loop of `ReceiveNextApdu`. -/
def receiveTurn : Throwing (State L) Bool := do
  let frame ← receiveDecodedFrame may
  handleFrame may frame

theorem shadows_queueFrame (frame : L.Frame) :
    Shadows .internalError (pushBack frame) (queueFrame may frame) :=
  shadows_site _ (shadows_safely _)

theorem forEach_pushBack (frames : List L.Frame) (s : State L) :
    forEach pushBack frames s =
      (.done (), { s with pendingHdlcFrames := s.pendingHdlcFrames ++ frames }) := by
  -- On the frames, each appended behind those already there.
  induction frames generalizing s with
  | nil =>
      rw [List.append_nil]
      rfl
  | cons frame frames ih =>
      have hpush : pushBack frame s =
          (.done (), { s with pendingHdlcFrames := s.pendingHdlcFrames ++ [frame] }) := rfl
      rw [forEach, bind_of_done _ hpush, ih]
      simp only [List.append_assoc, List.singleton_append]

theorem shadows_handOut (frame : L.Frame) (frames : List L.Frame) :
    Shadows .internalError
      ((do
        forEach pushBack frames
        pure frame) : Call L L.Frame)
      (handOut may frame frames) :=
  -- One site for each frame queued, and one for the copy of the first.
  shadows_bind (shadows_forEach (shadows_queueFrame may) frames) fun _ =>
    shadows_site (may .firstFrame) (shadows_pure frame)

section Loop

variable {e : ReadEvent} {rest : List ReadEvent} {s : State L}

/-- The loop over one more read, told by what becomes of the read. -/
theorem sites_readFailed (h : e.status ≠ .ok) (faults sites : List Bool) :
    receiveDecodedFrameLoop may (e :: rest) ⟨s, faults, sites⟩ =
      (.fail (.status (mapTransportStatus e.status)), ⟨afterRead e rest s, faults, sites⟩) := by
  have hne : mapTransportStatus e.status ≠ .ok := fun hc => h (mapTransportStatus_eq_ok.mp hc)
  conv_lhs => simp only [receiveDecodedFrameLoop]
  exact if_pos hne

theorem sites_readEmpty (h : e.status = .ok) (he : e.bytes = []) (faults sites : List Bool) :
    receiveDecodedFrameLoop may (e :: rest) ⟨s, faults, sites⟩ =
      (.fail (.status .needMoreData), ⟨afterRead e rest s, faults, sites⟩) := by
  have hok : ¬ mapTransportStatus e.status ≠ .ok := fun hc => hc (mapTransportStatus_eq_ok.mpr h)
  conv_lhs => simp only [receiveDecodedFrameLoop]
  rw [if_neg hok, if_pos he]

theorem sites_noFrame (h : e.status = .ok) (he : e.bytes ≠ [])
    (hp : mapHdlcStatus (L.push s.decoder e.bytes).1 = .ok)
    (hf : (L.push s.decoder e.bytes).2.1 = []) (faults sites : List Bool) :
    receiveDecodedFrameLoop may (e :: rest) ⟨s, faults, sites⟩ =
      (.fail (.status .needMoreData),
        ⟨{ afterRead e rest s with decoder := (L.push s.decoder e.bytes).2.2 }, faults,
          sites⟩) := by
  have hok : ¬ mapTransportStatus e.status ≠ .ok := fun hc => hc (mapTransportStatus_eq_ok.mpr h)
  conv_lhs => simp only [receiveDecodedFrameLoop]
  rw [if_neg hok, if_neg he, if_pos hp, hf]

theorem sites_completed {frame : L.Frame} {frames : List L.Frame} (h : e.status = .ok)
    (he : e.bytes ≠ []) (hp : mapHdlcStatus (L.push s.decoder e.bytes).1 = .ok)
    (hf : (L.push s.decoder e.bytes).2.1 = frame :: frames) (faults sites : List Bool) :
    receiveDecodedFrameLoop may (e :: rest) ⟨s, faults, sites⟩ = handOut may frame frames
      ⟨{ afterRead e rest s with decoder := (L.push s.decoder e.bytes).2.2 }, faults,
        sites⟩ := by
  have hok : ¬ mapTransportStatus e.status ≠ .ok := fun hc => hc (mapTransportStatus_eq_ok.mpr h)
  conv_lhs => simp only [receiveDecodedFrameLoop]
  rw [if_neg hok, if_neg he, if_pos hp, hf]

theorem sites_continued (h : e.status = .ok) (he : e.bytes ≠ [])
    (hm : mapHdlcStatus (L.push s.decoder e.bytes).1 = .needMoreData)
    (faults sites : List Bool) :
    receiveDecodedFrameLoop may (e :: rest) ⟨s, faults, sites⟩ = receiveDecodedFrameLoop may rest
      ⟨{ afterRead e rest s with decoder := (L.push s.decoder e.bytes).2.2 }, faults,
        sites⟩ := by
  have hok : ¬ mapTransportStatus e.status ≠ .ok := fun hc => hc (mapTransportStatus_eq_ok.mpr h)
  have hp : mapHdlcStatus (L.push s.decoder e.bytes).1 ≠ .ok := by
    rw [hm]
    exact ProfileStatus.noConfusion
  conv_lhs => simp only [receiveDecodedFrameLoop]
  rw [if_neg hok, if_neg he, if_neg hp, if_neg (not_not_intro hm)]

theorem sites_rejected (h : e.status = .ok) (he : e.bytes ≠ [])
    (hp : mapHdlcStatus (L.push s.decoder e.bytes).1 ≠ .ok)
    (hm : mapHdlcStatus (L.push s.decoder e.bytes).1 ≠ .needMoreData)
    (faults sites : List Bool) :
    receiveDecodedFrameLoop may (e :: rest) ⟨s, faults, sites⟩ =
      (.fail (.status (mapHdlcStatus (L.push s.decoder e.bytes).1)),
        ⟨{ afterRead e rest s with decoder := L.resetDecoder (L.push s.decoder e.bytes).2.2 },
          faults, sites⟩) := by
  have hok : ¬ mapTransportStatus e.status ≠ .ok := fun hc => hc (mapTransportStatus_eq_ok.mpr h)
  conv_lhs => simp only [receiveDecodedFrameLoop]
  rw [if_neg hok, if_neg he, if_neg hp, if_pos hm]

end Loop

theorem shadows_receiveDecodedFrameLoop (reads : List ReadEvent) :
    Shadows .internalError (Hdlc.receiveDecodedFrameLoop reads : Call L L.Frame)
      (receiveDecodedFrameLoop may reads) := by
  -- On the reads, with the cases of the loop in the order in which it makes them.
  induction reads with
  | nil => exact shadows_safely _
  | cons e rest ih =>
      intro s
      by_cases hok : e.status = .ok
      swap
      · exact (shadows_fail (mapTransportStatus e.status) (afterRead e rest s)).congr
          (loop_readFailed hok) (sites_readFailed may hok)
      by_cases he : e.bytes = []
      · exact (shadows_fail .needMoreData (afterRead e rest s)).congr (loop_readEmpty hok he)
          (sites_readEmpty may hok he)
      by_cases hst : mapHdlcStatus (L.push s.decoder e.bytes).1 = .ok
      · rcases hf : (L.push s.decoder e.bytes).2.1 with _ | ⟨frame, frames⟩
        · exact (shadows_fail .needMoreData { afterRead e rest s with
            decoder := (L.push s.decoder e.bytes).2.2 }).congr (loop_noFrame hok he hst hf)
              (sites_noFrame may hok he hst hf)
        -- The first frame is handed out once the others are in the queue.
        · refine (shadows_handOut may frame frames { afterRead e rest s with
            decoder := (L.push s.decoder e.bytes).2.2 }).congr ?_
              (sites_completed may hok he hst hf)
          rw [loop_completed hok he hst hf, bind_of_done _ (forEach_pushBack _ _)]
          rfl
      by_cases hm : mapHdlcStatus (L.push s.decoder e.bytes).1 = .needMoreData
      · exact (ih { afterRead e rest s with decoder := (L.push s.decoder e.bytes).2.2 }).congr
          (loop_continued hok he hm) (sites_continued may hok he hm)
      · exact (shadows_fail (mapHdlcStatus (L.push s.decoder e.bytes).1) { afterRead e rest s with
          decoder := L.resetDecoder (L.push s.decoder e.bytes).2.2 }).congr
            (loop_rejected hok he hst hm) (sites_rejected may hok he hst hm)

theorem shadows_receiveDecodedFrame :
    Shadows .internalError (Hdlc.receiveDecodedFrame : Call L L.Frame)
      (receiveDecodedFrame may) := by
  intro s
  rcases hp : s.pendingHdlcFrames with _ | ⟨frame, frames⟩
  -- Nothing is pending, so the stream is read.
  · by_cases hb : s.readBufferSize = 0
    · refine (shadows_fail .invalidArgument s).congr ?_ fun faults sites => ?_
      · exact receiveDecodedFrame_of_noBuffer hp hb
      · simp only [receiveDecodedFrame, hp]
        exact if_pos hb
    · refine (shadows_receiveDecodedFrameLoop may s.reads s).congr
        (receiveDecodedFrame_of_empty hp hb) fun faults sites => ?_
      simp only [receiveDecodedFrame, hp]
      exact if_neg hb
  -- A frame is pending, and the stream is left alone.
  · refine (shadows_site (may .frontFrame) (shadows_safely (popFront frame frames)) s).congr
      (receiveDecodedFrame_of_pending hp) fun faults sites => ?_
    simp only [receiveDecodedFrame, hp]

theorem shadows_receiveSessionControlFrame :
    Shadows .internalError (Hdlc.receiveSessionControlFrame : Call L Unit)
      (receiveSessionControlFrame may) :=
  shadows_bind (shadows_receiveDecodedFrame may) fun _ => shadows_safely _

theorem shadows_receiveSessionControlFrameWithRetry (bytes : List UInt8) :
    Shadows .internalError (Hdlc.receiveSessionControlFrameWithRetry bytes : Call L Unit)
      (receiveSessionControlFrameWithRetry may bytes) := by
  intro s
  refine (shadows_retry (shadows_receiveSessionControlFrame may) rfl
    (shadows_safely (beforeRetry bytes)) s.options.hdlcRetryCount.toNat s).congr ?_ fun _ _ => rfl
  rw [Hdlc.receiveSessionControlFrameWithRetry, retryLoop_eq]

theorem shadows_connectDataLink :
    Shadows .internalError (Hdlc.connectDataLink : Call L Unit) (connectDataLink may) :=
  shadows_bind (shadows_safely _) fun _ => shadows_bind (shadows_safely _) fun _ =>
    shadows_bind (shadows_safely _) fun _ => shadows_bind (shadows_safely _) fun _ =>
      shadows_bind (shadows_safely _) fun _ => shadows_bind (shadows_safely _) fun _ =>
        shadows_receiveSessionControlFrameWithRetry may _

theorem shadows_acceptDataLink :
    Shadows .internalError (Hdlc.acceptDataLink : Call L Unit) (acceptDataLink may) :=
  shadows_bind (shadows_safely _) fun _ => shadows_bind (shadows_safely _) fun _ =>
    shadows_bind (shadows_safely _) fun _ => shadows_bind (shadows_safely _) fun _ =>
      shadows_bind (shadows_receiveSessionControlFrame may) fun _ =>
        shadows_bind (shadows_safely _) fun _ => shadows_safely _

theorem shadows_disconnectDataLink :
    Shadows .internalError (Hdlc.disconnectDataLink : Call L Unit) (disconnectDataLink may) :=
  shadows_bind (shadows_safely _) fun _ => shadows_bind (shadows_safely _) fun _ =>
    shadows_bind (shadows_safely _) fun _ => shadows_bind (shadows_safely _) fun _ =>
      shadows_receiveSessionControlFrameWithRetry may _

theorem shadows_awaitWindow :
    Shadows .internalError (Hdlc.awaitWindow : Call L Unit) (awaitWindow may) := by
  intro s
  -- A window that is open costs no read, and one that is full a wait that may throw.
  by_cases hcan : L.canSendInformationFrame s.session = true
  · refine (shadows_pure () s).congr ?_ fun faults sites => ?_
    · exact if_pos hcan
    · exact if_pos hcan
  · refine (shadows_receiveSessionControlFrame may s).congr ?_ fun faults sites => ?_
    · exact if_neg hcan
    · exact if_neg hcan

theorem shadows_emitChunk (chunk : List UInt8) (finalFrame : Bool) :
    Shadows .internalError
      ((do
        let before ← gets (·.session)
        let frameBytes ← buildSessionInformationFrame chunk (!finalFrame) finalFrame
        log (.emit before frameBytes)
        writeFrameBytes frameBytes
        Hdlc.receiveSessionControlFrameWithRetry frameBytes) : Call L Unit)
      (emitChunk may chunk finalFrame) :=
  shadows_bind (shadows_safely _) fun _ => shadows_bind (shadows_safely _) fun _ =>
    shadows_bind (shadows_safely _) fun _ => shadows_bind (shadows_safely _) fun _ =>
      shadows_receiveSessionControlFrameWithRetry may _

theorem shadows_sendChunk (chunk : List UInt8) (finalFrame : Bool) :
    Shadows .internalError (Hdlc.sendChunk chunk finalFrame : Call L Unit)
      (sendChunk may chunk finalFrame) :=
  shadows_bind (shadows_awaitWindow may) fun _ => shadows_emitChunk may chunk finalFrame

theorem shadows_sendChunks (chunkSize left : Nat) (remaining : List UInt8) :
    Shadows .internalError (Hdlc.sendChunks chunkSize left remaining : Call L Unit)
      (sendChunks may chunkSize left remaining) := by
  -- On the chunks left.
  induction left generalizing remaining with
  | zero => exact shadows_pure ()
  | succ left ih => exact shadows_bind (shadows_sendChunk may _ _) fun _ => ih _

theorem shadows_sendSessionInformation (lpdu : List UInt8) :
    Shadows .internalError (Hdlc.sendSessionInformation lpdu : Call L Unit)
      (sendSessionInformation may lpdu) := by
  intro s
  by_cases hconnected : L.sessionState s.session ≠ .connected
  · refine (shadows_fail .notOpen s).congr ?_ fun faults sites => ?_
    · exact if_pos hconnected
    · exact if_pos hconnected
  -- The limit is set before the first chunk, in both alike.
  · let limit := (L.negotiatedLimits s.session).maxInformationFieldLengthTransmit
    let chunk := chunkSize limit lpdu.length
    refine (shadows_sendChunks may chunk (frameCount lpdu.length chunk) lpdu { s with
      hdlcLimits := { s.hdlcLimits with maximumInformationFieldSize := limit } }).congr ?_
        fun faults sites => ?_
    · exact if_neg hconnected
    · exact if_neg hconnected

theorem shadows_sendApdu (apdu : ProfileByteView) :
    Shadows .internalError (Hdlc.sendApdu apdu : Call L Unit) (sendApdu may apdu) := by
  intro s
  -- The checks of the source in their order. Only in session mode is a frame awaited.
  by_cases hvalid : isValidByteView apdu = false
  · refine (shadows_fail .invalidArgument s).congr ?_ fun faults sites => ?_
    · exact if_pos hvalid
    · exact if_pos hvalid
  by_cases hlarge : s.options.maximumApduSize ≠ 0 ∧ s.options.maximumApduSize < apdu.size
  · refine (shadows_fail .payloadTooLarge s).congr ?_ fun faults sites => ?_
    · exact (if_neg hvalid).trans (if_pos hlarge)
    · exact (if_neg hvalid).trans (if_pos hlarge)
  by_cases henc : mapLlcStatus (encodeApdu L s.options apdu.data).1 ≠ .ok
  · refine (shadows_fail (mapLlcStatus (encodeApdu L s.options apdu.data).1) s).congr ?_
      fun faults sites => ?_
    · exact (if_neg hvalid).trans ((if_neg hlarge).trans (if_pos henc))
    · exact (if_neg hvalid).trans ((if_neg hlarge).trans (if_pos henc))
  by_cases huse : s.options.hdlcUseSession = true
  · refine (shadows_sendSessionInformation may (encodeApdu L s.options apdu.data).2 s).congr ?_
      fun faults sites => ?_
    · exact (if_neg hvalid).trans ((if_neg hlarge).trans ((if_neg henc).trans (if_pos huse)))
    · exact (if_neg hvalid).trans ((if_neg hlarge).trans ((if_neg henc).trans (if_pos huse)))
  · refine (shadows_safely (buildFrame (encodeApdu L s.options apdu.data).2 >>= writeFrameBytes)
      s).congr ?_ fun faults sites => ?_
    · exact (if_neg hvalid).trans ((if_neg hlarge).trans ((if_neg henc).trans (if_neg huse)))
    · exact (if_neg hvalid).trans ((if_neg hlarge).trans ((if_neg henc).trans (if_neg huse)))

theorem shadows_decodeComplete (frame : L.Frame) :
    Shadows .internalError (Hdlc.decodeCompleteInformationToPendingApdu frame : Call L Unit)
      (decodeCompleteInformationToPendingApdu may frame) := by
  intro s
  by_cases hrefused : mapLlcStatus (L.decodeLpdu frame.information false).1 ≠ .ok ∨
      s.options.maximumApduSize ≠ 0 ∧
        s.options.maximumApduSize < (L.decodeLpdu frame.information false).2.length
  -- What is refused is refused before the handler is entered.
  · refine (shadows_safely _ s).congr rfl fun faults sites => ?_
    exact if_pos hrefused
  -- What is queued is queued inside it.
  · have hqueue : ShadowsAt .internalError (Hdlc.decodeCompleteInformationToPendingApdu frame)
        (guarded dropApdus .internalError (do
          mayThrowIf (may .pendingApdu)
          safely (Hdlc.decodeCompleteInformationToPendingApdu frame))) s :=
      shadowsAt_guarded (shadows_site (may .pendingApdu) (shadows_safely _) s)
    refine hqueue.congr rfl fun faults sites => ?_
    exact if_neg hrefused

theorem shadows_acceptCompleted (completed : L.Frame) (hasCompleted : Bool) :
    Shadows .internalError (Hdlc.acceptCompleted completed hasCompleted : Call L Unit)
      (acceptCompleted may completed hasCompleted) := by
  refine shadows_bind (shadows_safely _) fun _ => ?_
  -- A frame without information is accepted and leaves nothing to decode.
  split
  · exact shadows_pure ()
  · exact shadows_bind (shadows_decodeComplete may completed) fun _ => shadows_safely _

theorem shadows_decodeFrameToPendingApdu (frame : L.Frame) :
    Shadows .internalError (Hdlc.decodeFrameToPendingApdu frame : Call L Unit)
      (decodeFrameToPendingApdu may frame) := by
  intro s
  -- Without a session nothing is reassembled, and the frame itself is decoded.
  by_cases huse : s.options.hdlcUseSession = false
  · by_cases hseg : frame.segmented = true
    · refine (shadows_fail .unsupportedFeature s).congr ?_ fun faults sites => ?_
      · exact (if_pos huse).trans (if_pos hseg)
      · exact (if_pos huse).trans (if_pos hseg)
    · refine (shadows_decodeComplete may frame s).congr ?_ fun faults sites => ?_
      · exact (if_pos huse).trans (if_neg hseg)
      · exact (if_pos huse).trans (if_neg hseg)
  -- In session mode the reassembler has the first word.
  by_cases hmore : mapHdlcStatus (L.pushFrame s.reassembler frame).1 = .needMoreData
  · refine (shadows_fail .needMoreData
      (reassembling (L.pushFrame s.reassembler frame).2.2 s)).congr ?_ fun faults sites => ?_
    · exact (if_neg huse).trans (if_pos hmore)
    · exact (if_neg huse).trans (if_pos hmore)
  by_cases hne : mapHdlcStatus (L.pushFrame s.reassembler frame).1 ≠ .ok
  · refine (shadows_fail (mapHdlcStatus (L.pushFrame s.reassembler frame).1)
      (reassembling (L.resetReassembler (L.pushFrame s.reassembler frame).2.2) s)).congr ?_
        fun faults sites => ?_
    · exact (if_neg huse).trans ((if_neg hmore).trans (if_pos hne))
    · exact (if_neg huse).trans ((if_neg hmore).trans (if_pos hne))
  · refine (shadows_acceptCompleted may (L.pushFrame s.reassembler frame).2.1.1
      (L.pushFrame s.reassembler frame).2.1.2
      (reassembling (L.pushFrame s.reassembler frame).2.2 s)).congr ?_ fun faults sites => ?_
    · exact (if_neg huse).trans ((if_neg hmore).trans (if_neg hne))
    · exact (if_neg huse).trans ((if_neg hmore).trans (if_neg hne))

theorem shadows_handleFrame (frame : L.Frame) :
    Shadows .internalError (Hdlc.handleFrame frame : Call L Bool) (handleFrame may frame) := by
  intro s
  -- `NeedMoreData` has the loop go on. Every other failure ends it.
  have hgoesOn : ∀ status : ProfileStatus, Shadows .internalError
      (if status = .needMoreData then pure false else fail status : Call L Bool)
      (if status = .needMoreData then pure false else fail (.status status)) := by
    intro status
    split
    · exact shadows_pure false
    · exact shadows_fail status
  refine (shadowsAt_handle (shadows_decodeFrameToPendingApdu may frame s)
    (fun _ s1 _ => shadows_safely (gets fun s => !s.pendingApdus.isEmpty) s1)
    (fun status s1 _ => hgoesOn status s1) fun t => rfl).congr ?_ fun faults sites => rfl
  rcases hd : Hdlc.decodeFrameToPendingApdu frame s with ⟨⟨⟩ | status | _, s1⟩
  · rw [handleFrame_of_done hd, handle, hd]
    rfl
  · by_cases hmore : status = .needMoreData
    · subst hmore
      rw [handleFrame_of_more hd, handle, hd]
      rfl
    · rw [handleFrame_of_fail hd hmore, handle, hd]
      simp only [if_neg hmore]
      rfl
  · rw [handleFrame_of_waiting hd, handle, hd]

theorem shadows_receiveTurn :
    Shadows .internalError (Hdlc.receiveTurn : Call L Bool) (receiveTurn may) :=
  shadows_bind (shadows_receiveDecodedFrame may) (shadows_handleFrame may)

/-- `ReceiveNextApdu`. -/
def receiveNextApdu : Throwing (State L) Unit :=
  repeatUntil (fun s => (incoming s.state).length) (receiveTurn may) fun s _ h =>
    receiveTurn_incoming_lt ((shadows_receiveTurn may s.state).done h)

theorem shadows_receiveNextApdu :
    Shadows .internalError (Hdlc.receiveNextApdu : Call L Unit) (receiveNextApdu may) :=
  shadows_repeatUntil (shadows_receiveTurn may)

/-- `while (pendingApdus_.empty())`, common to both overloads. -/
def awaitApdu : Throwing (State L) Unit :=
  pending.awaiting (fun s => (incoming s).length) (receiveNextApdu may)
    (PendingQueue.size_of_shadows (fun _ _ => receiveNextApdu_incoming_lt)
      (shadows_receiveNextApdu may))

theorem shadows_awaitApdu :
    Shadows .internalError (Hdlc.awaitApdu : Call L Unit) (awaitApdu may) :=
  PendingQueue.shadows_awaiting (shadows_receiveNextApdu may)

/-- The calls of the channel, where something can go wrong at the given sites only. -/
def call : Operation → Throwing (State L) Unit
  | .open => safely openStream
  | .close => safely closeStream
  | .isOpen => safely (isOpen >>= fun _ => pure ())
  | .connectDataLink => connectDataLink may
  | .acceptDataLink => acceptDataLink may
  | .disconnectDataLink => disconnectDataLink may
  | .send apdu => sendApdu may apdu
  | .receive call => pending.receiving (may .output) (awaitApdu may) call

/-- A call with its sites shadows the call. -/
theorem shadows_call (op : Operation) :
    Shadows .internalError (answer op : Call L Unit) (call may op) := by
  cases op with
  | «open» => exact shadows_safely _
  | close => exact shadows_safely _
  | isOpen => exact shadows_safely _
  | connectDataLink => exact shadows_connectDataLink may
  | acceptDataLink => exact shadows_acceptDataLink may
  | disconnectDataLink => exact shadows_disconnectDataLink may
  | send apdu => exact shadows_sendApdu may apdu
  | receive call => exact PendingQueue.shadows_receiving _ (shadows_awaitApdu may) call

end Throwing

end Hdlc

end DlmsProfile
