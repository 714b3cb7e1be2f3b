import DlmsProfile.Core.Pending
import DlmsProfile.Hdlc.Codec

/-!
# The HDLC Channel

`HdlcProfileChannel`, member by member and call by call, in the order of the
source. A call is a `Proc`: the first status that is not `Ok` ends it, unless
the source says otherwise, which it does in two places. The retry loop goes on
after a status worth retrying, and the receive loop goes on after
`NeedMoreData`.

This is the half that sends and that establishes the link. What it receives
are replies: the control-frame wait takes the next frame, shows it to the
session and forgets it, whatever the frame was.

The state carries a trace of what happened to the outside world and to the
session. No call reads it.

## Main definitions

* `Hdlc.Channel`, `Hdlc.State`: The object, and the object in its surroundings.
* `Hdlc.Event`: What a trace records.
* `Hdlc.receiveDecodedFrame`: The next frame, from the queue or the stream.
* `Hdlc.receiveSessionControlFrameWithRetry`: The wait for a reply.
* `Hdlc.connectDataLink`, `Hdlc.acceptDataLink`, `Hdlc.disconnectDataLink`: The
  link calls.
* `Hdlc.sendSessionInformation`: Segmentation and the wait after each segment.
* `Hdlc.sendApdu`: `SendApdu`.
-/

namespace DlmsProfile

namespace Hdlc

/-- The members of an `HdlcProfileChannel`, the read buffer by its size. -/
structure Channel (L : HdlcLib) where
  options : ApduChannelOptions
  hdlcLimits : HdlcCodecLimits
  decoder : L.Decoder
  reassembler : L.Reassembler
  session : L.Session
  readBufferSize : Nat
  pendingHdlcFrames : List L.Frame
  pendingApdus : List (List UInt8)

/-- What a trace records: calls to the transport and the timer, I-frames about
    to be written for the first time and frames shown to the session, each with
    the session as it stood before, and the fate of every information field
    that was decoded. -/
inductive Event (L : HdlcLib) where
  | transport (call : TransportCall)
  | sleepFor (milliseconds : UInt32) (status : TransportStatus)
  | emit (before : L.Session) (frameBytes : List UInt8)
  | receive (before : L.Session) (frame : L.Frame) (status : HdlcStatus)
  | queue (information : List UInt8) (apdu : List UInt8)
  | refuse (information : List UInt8) (status : ProfileStatus)

/-- A channel in its surroundings: what the transport and the timer will
    answer, and what has happened. -/
structure State (L : HdlcLib) extends Channel L where
  opens : List TransportStatus
  closes : List TransportStatus
  isOpens : List Bool
  reads : List ReadEvent
  writes : List TransportStatus
  sleeps : List TransportStatus
  trace : List (Event L)

variable {L : HdlcLib}

/-- A call of the channel. -/
abbrev Call (L : HdlcLib) (α : Type) : Type := Proc (State L) ProfileStatus α

/-- `MakeDefaultSessionOptions`. -/
def makeDefaultSessionOptions (L : HdlcLib) : L.SessionOptions where
  role := .client
  clientAddress := (L.makeClientAddress 0x10).2
  serverAddress := (L.makeServerAddress 0x01 0x00).2
  limits := L.defaultCodecLimits
  negotiationLimits := L.defaultNegotiationLimits

/-- `IsRetriableReceiveStatus`. -/
def isRetriableReceiveStatus (status : ProfileStatus) : Bool :=
  status == .wouldBlock || status == .timeout || status == .needMoreData

/-- The limits of `MakeHdlcSessionOptions`: the reassembly limit is raised to
    the largest APDU and its LLC header, never lowered. -/
def sessionLimits (L : HdlcLib) (options : ApduChannelOptions) : HdlcCodecLimits :=
  let limits := L.defaultCodecLimits
  let reassemblyLimit :=
    if options.maximumApduSize = 0 then limits.maximumReassembledInformationSize
    else sizeAdd options.maximumApduSize 3
  if limits.maximumReassembledInformationSize < reassemblyLimit then
    { limits with maximumReassembledInformationSize := reassemblyLimit }
  else limits

/-- `MakeHdlcSessionOptions`: the two addresses may be refused. -/
def makeHdlcSessionOptions (L : HdlcLib) (options : ApduChannelOptions) :
    ProfileStatus × L.SessionOptions :=
  let client := L.makeClientAddress options.hdlcClientAddress
  let server :=
    L.makeServerAddress options.hdlcLogicalDeviceAddress options.hdlcPhysicalDeviceAddress
  let sessionOptions : L.SessionOptions :=
    { role := toHdlcSessionRole options.hdlcRole
      clientAddress := client.2
      serverAddress := server.2
      limits := sessionLimits L options
      negotiationLimits :=
        { maxInformationFieldLengthTransmit := options.hdlcMaxInformationFieldLengthTransmit
          maxInformationFieldLengthReceive := options.hdlcMaxInformationFieldLengthReceive
          windowSizeTransmit := options.hdlcWindowSizeTransmit
          windowSizeReceive := options.hdlcWindowSizeReceive } }
  if mapHdlcStatus client.1 ≠ .ok then (mapHdlcStatus client.1, sessionOptions)
  else (mapHdlcStatus server.1, sessionOptions)

/-- The constructors, which differ in the timer only. -/
def newChannel (L : HdlcLib) (options : ApduChannelOptions) : Channel L :=
  let made := makeHdlcSessionOptions L options
  -- Options that make no session leave the defaults here; `EnsureSession` reports the status.
  let sessionOptions := if made.1 = .ok then made.2 else makeDefaultSessionOptions L
  { options := options
    hdlcLimits := sessionOptions.limits
    decoder := L.newDecoder sessionOptions.limits
    reassembler := L.newReassembler sessionOptions.limits
    session := L.newSession sessionOptions
    readBufferSize := scratchSize options
    pendingHdlcFrames := []
    pendingApdus := [] }

/-- Record an event. -/
def log (event : Event L) : Call L Unit :=
  Proc.modify fun s => { s with trace := s.trace ++ [event] }

/-- Return early unless the condition holds. -/
def require (condition : State L → Bool) (status : ProfileStatus) : Call L Unit := fun s =>
  if condition s then (.done (), s) else (.fail status, s)

/-- A call of the HDLC library that changes no object of the channel, its
    status mapped and checked. -/
def checked {α : Type} (result : HdlcStatus × α) : Call L α := fun s =>
  if mapHdlcStatus result.1 = .ok then (.done result.2, s)
  else (.fail (mapHdlcStatus result.1), s)

/-- A frame built by the session, its status mapped and checked. -/
def sessionBuild (build : L.Session → HdlcStatus × List UInt8 × L.Session) :
    Call L (List UInt8) := fun s =>
  checked ((build s.session).1, (build s.session).2.1)
    { s with session := (build s.session).2.2 }

/-- `session_.ReceiveFrame`, its status mapped and checked. -/
def sessionReceive (frame : L.Frame) : Call L Unit := fun s =>
  let received := L.receiveFrame s.session frame
  check (mapHdlcStatus received.1)
    { s with session := received.2, trace := s.trace ++ [.receive s.session frame received.1] }

/-- `Open`. -/
def openStream : Call L Unit := fun s =>
  check (mapTransportStatus (s.opens.headD .ok))
    { s with
      opens := s.opens.tail
      trace := s.trace ++ [.transport (.open (s.opens.headD .ok))] }

/-- `Close`: the decoder, the reassembler and both queues go, then the stream. -/
def closeStream : Call L Unit := fun s =>
  check (mapTransportStatus (s.closes.headD .ok))
    { s with
      decoder := L.resetDecoder s.decoder
      reassembler := L.resetReassembler s.reassembler
      pendingHdlcFrames := []
      pendingApdus := []
      closes := s.closes.tail
      trace := s.trace ++ [.transport (.close (s.closes.headD .ok))] }

/-- `IsOpen`. -/
def isOpen : Call L Bool := fun s =>
  (.done (s.isOpens.headD true),
    { s with
      isOpens := s.isOpens.tail
      trace := s.trace ++ [.transport (.isOpen (s.isOpens.headD true))] })

/-- `if (!IsOpen()) return NotOpen;` -/
def requireOpen : Call L Unit := do
  if ← isOpen then pure () else Proc.fail .notOpen

/-- `EnsureSession`: a disconnected session is made anew, and the decoder, the
    reassembler and the frame queue with it. -/
def ensureSession : Call L Unit := fun s =>
  let made := makeHdlcSessionOptions L s.options
  if made.1 ≠ .ok then (.fail made.1, s)
  -- The APDUs queued so far stay, and so does a session in any other state.
  else if L.sessionState s.session = .disconnected then
    (.done (), { s with
      session := L.newSession made.2
      hdlcLimits := made.2.limits
      decoder := L.newDecoder made.2.limits
      reassembler := L.newReassembler made.2.limits
      pendingHdlcFrames := [] })
  else (.done (), s)

/-- `WriteFrameBytes`. -/
def writeFrameBytes (frameBytes : List UInt8) : Call L Unit := fun s =>
  check (mapTransportStatus (s.writes.headD .ok))
    { s with
      writes := s.writes.tail
      trace := s.trace ++ [.transport (.write frameBytes (s.writes.headD .ok))] }

/-- `SleepBeforeRetry`. -/
def sleepBeforeRetry : Call L Unit := fun s =>
  if s.options.hdlcRetryDelayMilliseconds = 0 then (.done (), s)
  else
    check (mapTransportStatus (s.sleeps.headD .ok))
      { s with
        sleeps := s.sleeps.tail
        trace := s.trace ++
          [.sleepFor s.options.hdlcRetryDelayMilliseconds (s.sleeps.headD .ok)] }

/-- The state once `ReadSome` has answered `e`. -/
def afterRead (e : ReadEvent) (rest : List ReadEvent) (s : State L) : State L :=
  { s with reads := rest, trace := s.trace ++ [.transport (.read e)] }

/-- The loop of `ReceiveDecodedFrame` over the reads to come. -/
def receiveDecodedFrameLoop : List ReadEvent → State L → Outcome ProfileStatus L.Frame × State L
  | [], s => (.waiting, { s with reads := [] })
  | e :: rest, s =>
    let readStatus := mapTransportStatus e.status
    let pushed := L.push s.decoder e.bytes
    let decodeStatus := mapHdlcStatus pushed.1
    if readStatus ≠ .ok then (.fail readStatus, afterRead e rest s)
    -- A read of no bytes ends the call, and so does a push without a frame.
    else if e.bytes = [] then (.fail .needMoreData, afterRead e rest s)
    else if decodeStatus = .ok then
      match pushed.2.1 with
      | [] => (.fail .needMoreData, { afterRead e rest s with decoder := pushed.2.2 })
      | frame :: frames =>
        (.done frame, { afterRead e rest s with
          decoder := pushed.2.2
          pendingHdlcFrames := s.pendingHdlcFrames ++ frames })
    -- Only a frame that is not complete yet makes the call read on.
    else if decodeStatus ≠ .needMoreData then
      (.fail decodeStatus, { afterRead e rest s with decoder := L.resetDecoder pushed.2.2 })
    else receiveDecodedFrameLoop rest { afterRead e rest s with decoder := pushed.2.2 }

/-- `ReceiveDecodedFrame`. -/
def receiveDecodedFrame : Call L L.Frame := fun s =>
  match s.pendingHdlcFrames with
  | frame :: frames => (.done frame, { s with pendingHdlcFrames := frames })
  | [] =>
    if s.readBufferSize = 0 then (.fail .invalidArgument, s)
    else receiveDecodedFrameLoop s.reads s

/-- `ReceiveSessionControlFrame`. -/
def receiveSessionControlFrame : Call L Unit := do
  let frame ← receiveDecodedFrame
  sessionReceive frame

/-- The loop of `ReceiveSessionControlFrameWithRetry` with the given number of
    attempts left. The source counts attempts up to the retry count, which is a
    byte like the counter, so the counter never wraps. -/
def retryLoop (retryFrameBytes : List UInt8) : Nat → Call L Unit
  | 0 => receiveSessionControlFrame
  | left + 1 => fun s =>
    match receiveSessionControlFrame s with
    | (.done (), s1) => (.done (), s1)
    | (.waiting, s1) => (.waiting, s1)
    | (.fail status, s1) =>
      if isRetriableReceiveStatus status = false then (.fail status, s1)
      else
        (do
          sleepBeforeRetry
          writeFrameBytes retryFrameBytes
          retryLoop retryFrameBytes left) s1

section Retry

variable {retryFrameBytes : List UInt8} {left : Nat} {s s1 : State L} {status : ProfileStatus}

theorem retryLoop_of_done (h : receiveSessionControlFrame s = (.done (), s1)) :
    retryLoop retryFrameBytes left s = (.done (), s1) := by
  cases left with
  | zero => exact h
  | succ left => simp only [retryLoop, h]

theorem retryLoop_of_waiting (h : receiveSessionControlFrame s = (.waiting, s1)) :
    retryLoop retryFrameBytes left s = (.waiting, s1) := by
  cases left with
  | zero => exact h
  | succ left => simp only [retryLoop, h]

/-- A status not worth retrying, or no attempt left. -/
theorem retryLoop_of_fail (h : receiveSessionControlFrame s = (.fail status, s1))
    (hlast : isRetriableReceiveStatus status = false ∨ left = 0) :
    retryLoop retryFrameBytes left s = (.fail status, s1) := by
  cases left with
  | zero => exact h
  | succ left =>
      rcases hlast with hlast | hlast
      · simp only [retryLoop, h, hlast, if_true]
      · cases hlast

theorem retryLoop_of_retry (h : receiveSessionControlFrame s = (.fail status, s1))
    (hagain : isRetriableReceiveStatus status = true) :
    retryLoop retryFrameBytes (left + 1) s =
      (sleepBeforeRetry >>= fun _ => writeFrameBytes retryFrameBytes >>= fun _ =>
        retryLoop retryFrameBytes left) s1 := by
  simp only [retryLoop, h, hagain, Bool.true_eq_false, if_false]

end Retry

/-- `ReceiveSessionControlFrameWithRetry`. -/
def receiveSessionControlFrameWithRetry (retryFrameBytes : List UInt8) : Call L Unit := fun s =>
  retryLoop retryFrameBytes s.options.hdlcRetryCount.toNat s

/-- `ConnectDataLink`. -/
def connectDataLink : Call L Unit := do
  require (·.options.hdlcUseSession) .unsupportedFeature
  requireOpen
  require (·.options.hdlcRole == .client) .unsupportedFeature
  ensureSession
  let frameBytes ← sessionBuild L.buildConnectRequest
  writeFrameBytes frameBytes
  receiveSessionControlFrameWithRetry frameBytes

/-- `AcceptDataLink`. -/
def acceptDataLink : Call L Unit := do
  require (·.options.hdlcUseSession) .unsupportedFeature
  requireOpen
  require (·.options.hdlcRole == .server) .unsupportedFeature
  ensureSession
  -- A server writes nothing before the SNRM, so there is nothing to retry with.
  receiveSessionControlFrame
  let frameBytes ← sessionBuild L.buildConnectResponse
  writeFrameBytes frameBytes

/-- `DisconnectDataLink`. -/
def disconnectDataLink : Call L Unit := do
  require (·.options.hdlcUseSession) .unsupportedFeature
  requireOpen
  let frameBytes ← sessionBuild L.buildDisconnectRequest
  writeFrameBytes frameBytes
  receiveSessionControlFrameWithRetry frameBytes

/-- `BuildSessionInformationFrame`: the session numbers the frame, and a
    segment is decoded and encoded again with the segmentation bit set. -/
def buildSessionInformationFrame (information : List UInt8) (segmented pollFinal : Bool) :
    Call L (List UInt8) := do
  let frameBytes ← sessionBuild fun session =>
    L.buildInformationFrame session information pollFinal
  if segmented then
    let limits ← Proc.gets (·.hdlcLimits)
    let decoded ← checked (L.decodeFrame frameBytes limits)
    checked (L.encodeFrame { decoded with segmented := true } limits)
  else pure frameBytes

/-- `BuildFrame`, for a channel without a session. -/
def buildFrame (lpdu : List UInt8) : Call L (List UInt8) := do
  let options ← Proc.gets (·.options)
  let limits ← Proc.gets (·.hdlcLimits)
  let clientAddress ← checked (L.makeClientAddress options.hdlcClientAddress)
  let serverAddress ← checked
    (L.makeServerAddress options.hdlcLogicalDeviceAddress options.hdlcPhysicalDeviceAddress)
  -- The control field of an I-frame numbered 0 with the poll bit, for every frame.
  let control ← checked (L.decodeControl 0x10)
  let toClient := options.hdlcDirection == .serverToClient
  checked (L.encodeFrame
    { segmented := false
      destination := if toClient then clientAddress else serverAddress
      source := if toClient then serverAddress else clientAddress
      control := control
      information := lpdu } limits)

/-- `if (!session_.CanSendInformationFrame())`: a full window waits for one
    frame, without retrying. -/
def awaitWindow : Call L Unit := fun s =>
  if L.canSendInformationFrame s.session then (.done (), s) else receiveSessionControlFrame s

/-- One turn of the loop of `SendSessionInformation`. -/
def sendChunk (chunk : List UInt8) (finalFrame : Bool) : Call L Unit := do
  awaitWindow
  let before ← Proc.gets (·.session)
  let frameBytes ← buildSessionInformationFrame chunk (!finalFrame) finalFrame
  log (.emit before frameBytes)
  writeFrameBytes frameBytes
  receiveSessionControlFrameWithRetry frameBytes

/-- The loop of `SendSessionInformation` with the given number of frames left,
    over the bytes from `offset` on. -/
def sendChunks (chunkSize : Nat) : Nat → List UInt8 → Call L Unit
  | 0, _ => pure ()
  | left + 1, remaining => do
    sendChunk (remaining.take chunkSize) (left == 0)
    sendChunks chunkSize left (remaining.drop chunkSize)

/-- The number of I-frames an LPDU is cut into, in `size_t` arithmetic. -/
def frameCount (lpduSize chunkSize : Nat) : Nat :=
  if lpduSize = 0 then 1 else sizeAdd lpduSize (chunkSize - 1) / chunkSize

/-- The size of a chunk: the negotiated length, or no cutting at all. -/
def chunkSize (limit lpduSize : Nat) : Nat := if limit = 0 then lpduSize else limit

/-- `SendSessionInformation`. -/
def sendSessionInformation (lpdu : List UInt8) : Call L Unit := fun s =>
  if L.sessionState s.session ≠ .connected then (.fail .notOpen, s)
  else
    let limit := (L.negotiatedLimits s.session).maxInformationFieldLengthTransmit
    -- The limit of the codec is set too, and it stays after the call.
    let chunk := chunkSize limit lpdu.length
    sendChunks chunk (frameCount lpdu.length chunk) lpdu
      { s with hdlcLimits := { s.hdlcLimits with maximumInformationFieldSize := limit } }

/-- `SendSessionReceiveReady`. -/
def sendSessionReceiveReady (pollFinal : Bool) : Call L Unit := do
  let frameBytes ← sessionBuild fun session => L.buildReceiveReadyFrame session pollFinal
  writeFrameBytes frameBytes

/-- The LPDU `SendApdu` puts an APDU into. -/
def encodeApdu (L : HdlcLib) (options : ApduChannelOptions) (apdu : List UInt8) :
    LlcStatus × List UInt8 :=
  L.encodeLpdu (L.makeLlcHeader (toLlcDirection options.hdlcDirection)) apdu

/-- `SendApdu`. -/
def sendApdu (apdu : ProfileByteView) : Call L Unit := fun s =>
  if isValidByteView apdu = false then (.fail .invalidArgument, s)
  else if s.options.maximumApduSize ≠ 0 ∧ s.options.maximumApduSize < apdu.size then
    (.fail .payloadTooLarge, s)
  else
    let encoded := encodeApdu L s.options apdu.data
    if mapLlcStatus encoded.1 ≠ .ok then (.fail (mapLlcStatus encoded.1), s)
    else if s.options.hdlcUseSession then sendSessionInformation encoded.2 s
    else (buildFrame encoded.2 >>= writeFrameBytes) s

end Hdlc

end DlmsProfile
