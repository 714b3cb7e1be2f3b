import DlmsProfile.Core.Pending
import DlmsProfile.Wrapper.Codec

/-!
# The Wrapper/TCP Channel

`WrapperTcpProfileChannel`, call by call. A channel is its options, its stream
decoder and the frames it has decoded but not yet handed out; the state of a
run adds the scripts of the transport and what has been done to it so far.

The two receive calls share one loop. It ends when a frame is pending, so a
push that completed several frames leaves the rest for later calls, and a call
that finds a frame pending never touches the transport.

## Main definitions

* `Tcp.Channel`, `Tcp.State`: The object, and the object in its surroundings.
* `Tcp.sendApdu`: `SendApdu`.
* `Tcp.receiveNextFrame`: `ReceiveNextFrame`.
* `Tcp.receiveApdu`, `Tcp.receiveApduInto`: The two overloads of `ReceiveApdu`.
* `Tcp.Reachable`: A channel operated on in any order over any transport.
* `Tcp.sendAll`: Sending a list of APDUs.

## Theorems

* `Tcp.receiveNextFrame_reads_lt`: A completed read leaves fewer to come.
-/

namespace DlmsProfile

namespace Tcp

inductive TraceDirection where
  | outbound
  | inbound
deriving DecidableEq, Repr

inductive TraceKind where
  | encodedFrame
  | decodedFrame
  | readStatus
  | decodeStatus
deriving DecidableEq, Repr

/-- `WrapperTcpTraceEvent`, its byte view replaced by the bytes. -/
structure TraceEvent where
  kind : TraceKind
  direction : TraceDirection
  status : ProfileStatus
  sourcePort : UInt16
  destinationPort : UInt16
  encodedSize : Nat
  apduSize : Nat
  bytes : List UInt8
  byteSize : Nat
deriving DecidableEq, Repr

/-- An event the sink was given, and how many calls of the transport had been
    answered by then. -/
structure Emitted where
  event : TraceEvent
  after : Nat
deriving DecidableEq, Repr

/-- `MakeTraceEvent`. -/
def makeTraceEvent (kind : TraceKind) (direction : TraceDirection) (status : ProfileStatus) :
    TraceEvent where
  kind := kind
  direction := direction
  status := status
  sourcePort := 0
  destinationPort := 0
  encodedSize := 0
  apduSize := 0
  bytes := []
  byteSize := 0

/-- The members of a `WrapperTcpProfileChannel`. The contents of the read
    buffer are never looked at before they are overwritten, so its size stands
    for it. -/
structure Channel (W : WrapperLib) where
  options : ApduChannelOptions
  wrapperLimits : WrapperCodecLimits
  decoder : W.Decoder
  readBufferSize : Nat
  pendingFrames : List WrapperFrame

/-- The constructor. -/
def newChannel (W : WrapperLib) (options : ApduChannelOptions) : Channel W where
  options := options
  wrapperLimits := makeWrapperLimits W options
  decoder := W.newDecoder (makeWrapperLimits W options)
  readBufferSize := scratchSize options
  pendingFrames := []

/-- A channel in its surroundings: what the transport will answer, the calls
    it has answered, and the events the trace sink was given. -/
structure State (W : WrapperLib) extends Channel W where
  opens : List TransportStatus
  closes : List TransportStatus
  reads : List ReadEvent
  writes : List TransportStatus
  calls : List TransportCall
  sink : List Emitted

variable {W : WrapperLib}

/-- A call of the channel. -/
abbrev Call (W : WrapperLib) (α : Type) : Type := Proc (State W) ProfileStatus α

/-- `EmitTrace`: the events the sink has seen, after one more was offered. -/
def emitTrace (sinkSet : Bool) (event : TraceEvent) (after : Nat) (sink : List Emitted) :
    List Emitted :=
  if sinkSet then sink ++ [⟨event, after⟩] else sink

/-- `stream_.WriteAll`, its status mapped and checked. -/
def writeAll (bytes : List UInt8) : Call W Unit := fun s =>
  check (mapTransportStatus (s.writes.headD .ok))
    { s with writes := s.writes.tail, calls := s.calls ++ [.write bytes (s.writes.headD .ok)] }

/-- `Open`. -/
def openStream : Call W Unit := fun s =>
  check (mapTransportStatus (s.opens.headD .ok))
    { s with opens := s.opens.tail, calls := s.calls ++ [.open (s.opens.headD .ok)] }

/-- `Close`: the decoder and the pending frames go, then the stream. -/
def closeStream : Call W Unit := fun s =>
  check (mapTransportStatus (s.closes.headD .ok))
    { s with
      decoder := W.reset s.decoder
      pendingFrames := []
      closes := s.closes.tail
      calls := s.calls ++ [.close (s.closes.headD .ok)] }

/-- `SendApdu`. -/
def sendApdu (apdu : ProfileByteView) : Call W Unit := fun s =>
  if isValidByteView apdu = false then (.fail .invalidArgument, s)
  else if s.options.maximumApduSize ≠ 0 ∧ s.options.maximumApduSize < apdu.size then
    (.fail .payloadTooLarge, s)
  else
    let frame : WrapperFrame :=
      { sourcePort := s.options.localWrapperPort
        destinationPort := s.options.remoteWrapperPort
        data := apdu.data }
    let encoded := W.encodeWpdu frame s.wrapperLimits
    if mapWrapperStatus encoded.1 ≠ .ok then (.fail (mapWrapperStatus encoded.1), s)
    else
      let event :=
        { makeTraceEvent .encodedFrame .outbound .ok with
          sourcePort := frame.sourcePort
          destinationPort := frame.destinationPort
          encodedSize := encoded.2.length
          apduSize := apdu.size
          bytes := encoded.2
          byteSize := encoded.2.length }
      writeAll encoded.2
        { s with
          sink := emitTrace s.options.wrapperTcpTraceSink event s.calls.length s.sink }

/-- `Ok` from `SendApdu`: the WPDU of the APDU was written, once and whole. -/
theorem sendApdu_done {apdu : ProfileByteView} {s s' : State W}
    (h : sendApdu apdu s = (.done (), s')) :
    ∃ frame wpdu, W.encodeWpdu frame s.wrapperLimits = (.ok, wpdu) ∧ frame.data = apdu.data ∧
      s'.calls = s.calls ++ [.write wpdu .ok] ∧ s'.wrapperLimits = s.wrapperLimits := by
  rw [sendApdu] at h
  -- Past the three checks the WPDU is built and written.
  split at h
  · cases h
  split at h
  · cases h
  simp only at h
  split at h
  · cases h
  next henc =>
    rw [not_not, mapWrapperStatus_eq_ok] at henc
    rw [writeAll, check_done_iff, mapTransportStatus_eq_ok] at h
    simp only at h
    rcases h with ⟨hwrite, rfl⟩
    exact ⟨_, _, Prod.ext henc rfl, rfl, by rw [hwrite], rfl⟩

/-- Sending never touches the receiving half. -/
theorem sendApdu_frame (apdu : ProfileByteView) (s : State W) :
    (sendApdu apdu s).2.toChannel = s.toChannel ∧ (sendApdu apdu s).2.reads = s.reads := by
  rw [sendApdu]
  split
  · exact ⟨rfl, rfl⟩
  split
  · exact ⟨rfl, rfl⟩
  simp only
  split
  · exact ⟨rfl, rfl⟩
  · rw [writeAll, check_snd]
    exact ⟨rfl, rfl⟩

/-- The event of one decoded frame. -/
def decodedEvent (frame : WrapperFrame) : TraceEvent :=
  { makeTraceEvent .decodedFrame .inbound .ok with
    sourcePort := frame.sourcePort
    destinationPort := frame.destinationPort
    apduSize := frame.data.length
    encodedSize := sizeAdd wrapperHeaderSize frame.data.length
    bytes := frame.data
    byteSize := frame.data.length }

/-- The event of a read or a decode that failed. -/
def failedEvent (kind : TraceKind) (status : ProfileStatus) (bytes : List UInt8) : TraceEvent :=
  { makeTraceEvent kind .inbound status with
    bytes := bytes
    byteSize := bytes.length }

/-- The loop of `ReceiveNextFrame` over the reads to come. -/
def receiveNextFrameLoop : List ReadEvent → State W → Outcome ProfileStatus Unit × State W
  | [], s => (.waiting, { s with reads := [] })
  | e :: rest, s =>
    let sinkSet := s.options.wrapperTcpTraceSink
    let readStatus := mapTransportStatus e.status
    let pushed := W.push s.decoder e.bytes
    let decodeStatus := mapWrapperStatus pushed.1
    let s := { s with reads := rest, calls := s.calls ++ [.read e] }
    if readStatus ≠ .ok then
      (.fail readStatus,
        { s with
          sink := emitTrace sinkSet (failedEvent .readStatus readStatus []) s.calls.length s.sink })
    else if e.bytes = [] then (.fail .needMoreData, s)
    else if decodeStatus = .ok then
      (.done (), { s with
        decoder := pushed.2.2
        sink := pushed.2.1.foldl
          (fun sink f => emitTrace sinkSet (decodedEvent f) s.calls.length sink) s.sink
        pendingFrames := s.pendingFrames ++ pushed.2.1 })
    else if decodeStatus ≠ .needMoreData then
      (.fail decodeStatus, { s with
        decoder := W.reset pushed.2.2
        sink := emitTrace sinkSet (failedEvent .decodeStatus decodeStatus e.bytes)
          s.calls.length s.sink })
    else receiveNextFrameLoop rest { s with decoder := pushed.2.2 }

section Loop

variable {e : ReadEvent} {rest : List ReadEvent} {s : State W}

/-- The state once `ReadSome` has answered `e`. -/
def afterRead (e : ReadEvent) (rest : List ReadEvent) (s : State W) : State W :=
  { s with reads := rest, calls := s.calls ++ [.read e] }

theorem loop_readFailed (h : e.status ≠ .ok) :
    receiveNextFrameLoop (e :: rest) s = (.fail (mapTransportStatus e.status),
      { afterRead e rest s with
        sink := emitTrace s.options.wrapperTcpTraceSink
          (failedEvent .readStatus (mapTransportStatus e.status) [])
          (afterRead e rest s).calls.length s.sink }) := by
  have hne : mapTransportStatus e.status ≠ .ok := fun hc => h (mapTransportStatus_eq_ok.mp hc)
  simp only [receiveNextFrameLoop]
  rw [if_pos hne]
  rfl

theorem loop_readEmpty (h : e.status = .ok) (he : e.bytes = []) :
    receiveNextFrameLoop (e :: rest) s = (.fail .needMoreData, afterRead e rest s) := by
  have hok : ¬ mapTransportStatus e.status ≠ .ok := fun hc => hc (mapTransportStatus_eq_ok.mpr h)
  simp only [receiveNextFrameLoop]
  rw [if_neg hok, if_pos he]
  rfl

theorem loop_completed (h : e.status = .ok) (he : e.bytes ≠ [])
    (hp : mapWrapperStatus (W.push s.decoder e.bytes).1 = .ok) :
    receiveNextFrameLoop (e :: rest) s = (.done (), { afterRead e rest s with
      decoder := (W.push s.decoder e.bytes).2.2
      sink := (W.push s.decoder e.bytes).2.1.foldl
        (fun sink f => emitTrace s.options.wrapperTcpTraceSink (decodedEvent f)
          (afterRead e rest s).calls.length sink) s.sink
      pendingFrames := s.pendingFrames ++ (W.push s.decoder e.bytes).2.1 }) := by
  have hok : ¬ mapTransportStatus e.status ≠ .ok := fun hc => hc (mapTransportStatus_eq_ok.mpr h)
  simp only [receiveNextFrameLoop]
  rw [if_neg hok, if_neg he, if_pos hp]
  rfl

theorem loop_rejected (h : e.status = .ok) (he : e.bytes ≠ [])
    (hp : mapWrapperStatus (W.push s.decoder e.bytes).1 ≠ .ok)
    (hm : mapWrapperStatus (W.push s.decoder e.bytes).1 ≠ .needMoreData) :
    receiveNextFrameLoop (e :: rest) s =
      (.fail (mapWrapperStatus (W.push s.decoder e.bytes).1), { afterRead e rest s with
        decoder := W.reset (W.push s.decoder e.bytes).2.2
        sink := emitTrace s.options.wrapperTcpTraceSink
          (failedEvent .decodeStatus (mapWrapperStatus (W.push s.decoder e.bytes).1) e.bytes)
          (afterRead e rest s).calls.length s.sink }) := by
  have hok : ¬ mapTransportStatus e.status ≠ .ok := fun hc => hc (mapTransportStatus_eq_ok.mpr h)
  simp only [receiveNextFrameLoop]
  rw [if_neg hok, if_neg he, if_neg hp, if_pos hm]
  rfl

theorem loop_continued (h : e.status = .ok) (he : e.bytes ≠ [])
    (hm : mapWrapperStatus (W.push s.decoder e.bytes).1 = .needMoreData) :
    receiveNextFrameLoop (e :: rest) s = receiveNextFrameLoop rest
      { afterRead e rest s with decoder := (W.push s.decoder e.bytes).2.2 } := by
  have hok : ¬ mapTransportStatus e.status ≠ .ok := fun hc => hc (mapTransportStatus_eq_ok.mpr h)
  have hp : mapWrapperStatus (W.push s.decoder e.bytes).1 ≠ .ok := by
    rw [hm]
    simp only [ne_eq, reduceCtorEq, not_false_eq_true]
  conv_lhs => simp only [receiveNextFrameLoop]
  rw [if_neg hok, if_neg he, if_neg hp, if_neg (not_not_intro hm)]
  rfl

end Loop

/-- `ReceiveNextFrame`. -/
def receiveNextFrame : Call W Unit := fun s =>
  if s.readBufferSize = 0 then (.fail .invalidArgument, s)
  else receiveNextFrameLoop s.reads s

theorem receiveNextFrameLoop_reads_lt {reads : List ReadEvent} {s s' : State W}
    (h : receiveNextFrameLoop reads s = (.done (), s')) : s'.reads.length < reads.length := by
  -- On the reads. The loop completes with the one it is at, or with a later one.
  induction reads generalizing s with
  | nil => cases h
  | cons e rest ih =>
      simp only [receiveNextFrameLoop] at h
      rw [List.length_cons]
      split at h
      · cases h
      · split at h
        · cases h
        · split at h
          · rw [← (Prod.mk.inj h).2]
            exact Nat.lt_succ_self _
          · split at h
            · cases h
            · exact Nat.lt_succ_of_lt (ih h)

/-- A call that put frames in the queue consumed at least one read. -/
theorem receiveNextFrame_reads_lt {s s' : State W} (h : receiveNextFrame s = (.done (), s')) :
    s'.reads.length < s.reads.length := by
  rw [receiveNextFrame] at h
  split at h
  · cases h
  · exact receiveNextFrameLoop_reads_lt h

/-- `pendingFrames_`, as the queue the receive calls take their APDUs from. -/
def pending : PendingQueue (State W) where
  apdus s := s.pendingFrames.map (·.data)
  pop s := { s with pendingFrames := s.pendingFrames.tail }
  apdus_pop _ := List.map_tail

/-- `while (pendingFrames_.empty())`, common to both overloads. -/
def awaitFrame : Call W Unit :=
  pending.await (·.reads.length) receiveNextFrame fun _ _ => receiveNextFrame_reads_lt

/-- `ReceiveApdu` into a vector. -/
def receiveApdu : Call W (List UInt8) := pending.receiveVector awaitFrame

/-- `CopyFirstPendingFrame`. -/
def copyFirstPendingFrame (output : ProfileMutableBuffer) (consume : Bool) (s : State W) :
    (Outcome ProfileStatus Unit × ProfileMutableBuffer) × State W :=
  pending.copyFirst output consume s

/-- `ReceiveApdu` into a caller's buffer. -/
def receiveApduInto (output : ProfileMutableBuffer) (s : State W) :
    (Outcome ProfileStatus Unit × ProfileMutableBuffer) × State W :=
  pending.receiveBuffer awaitFrame output s

/-- The receiving half of the channel. -/
@[reducible] def channel (W : WrapperLib) : ApduChannel where
  State := State W
  receiveApdu := receiveApdu
  receiveApduInto := receiveApduInto
  reads := fun s => s.reads

/-- A call that changes the channel. -/
inductive Operation where
  | open
  | close
  | send (apdu : ProfileByteView)
  | receive (call : ReceiveCall)

/-- The state an operation leaves behind, whatever it answers. -/
def exec : Operation → State W → State W
  | .open, s => (openStream s).2
  | .close, s => (closeStream s).2
  | .send apdu, s => (sendApdu apdu s).2
  | .receive call, s => ((channel W).call call s).2

/-- What construction fixes and no call changes. -/
structure SameSetup (s s' : State W) : Prop where
  options : s'.options = s.options
  wrapperLimits : s'.wrapperLimits = s.wrapperLimits
  readBufferSize : s'.readBufferSize = s.readBufferSize

theorem SameSetup.rfl {s : State W} : SameSetup s s := ⟨Eq.refl _, Eq.refl _, Eq.refl _⟩

theorem SameSetup.trans {s s1 s2 : State W} (h : SameSetup s s1) (h1 : SameSetup s1 s2) :
    SameSetup s s2 :=
  ⟨h1.options.trans h.options, h1.wrapperLimits.trans h.wrapperLimits,
    h1.readBufferSize.trans h.readBufferSize⟩

theorem receiveNextFrameLoop_sameSetup (reads : List ReadEvent) :
    Proc.Within SameSetup (receiveNextFrameLoop reads : Call W Unit) := by
  -- On the reads. Whatever becomes of one, what the channel was set up with stays.
  induction reads with
  | nil => exact fun s => ⟨rfl, rfl, rfl⟩
  | cons e rest ih =>
      intro s
      simp only [receiveNextFrameLoop]
      split
      · exact ⟨rfl, rfl, rfl⟩
      split
      · exact ⟨rfl, rfl, rfl⟩
      split
      · exact ⟨rfl, rfl, rfl⟩
      split
      · exact ⟨rfl, rfl, rfl⟩
      · exact ⟨(ih _).options, (ih _).wrapperLimits, (ih _).readBufferSize⟩

theorem receiveNextFrame_sameSetup :
    Proc.Within SameSetup (receiveNextFrame : Call W Unit) := by
  intro s
  rw [receiveNextFrame]
  split
  · exact SameSetup.rfl
  · exact receiveNextFrameLoop_sameSetup s.reads s

theorem exec_sameSetup (op : Operation) (s : State W) : SameSetup s (exec op s) := by
  -- By the calls, none of which assigns to what the constructor has set.
  cases op with
  | «open» =>
      rw [exec, openStream, check_snd]
      exact ⟨rfl, rfl, rfl⟩
  | close =>
      rw [exec, closeStream, check_snd]
      exact ⟨rfl, rfl, rfl⟩
  | send apdu =>
      have hsame := (sendApdu_frame apdu s).1
      exact ⟨congrArg Channel.options hsame, congrArg Channel.wrapperLimits hsame,
        congrArg Channel.readBufferSize hsame⟩
  | receive call =>
      exact PendingQueue.within_call (fun _ => SameSetup.rfl) (fun _ _ _ => SameSetup.trans)
        (PendingQueue.within_await (fun _ => SameSetup.rfl) (fun _ _ _ => SameSetup.trans)
          receiveNextFrame_sameSetup) (fun _ => ⟨rfl, rfl, rfl⟩) call s

/-- A channel constructed with the options and operated on in any order over
    any transport. -/
inductive Reachable (W : WrapperLib) (options : ApduChannelOptions) : State W → Prop where
  | new {s : State W} (h : s.toChannel = newChannel W options) : Reachable W options s
  | step {s : State W} (op : Operation) (h : Reachable W options s) :
    Reachable W options (exec op s)

/-- Sending a list of APDUs, one after the other. -/
def sendAll : List ProfileByteView → Call W Unit
  | [] => pure ()
  | apdu :: apdus => sendApdu apdu >>= fun _ => sendAll apdus

end Tcp

end DlmsProfile
