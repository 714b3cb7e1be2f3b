import DlmsProfile.Hdlc.Invariant
import DlmsProfile.Hdlc.Retry
import DlmsProfile.Library.Ledger
import DlmsProfile.Reference.Channels

/-!
# Conservation of Decoded Frames

`ReceiveDecodedFrame` is called by whoever waits for a frame: the wait for a reply,
its retries, a full window and the receive loop. A push may complete several frames,
of which one goes to the caller and the others into a queue for the callers to come,
and a caller may end with an error about a frame it was handed. The calls are run
once more with a ledger, in which `ReceiveDecodedFrame` enters the frames of every
push that returned `Ok` and the frames it handed out. A ledger is closed where the
queue is cleared, with what the queue held, and a new one begun.

What was handed out followed by the queue is then at every moment what was returned,
frame for frame and in order, whoever asked and however the calls ended.

## Main definitions

* `Hdlc.Account`: What was returned and what was handed out since a clearing.
* `Hdlc.Ledger`: The accounts of a channel.
* `Hdlc.Balanced`: Every account balances.
* `Hdlc.Kept.receiveDecodedFrame`: The two places a frame comes from.
* `Hdlc.Kept.exec`, `Hdlc.Kept.run`: The calls with the ledger.

## Theorems

* `Hdlc.Kept.keeps_receiveDecodedFrame`: A frame taken keeps the balance.
* `Hdlc.Kept.keeps_exec`: A call is the call it was, and keeps the balance.
* `Hdlc.conserved`: The accounts of a run.
-/

namespace DlmsProfile

open Proc

namespace PendingQueue

variable {σ κ : Type}

/-- The queue of a state with a ledger. -/
def kept (q : PendingQueue σ) : PendingQueue (Kept σ κ) where
  apdus s := q.apdus s.state
  pop s := { s with state := q.pop s.state }
  apdus_pop s := q.apdus_pop s.state

variable {q : PendingQueue σ} {P : Kept σ κ → Prop}

theorem keeps_await {size : σ → Nat} {size' : Kept σ κ → Nat}
    {body : Proc σ ProfileStatus Unit} {body' : Proc (Kept σ κ) ProfileStatus Unit}
    {hsize : ∀ s s', body s = (.done (), s') → size s' < size s}
    {hsize' : ∀ s s', body' s = (.done (), s') → size' s' < size' s} (h : Keeps P body body') :
    Keeps P (q.await size body hsize) (q.kept.await size' body' hsize') := by
  have hturn : Keeps P (q.turn body) (q.kept.turn body') :=
    keeps_bind h fun _ => keeps_quietly fun s hs => hs
  intro s
  -- The loop is entered on both sides or on neither.
  by_cases hp : q.apdus s.state = []
  · have hloop : Keeps P
        (repeatUntil size (q.turn body) fun s s' h => hsize s s' (turn_done_iff.mp h).1)
        (repeatUntil size' (q.kept.turn body') fun s s' h => hsize' s s' (turn_done_iff.mp h).1) :=
      keeps_repeatUntil hturn
    exact (hloop s).congr (await_of_empty hp) (await_of_empty (q := q.kept) hp)
  · exact (keeps_pure () s).congr (await_of_pending hp) (await_of_pending (q := q.kept) hp)

/-- Either overload, its result the answer. -/
theorem keeps_call {await : Proc σ ProfileStatus Unit} {await' : Proc (Kept σ κ) ProfileStatus Unit}
    {reads : σ → List ReadEvent} {reads' : Kept σ κ → List ReadEvent}
    (h : Keeps P await await') (hpop : ∀ s : Kept σ κ, P s → P { s with state := q.pop s.state })
    (r : ReceiveCall) (s : Kept σ κ) :
    ((q.kept.channel await' reads').call r s).1 = ((q.channel await reads).call r s.state).1 ∧
      ((q.kept.channel await' reads').call r s).2.state =
        ((q.channel await reads).call r s.state).2 ∧
      (P s → P ((q.kept.channel await' reads').call r s).2) := by
  -- What is done with the front of the queue takes no frame.
  cases r with
  | vector =>
      have hvector : Keeps P (q.receiveVector await) (q.kept.receiveVector await') :=
        keeps_bind h fun _ s => ⟨rfl, rfl, hpop s⟩
      rcases hvector s with ⟨hout, hstate, hholds⟩
      refine ⟨?_, hstate, hholds⟩
      simp only [ApduChannel.call]
      rw [hout]
  | into output =>
      simp only [ApduChannel.call]
      cases hv : isValidMutableBuffer output with
      | false =>
          rw [receiveBuffer, receiveBuffer, if_pos hv, if_pos hv]
          exact ⟨rfl, rfl, id⟩
      | true =>
          have hholds := (h s).holds
          rcases hw : await' s with ⟨⟨⟩ | status | _, s1⟩ <;> rw [hw] at hholds
          · rw [receiveBuffer_of_done hv hw, receiveBuffer_of_done hv ((h s).run hw)]
            by_cases hroom :
                (output.setWritten 0).size < ((q.apdus s1.state).headD []).length
            · rw [copyFirst_tooSmall hroom, copyFirst_tooSmall (q := q.kept) hroom]
              exact ⟨rfl, rfl, hholds⟩
            · rw [copyFirst_fits (Nat.not_lt.mp hroom),
                copyFirst_fits (q := q.kept) (Nat.not_lt.mp hroom)]
              exact ⟨rfl, rfl, fun hs => hpop s1 (hholds hs)⟩
          · rw [receiveBuffer_of_fail hv hw, receiveBuffer_of_fail hv ((h s).run hw)]
            exact ⟨rfl, rfl, hholds⟩
          · rw [receiveBuffer_of_waiting hv hw, receiveBuffer_of_waiting hv ((h s).run hw)]
            exact ⟨rfl, rfl, hholds⟩

end PendingQueue

namespace Hdlc

variable {L : HdlcLib}

/-- What the pushes that returned `Ok` returned, and what `ReceiveDecodedFrame`
    handed out, both in order. -/
structure Account (L : HdlcLib) where
  returned : List L.Frame
  handedOut : List L.Frame

/-- The accounts of a channel: those closed, each with what the queue held when it was
    cleared, and the one that is open. -/
structure Ledger (L : HdlcLib) where
  closed : List (Account L × List L.Frame)
  current : Account L

namespace Ledger

/-- No frame was returned yet. -/
def empty (L : HdlcLib) : Ledger L := ⟨[], ⟨[], []⟩⟩

/-- A push returned `Ok` and these frames. -/
def returns (frames : List L.Frame) (ledger : Ledger L) : Ledger L :=
  { ledger with
    current := { ledger.current with returned := ledger.current.returned ++ frames } }

/-- A frame was handed out. -/
def handsOut (frame : L.Frame) (ledger : Ledger L) : Ledger L :=
  { ledger with
    current := { ledger.current with handedOut := ledger.current.handedOut ++ [frame] } }

/-- The queue was cleared. -/
def clears (queue : List L.Frame) (ledger : Ledger L) : Ledger L :=
  ⟨ledger.closed ++ [(ledger.current, queue)], ⟨[], []⟩⟩

end Ledger

/-- An account balances with a queue: what was handed out and the queue are what was
    returned. -/
def Account.Balances (account : Account L) (queue : List L.Frame) : Prop :=
  account.handedOut ++ queue = account.returned

/-- Every account of a channel balances. -/
structure Balanced (s : Kept (State L) (Ledger L)) : Prop where
  closed : ∀ p ∈ s.ledger.closed, p.1.Balances p.2
  current : s.ledger.current.Balances s.state.pendingHdlcFrames

/-- A call with a ledger. -/
abbrev KeptCall (L : HdlcLib) (α : Type) : Type := Proc (Kept (State L) (Ledger L)) ProfileStatus α

namespace Kept

/-- The loop of `ReceiveDecodedFrame` over the reads to come. -/
def receiveDecodedFrameLoop : List ReadEvent → KeptCall L L.Frame
  | [], s => (.waiting, { s with state := { s.state with reads := [] } })
  | e :: rest, s =>
    let readStatus := mapTransportStatus e.status
    let pushed := L.push s.state.decoder e.bytes
    let decodeStatus := mapHdlcStatus pushed.1
    let read : State L := afterRead e rest s.state
    if readStatus ≠ .ok then (.fail readStatus, { s with state := read })
    else if e.bytes = [] then (.fail .needMoreData, { s with state := read })
    else if decodeStatus = .ok then
      match pushed.2.1 with
      | [] =>
        (.fail .needMoreData, ⟨{ read with decoder := pushed.2.2 }, s.ledger.returns []⟩)
      | frame :: frames =>
        (.done frame, ⟨{ read with
          decoder := pushed.2.2
          pendingHdlcFrames := s.state.pendingHdlcFrames ++ frames },
          (s.ledger.returns (frame :: frames)).handsOut frame⟩)
    else if decodeStatus ≠ .needMoreData then
      (.fail decodeStatus, { s with state := { read with decoder := L.resetDecoder pushed.2.2 } })
    else receiveDecodedFrameLoop rest { s with state := { read with decoder := pushed.2.2 } }

/-- `ReceiveDecodedFrame`. -/
def receiveDecodedFrame : KeptCall L L.Frame := fun s =>
  match s.state.pendingHdlcFrames with
  | frame :: frames =>
    (.done frame, ⟨{ s.state with pendingHdlcFrames := frames }, s.ledger.handsOut frame⟩)
  | [] =>
    if s.state.readBufferSize = 0 then (.fail .invalidArgument, s)
    else receiveDecodedFrameLoop s.state.reads s

/-- `Close`. -/
def closeStream : KeptCall L Unit :=
  entering (fun s _ => Ledger.clears s.pendingHdlcFrames) Hdlc.closeStream

/-- `EnsureSession`, which clears the queue if the session is disconnected. -/
def ensureSession : KeptCall L Unit := fun s =>
  if (makeHdlcSessionOptions L s.state.options).1 = .ok ∧
      L.sessionState s.state.session = .disconnected then
    entering (fun s _ => Ledger.clears s.pendingHdlcFrames) Hdlc.ensureSession s
  else quietly Hdlc.ensureSession s

/-- `ReceiveSessionControlFrame`. -/
def receiveSessionControlFrame : KeptCall L Unit := do
  let frame ← receiveDecodedFrame
  quietly (sessionReceive frame)

/-- `ReceiveSessionControlFrameWithRetry`. -/
def receiveSessionControlFrameWithRetry (retryFrameBytes : List UInt8) : KeptCall L Unit :=
  fun s =>
  retry receiveSessionControlFrame isRetriableReceiveStatus
    (quietly (beforeRetry retryFrameBytes)) s.state.options.hdlcRetryCount.toNat s

/-- `ConnectDataLink`. -/
def connectDataLink : KeptCall L Unit := do
  quietly (require (·.options.hdlcUseSession) .unsupportedFeature)
  quietly requireOpen
  quietly (require (·.options.hdlcRole == .client) .unsupportedFeature)
  ensureSession
  let frameBytes ← quietly (sessionBuild L.buildConnectRequest)
  quietly (writeFrameBytes frameBytes)
  receiveSessionControlFrameWithRetry frameBytes

/-- `AcceptDataLink`. -/
def acceptDataLink : KeptCall L Unit := do
  quietly (require (·.options.hdlcUseSession) .unsupportedFeature)
  quietly requireOpen
  quietly (require (·.options.hdlcRole == .server) .unsupportedFeature)
  ensureSession
  receiveSessionControlFrame
  let frameBytes ← quietly (sessionBuild L.buildConnectResponse)
  quietly (writeFrameBytes frameBytes)

/-- `DisconnectDataLink`. -/
def disconnectDataLink : KeptCall L Unit := do
  quietly (require (·.options.hdlcUseSession) .unsupportedFeature)
  quietly requireOpen
  let frameBytes ← quietly (sessionBuild L.buildDisconnectRequest)
  quietly (writeFrameBytes frameBytes)
  receiveSessionControlFrameWithRetry frameBytes

/-- `if (!session_.CanSendInformationFrame())`. -/
def awaitWindow : KeptCall L Unit := fun s =>
  if L.canSendInformationFrame s.state.session then (.done (), s)
  else receiveSessionControlFrame s

/-- One turn of the loop of `SendSessionInformation`. -/
def sendChunk (chunk : List UInt8) (finalFrame : Bool) : KeptCall L Unit := do
  awaitWindow
  let before ← quietly (gets (·.session))
  let frameBytes ← quietly (buildSessionInformationFrame chunk (!finalFrame) finalFrame)
  quietly (log (.emit before frameBytes))
  quietly (writeFrameBytes frameBytes)
  receiveSessionControlFrameWithRetry frameBytes

/-- The loop of `SendSessionInformation`. -/
def sendChunks (chunkSize : Nat) : Nat → List UInt8 → KeptCall L Unit
  | 0, _ => pure ()
  | left + 1, remaining => do
    sendChunk (remaining.take chunkSize) (left == 0)
    sendChunks chunkSize left (remaining.drop chunkSize)

/-- `SendSessionInformation`. -/
def sendSessionInformation (lpdu : List UInt8) : KeptCall L Unit := fun s =>
  if L.sessionState s.state.session ≠ .connected then (.fail .notOpen, s)
  else
    let limit := (L.negotiatedLimits s.state.session).maxInformationFieldLengthTransmit
    let chunk := chunkSize limit lpdu.length
    sendChunks chunk (frameCount lpdu.length chunk) lpdu { s with
      state := { s.state with
        hdlcLimits := { s.state.hdlcLimits with maximumInformationFieldSize := limit } } }

/-- `SendApdu`. -/
def sendApdu (apdu : ProfileByteView) : KeptCall L Unit := fun s =>
  if isValidByteView apdu = false then (.fail .invalidArgument, s)
  else if s.state.options.maximumApduSize ≠ 0 ∧ s.state.options.maximumApduSize < apdu.size then
    (.fail .payloadTooLarge, s)
  else
    let encoded := encodeApdu L s.state.options apdu.data
    if mapLlcStatus encoded.1 ≠ .ok then (.fail (mapLlcStatus encoded.1), s)
    else if s.state.options.hdlcUseSession then sendSessionInformation encoded.2 s
    else quietly (buildFrame encoded.2 >>= writeFrameBytes) s

/-- One turn of the loop of `ReceiveNextApdu`. -/
def receiveTurn : KeptCall L Bool := do
  let frame ← receiveDecodedFrame
  quietly (handleFrame frame)

/-- A procedure that leaves the queue of frames alone needs no entry. -/
theorem keeps_aside {α : Type} {x : Call L α}
    (h : Within (fun s s' => s'.pendingHdlcFrames = s.pendingHdlcFrames) x) :
    Keeps Balanced x (quietly x) := by
  refine keeps_quietly fun s hs => ⟨hs.closed, ?_⟩
  have hframes : (x s.state).2.pendingHdlcFrames = s.state.pendingHdlcFrames := h s.state
  rw [hframes]
  exact hs.current

theorem keeps_sameIntake {α : Type} {x : Call L α} (h : Within SameIntake x) :
    Keeps Balanced x (quietly x) :=
  keeps_aside fun s => (h s).frames

/-- A frame handed out was the first of those a push returned, and the others went to
    an empty queue. -/
theorem balanced_completed {s : Kept (State L) (Ledger L)} {t : State L} {frame : L.Frame}
    {frames : List L.Frame} (hempty : s.state.pendingHdlcFrames = [])
    (ht : t.pendingHdlcFrames = s.state.pendingHdlcFrames ++ frames) (hs : Balanced s) :
    Balanced ⟨t, (s.ledger.returns (frame :: frames)).handsOut frame⟩ := by
  have hcurrent := hs.current
  rw [Account.Balances, hempty, List.append_nil] at hcurrent
  refine ⟨hs.closed, ?_⟩
  rw [hempty, List.nil_append] at ht
  simp only [Account.Balances, Ledger.returns, Ledger.handsOut, ht, hcurrent, List.append_assoc,
    List.singleton_append]

theorem keeps_receiveDecodedFrameLoop (reads : List ReadEvent) {s : Kept (State L) (Ledger L)}
    (hempty : s.state.pendingHdlcFrames = []) :
    KeepsAt Balanced (Hdlc.receiveDecodedFrameLoop reads) (receiveDecodedFrameLoop reads) s := by
  induction reads generalizing s with
  | nil => exact KeepsAt.of_eq s.ledger rfl rfl fun hs => ⟨hs.closed, hs.current⟩
  | cons e rest ih =>
      by_cases hok : e.status = .ok
      swap
      · have hne : mapTransportStatus e.status ≠ .ok := fun hc =>
          hok (mapTransportStatus_eq_ok.mp hc)
        refine KeepsAt.of_eq s.ledger (loop_readFailed hok) ?_ fun hs => ⟨hs.closed, hs.current⟩
        conv_lhs => simp only [receiveDecodedFrameLoop]
        rw [if_pos hne]
      have hread : ¬ mapTransportStatus e.status ≠ .ok := fun hc =>
        hc (mapTransportStatus_eq_ok.mpr hok)
      by_cases he : e.bytes = []
      · refine KeepsAt.of_eq s.ledger (loop_readEmpty hok he) ?_ fun hs => ⟨hs.closed, hs.current⟩
        conv_lhs => simp only [receiveDecodedFrameLoop]
        rw [if_neg hread, if_pos he]
      by_cases hst : mapHdlcStatus (L.push s.state.decoder e.bytes).1 = .ok
      · rcases hf : (L.push s.state.decoder e.bytes).2.1 with _ | ⟨frame, frames⟩
        · -- The push returned nothing, which adds nothing.
          refine KeepsAt.of_eq (s.ledger.returns []) (loop_noFrame hok he hst hf) ?_
            fun hs => ⟨hs.closed, ?_⟩
          · conv_lhs => simp only [receiveDecodedFrameLoop]
            rw [if_neg hread, if_neg he, if_pos hst, hf]
          · have hcurrent := hs.current
            rw [Account.Balances] at hcurrent
            simp only [Account.Balances, Ledger.returns, List.append_nil]
            exact hcurrent
        · refine KeepsAt.of_eq ((s.ledger.returns (frame :: frames)).handsOut frame)
            (loop_completed hok he hst hf) ?_ (balanced_completed hempty rfl)
          conv_lhs => simp only [receiveDecodedFrameLoop]
          rw [if_neg hread, if_neg he, if_pos hst, hf]
      by_cases hm : mapHdlcStatus (L.push s.state.decoder e.bytes).1 = .needMoreData
      · let more : Kept (State L) (Ledger L) := { s with
          state := { afterRead e rest s.state with
            decoder := (L.push s.state.decoder e.bytes).2.2 } }
        have hrest : KeepsAt Balanced (Hdlc.receiveDecodedFrameLoop rest)
            (receiveDecodedFrameLoop rest) more := ih hempty
        refine hrest.from (loop_continued hok he hm) ?_ fun hs => ⟨hs.closed, hs.current⟩
        conv_lhs => simp only [receiveDecodedFrameLoop]
        rw [if_neg hread, if_neg he, if_neg hst, if_neg (not_not_intro hm)]
      · refine KeepsAt.of_eq s.ledger (loop_rejected hok he hst hm) ?_
          fun hs => ⟨hs.closed, hs.current⟩
        conv_lhs => simp only [receiveDecodedFrameLoop]
        rw [if_neg hread, if_neg he, if_neg hst, if_pos hm]

/-- A frame taken keeps the balance, wherever it comes from. -/
theorem keeps_receiveDecodedFrame :
    Keeps Balanced (Hdlc.receiveDecodedFrame (L := L)) receiveDecodedFrame := by
  intro s
  rcases hp : s.state.pendingHdlcFrames with _ | ⟨frame, frames⟩
  · by_cases hb : s.state.readBufferSize = 0
    · refine KeepsAt.of_eq s.ledger (receiveDecodedFrame_of_noBuffer hp hb) ?_ fun hs => hs
      simp only [receiveDecodedFrame, hp]
      exact if_pos hb
    · refine (keeps_receiveDecodedFrameLoop s.state.reads hp).congr
        (receiveDecodedFrame_of_empty hp hb) ?_
      simp only [receiveDecodedFrame, hp]
      exact if_neg hb
  · refine KeepsAt.of_eq (s.ledger.handsOut frame) (receiveDecodedFrame_of_pending hp) ?_
      fun hs => ⟨hs.closed, ?_⟩
    · simp only [receiveDecodedFrame, hp]
    · -- The front of the queue moves over.
      have hcurrent := hs.current
      rw [Account.Balances, hp] at hcurrent
      simp only [Account.Balances, Ledger.handsOut, List.append_assoc, List.singleton_append]
      exact hcurrent

/-- An account closed balances with what the queue held. -/
theorem balanced_clears {s : Kept (State L) (Ledger L)} {t : State L}
    (ht : t.pendingHdlcFrames = []) (hs : Balanced s) :
    Balanced ⟨t, s.ledger.clears s.state.pendingHdlcFrames⟩ := by
  refine ⟨fun p hp => ?_, ?_⟩
  · rcases List.mem_append.mp hp with hp | hp
    · exact hs.closed p hp
    · rw [List.mem_singleton.mp hp]
      exact hs.current
  · simp only [Account.Balances, Ledger.clears, ht, List.append_nil]

theorem keeps_closeStream : Keeps Balanced (Hdlc.closeStream (L := L)) closeStream := by
  refine keeps_entering fun s hs => balanced_clears ?_ hs
  rw [Hdlc.closeStream, check_snd]

theorem keeps_ensureSession : Keeps Balanced (Hdlc.ensureSession (L := L)) ensureSession := by
  intro s
  -- The frames in hand are dropped, and entered as dropped, if the session is made anew.
  by_cases hclears : (makeHdlcSessionOptions L s.state.options).1 = .ok ∧
      L.sessionState s.state.session = .disconnected
  · have hcall : (Hdlc.ensureSession s.state).2.pendingHdlcFrames = [] := by
      simp only [Hdlc.ensureSession, hclears.1, hclears.2, ne_eq, not_true_eq_false, if_false,
        if_true]
    have hkept : KeepsAt Balanced (Hdlc.ensureSession (L := L))
        (entering (fun s _ => Ledger.clears s.pendingHdlcFrames) Hdlc.ensureSession) s :=
      ⟨rfl, rfl, balanced_clears hcall⟩
    exact hkept.congr rfl (if_pos hclears)
  · have hcall : (Hdlc.ensureSession s.state).2 = s.state := by
      simp only [Hdlc.ensureSession]
      split
      · rfl
      next hmade =>
      split
      next hdisc => exact absurd ⟨not_not.mp hmade, hdisc⟩ hclears
      · rfl
    have hkept : KeepsAt Balanced (Hdlc.ensureSession (L := L)) (quietly Hdlc.ensureSession) s := by
      refine keepsAt_quietly fun hs => ?_
      rw [hcall]
      exact hs
    exact hkept.congr rfl (if_neg hclears)

theorem keeps_receiveSessionControlFrame :
    Keeps Balanced (Hdlc.receiveSessionControlFrame (L := L)) receiveSessionControlFrame :=
  keeps_bind keeps_receiveDecodedFrame fun frame =>
    keeps_sameIntake (sessionReceive_sameIntake frame)

theorem keeps_writeFrameBytes (bytes : List UInt8) :
    Keeps Balanced (writeFrameBytes (L := L) bytes) (quietly (writeFrameBytes bytes)) :=
  keeps_sameIntake (writeFrameBytes_sameIntake bytes)

theorem keeps_sessionBuild (build : L.Session → HdlcStatus × List UInt8 × L.Session) :
    Keeps Balanced (sessionBuild build) (quietly (sessionBuild build)) :=
  keeps_sameIntake (sessionBuild_sameIntake build)

theorem keeps_controlWithRetry (bytes : List UInt8) :
    Keeps Balanced (Hdlc.receiveSessionControlFrameWithRetry (L := L) bytes)
      (receiveSessionControlFrameWithRetry bytes) := by
  have hbetween : Within SameIntake (beforeRetry (L := L) bytes) :=
    within_bind SameIntake.trans sleepBeforeRetry_sameIntake fun _ =>
      writeFrameBytes_sameIntake bytes
  intro s
  refine (keeps_retry keeps_receiveSessionControlFrame (keeps_sameIntake hbetween)
    s.state.options.hdlcRetryCount.toNat s).congr ?_ rfl
  rw [Hdlc.receiveSessionControlFrameWithRetry, retryLoop_eq]

theorem keeps_require (condition : State L → Bool) (status : ProfileStatus) :
    Keeps Balanced (require condition status) (quietly (require condition status)) := by
  refine keeps_sameIntake fun s => ?_
  rw [require]
  split
  · exact SameIntake.refl s
  · exact SameIntake.refl s

theorem keeps_requireOpen : Keeps Balanced (requireOpen (L := L)) (quietly requireOpen) := by
  refine keeps_sameIntake (within_bind SameIntake.trans (fun s => ⟨rfl, rfl, rfl, rfl, rfl⟩) ?_)
  intro opened
  cases opened with
  | true => exact within_pure SameIntake.refl ()
  | false => exact within_fail SameIntake.refl _

theorem keeps_connectDataLink :
    Keeps Balanced (Hdlc.connectDataLink (L := L)) connectDataLink := by
  refine keeps_bind (keeps_require _ _) fun _ => ?_
  refine keeps_bind keeps_requireOpen fun _ => ?_
  refine keeps_bind (keeps_require _ _) fun _ => ?_
  refine keeps_bind keeps_ensureSession fun _ => ?_
  refine keeps_bind (keeps_sessionBuild _) fun bytes => ?_
  exact keeps_bind (keeps_writeFrameBytes bytes) fun _ => keeps_controlWithRetry bytes

theorem keeps_acceptDataLink : Keeps Balanced (Hdlc.acceptDataLink (L := L)) acceptDataLink := by
  refine keeps_bind (keeps_require _ _) fun _ => ?_
  refine keeps_bind keeps_requireOpen fun _ => ?_
  refine keeps_bind (keeps_require _ _) fun _ => ?_
  refine keeps_bind keeps_ensureSession fun _ => ?_
  refine keeps_bind keeps_receiveSessionControlFrame fun _ => ?_
  exact keeps_bind (keeps_sessionBuild _) keeps_writeFrameBytes

theorem keeps_disconnectDataLink :
    Keeps Balanced (Hdlc.disconnectDataLink (L := L)) disconnectDataLink := by
  refine keeps_bind (keeps_require _ _) fun _ => ?_
  refine keeps_bind keeps_requireOpen fun _ => ?_
  refine keeps_bind (keeps_sessionBuild _) fun bytes => ?_
  exact keeps_bind (keeps_writeFrameBytes bytes) fun _ => keeps_controlWithRetry bytes

theorem keeps_awaitWindow : Keeps Balanced (Hdlc.awaitWindow (L := L)) awaitWindow := by
  intro s
  by_cases hcan : L.canSendInformationFrame s.state.session = true
  · exact (keeps_pure () s).congr (if_pos hcan) (if_pos hcan)
  · exact (keeps_receiveSessionControlFrame s).congr (if_neg hcan) (if_neg hcan)

theorem keeps_buildSessionInformationFrame (chunk : List UInt8) (segmented pollFinal : Bool) :
    Keeps Balanced (buildSessionInformationFrame (L := L) chunk segmented pollFinal)
      (quietly (buildSessionInformationFrame chunk segmented pollFinal)) := by
  refine keeps_sameIntake (within_bind SameIntake.trans (sessionBuild_sameIntake _) fun bytes => ?_)
  split
  · refine within_bind SameIntake.trans (within_gets SameIntake.refl _) fun limits => ?_
    exact within_bind SameIntake.trans (checked_sameIntake _) fun decoded => checked_sameIntake _
  · exact within_pure SameIntake.refl bytes

theorem keeps_sendChunk (chunk : List UInt8) (finalFrame : Bool) :
    Keeps Balanced (Hdlc.sendChunk (L := L) chunk finalFrame) (sendChunk chunk finalFrame) := by
  refine keeps_bind keeps_awaitWindow fun _ => ?_
  refine keeps_bind (keeps_sameIntake (within_gets SameIntake.refl _)) fun before => ?_
  refine keeps_bind (keeps_buildSessionInformationFrame _ _ _) fun bytes => ?_
  refine keeps_bind (keeps_sameIntake fun s => ⟨rfl, rfl, rfl, rfl, rfl⟩) fun _ => ?_
  exact keeps_bind (keeps_writeFrameBytes bytes) fun _ => keeps_controlWithRetry bytes

theorem keeps_sendChunks (chunkSize left : Nat) (remaining : List UInt8) :
    Keeps Balanced (Hdlc.sendChunks (L := L) chunkSize left remaining)
      (sendChunks chunkSize left remaining) := by
  induction left generalizing remaining with
  | zero => exact keeps_pure ()
  | succ left ih => exact keeps_bind (keeps_sendChunk _ _) fun _ => ih _

theorem keeps_sendSessionInformation (lpdu : List UInt8) :
    Keeps Balanced (Hdlc.sendSessionInformation (L := L) lpdu) (sendSessionInformation lpdu) := by
  intro s
  -- The limit is set on both sides before the chunks are sent.
  by_cases hconnected : L.sessionState s.state.session ≠ .connected
  · refine (keeps_fail .notOpen s).congr ?_ ?_
    · exact if_pos hconnected
    · exact if_pos hconnected
  · let limit := (L.negotiatedLimits s.state.session).maxInformationFieldLengthTransmit
    let chunk := chunkSize limit lpdu.length
    let narrowed : Kept (State L) (Ledger L) := { s with state := { s.state with
      hdlcLimits := { s.state.hdlcLimits with maximumInformationFieldSize := limit } } }
    have hchunks : KeepsAt Balanced
        (Hdlc.sendChunks chunk (frameCount lpdu.length chunk) lpdu)
        (sendChunks chunk (frameCount lpdu.length chunk) lpdu) narrowed := keeps_sendChunks _ _ _ _
    have hx : Hdlc.sendSessionInformation lpdu s.state =
        Hdlc.sendChunks chunk (frameCount lpdu.length chunk) lpdu narrowed.state :=
      if_neg hconnected
    have hy : sendSessionInformation lpdu s =
        sendChunks chunk (frameCount lpdu.length chunk) lpdu narrowed := if_neg hconnected
    exact hchunks.from hx hy fun hs => ⟨hs.closed, hs.current⟩

theorem keeps_buildFrame (lpdu : List UInt8) :
    Keeps Balanced (buildFrame (L := L) lpdu >>= writeFrameBytes)
      (quietly (buildFrame lpdu >>= writeFrameBytes)) := by
  have hbuild : Within SameIntake (buildFrame (L := L) lpdu) := by
    refine within_bind SameIntake.trans (within_gets SameIntake.refl _) fun options => ?_
    refine within_bind SameIntake.trans (within_gets SameIntake.refl _) fun limits => ?_
    refine within_bind SameIntake.trans (checked_sameIntake _) fun client => ?_
    refine within_bind SameIntake.trans (checked_sameIntake _) fun server => ?_
    exact within_bind SameIntake.trans (checked_sameIntake _) fun control => checked_sameIntake _
  exact keeps_sameIntake (within_bind SameIntake.trans hbuild writeFrameBytes_sameIntake)

theorem keeps_sendApdu (apdu : ProfileByteView) :
    Keeps Balanced (Hdlc.sendApdu (L := L) apdu) (sendApdu apdu) := by
  intro s
  -- The checks in their order. The frames are taken while the chunks are sent.
  by_cases hvalid : isValidByteView apdu = false
  · refine (keeps_fail .invalidArgument s).congr ?_ ?_
    · exact if_pos hvalid
    · exact if_pos hvalid
  by_cases hlarge : s.state.options.maximumApduSize ≠ 0 ∧
      s.state.options.maximumApduSize < apdu.size
  · refine (keeps_fail .payloadTooLarge s).congr ?_ ?_
    · exact (if_neg hvalid).trans (if_pos hlarge)
    · exact (if_neg hvalid).trans (if_pos hlarge)
  by_cases henc : mapLlcStatus (encodeApdu L s.state.options apdu.data).1 ≠ .ok
  · refine (keeps_fail (mapLlcStatus (encodeApdu L s.state.options apdu.data).1) s).congr ?_ ?_
    · exact (if_neg hvalid).trans ((if_neg hlarge).trans (if_pos henc))
    · exact (if_neg hvalid).trans ((if_neg hlarge).trans (if_pos henc))
  by_cases huse : s.state.options.hdlcUseSession = true
  · refine (keeps_sendSessionInformation (encodeApdu L s.state.options apdu.data).2 s).congr ?_ ?_
    · exact (if_neg hvalid).trans ((if_neg hlarge).trans ((if_neg henc).trans (if_pos huse)))
    · exact (if_neg hvalid).trans ((if_neg hlarge).trans ((if_neg henc).trans (if_pos huse)))
  · refine (keeps_buildFrame (encodeApdu L s.state.options apdu.data).2 s).congr ?_ ?_
    · exact (if_neg hvalid).trans ((if_neg hlarge).trans ((if_neg henc).trans (if_neg huse)))
    · exact (if_neg hvalid).trans ((if_neg hlarge).trans ((if_neg henc).trans (if_neg huse)))

theorem keeps_receiveTurn : Keeps Balanced (Hdlc.receiveTurn (L := L)) receiveTurn := by
  refine keeps_bind keeps_receiveDecodedFrame fun frame => keeps_sameIntake fun s => ?_
  rw [handleFrame_snd]
  exact decodeFrame_sameIntake frame s

/-- `ReceiveNextApdu`. -/
def receiveNextApdu : KeptCall L Unit :=
  repeatUntil (fun s => (incoming s.state).length) receiveTurn fun s _ h =>
    receiveTurn_incoming_lt ((keeps_receiveTurn s).run h)

theorem keeps_receiveNextApdu :
    Keeps Balanced (Hdlc.receiveNextApdu (L := L)) receiveNextApdu :=
  keeps_repeatUntil keeps_receiveTurn

/-- `while (pendingApdus_.empty())`, common to both overloads. -/
def awaitApdu : KeptCall L Unit :=
  pending.kept.await (fun s => (incoming s.state).length) receiveNextApdu fun s _ h =>
    receiveNextApdu_incoming_lt ((keeps_receiveNextApdu s).run h)

/-- The receiving half of the channel. -/
@[reducible] def channel (L : HdlcLib) : ApduChannel :=
  pending.kept.channel (awaitApdu (L := L)) fun s => s.state.reads

/-- One call of any kind. -/
def exec (op : Operation) (s : Kept (State L) (Ledger L)) :
    Result × Kept (State L) (Ledger L) :=
  match op with
  | .open => (.status (quietly openStream s).1, (quietly openStream s).2)
  | .close => (.status (closeStream s).1, (closeStream s).2)
  | .isOpen => (.flag (quietly isOpen s).1, (quietly isOpen s).2)
  | .connectDataLink => (.status (connectDataLink s).1, (connectDataLink s).2)
  | .acceptDataLink => (.status (acceptDataLink s).1, (acceptDataLink s).2)
  | .disconnectDataLink => (.status (disconnectDataLink s).1, (disconnectDataLink s).2)
  | .send apdu => (.status (sendApdu apdu s).1, (sendApdu apdu s).2)
  | .receive call => (.received ((channel L).call call s).1, ((channel L).call call s).2)

/-- Calls in order. A call that does not return is the last. -/
def run : List Operation → Kept (State L) (Ledger L) → List Result × Kept (State L) (Ledger L)
  | [], s => ([], s)
  | op :: ops, s =>
    if (exec op s).1.isWaiting then ([(exec op s).1], (exec op s).2)
    else ((exec op s).1 :: (run ops (exec op s).2).1, (run ops (exec op s).2).2)

/-- A call is the call it was, and keeps the balance. -/
theorem keeps_exec (op : Operation) (s : Kept (State L) (Ledger L)) :
    (exec op s).1 = (Hdlc.exec op s.state).1 ∧ (exec op s).2.state = (Hdlc.exec op s.state).2 ∧
      (Balanced s → Balanced (exec op s).2) := by
  have hstatus : ∀ {x : Call L Unit} {y : KeptCall L Unit}, Keeps Balanced x y →
      Result.status (y s).1 = Result.status (x s.state).1 ∧ (y s).2.state = (x s.state).2 ∧
        (Balanced s → Balanced (y s).2) :=
    fun h => ⟨congrArg Result.status (h s).outcome, (h s).state, (h s).holds⟩
  -- By the calls, each made of steps that keep the balance.
  cases op with
  | «open» =>
      refine hstatus (keeps_sameIntake fun s => ?_)
      rw [openStream, check_snd]
      exact ⟨rfl, rfl, rfl, rfl, rfl⟩
  | close => exact hstatus keeps_closeStream
  | isOpen => exact ⟨rfl, rfl, fun hs => ⟨hs.closed, hs.current⟩⟩
  | connectDataLink => exact hstatus keeps_connectDataLink
  | acceptDataLink => exact hstatus keeps_acceptDataLink
  | disconnectDataLink => exact hstatus keeps_disconnectDataLink
  | send apdu => exact hstatus (keeps_sendApdu apdu)
  | receive call =>
      have hawait : Keeps Balanced (Hdlc.awaitApdu (L := L)) awaitApdu :=
        PendingQueue.keeps_await keeps_receiveNextApdu
      have hcall : ((channel L).call call s).1 = ((Hdlc.channel L).call call s.state).1 ∧
          ((channel L).call call s).2.state = ((Hdlc.channel L).call call s.state).2 ∧
          (Balanced s → Balanced ((channel L).call call s).2) :=
        PendingQueue.keeps_call hawait (fun s hs => ⟨hs.closed, hs.current⟩) call s
      rcases hcall with ⟨hanswer, hstate, hholds⟩
      exact ⟨congrArg Result.received hanswer, hstate, hholds⟩

/-- So does a run. -/
theorem keeps_run (ops : List Operation) (s : Kept (State L) (Ledger L)) :
    (run ops s).1 = (Hdlc.run ops s.state).1 ∧ (run ops s).2.state = (Hdlc.run ops s.state).2 ∧
      (Balanced s → Balanced (run ops s).2) := by
  induction ops generalizing s with
  | nil => exact ⟨rfl, rfl, id⟩
  | cons op ops ih =>
      rcases keeps_exec op s with ⟨hresult, hstate, hholds⟩
      rw [run, Hdlc.run, ← hresult]
      split
      · exact ⟨rfl, hstate, hholds⟩
      · rcases ih (exec op s).2 with ⟨hresults, hstate', hholds'⟩
        rw [← hstate]
        exact ⟨congrArg _ hresults, hstate', fun hs => hholds' (hholds hs)⟩

end Kept

/-- Whatever is called in whatever order, and however the calls end: kept with a
    ledger, the run is the run it was, and since the last clearing of the queue as
    between any two before it, the frames handed out followed by those in the queue are
    the frames of the pushes that returned `Ok`, in order. -/
theorem conserved {start : State L} (hempty : start.pendingHdlcFrames = [])
    (ops : List Operation) :
    (Kept.run ops ⟨start, Ledger.empty L⟩).1 = (run ops start).1 ∧
      (Kept.run ops ⟨start, Ledger.empty L⟩).2.state = (run ops start).2 ∧
      Balanced (Kept.run ops ⟨start, Ledger.empty L⟩).2 := by
  have hstart : Balanced (⟨start, Ledger.empty L⟩ : Kept (State L) (Ledger L)) :=
    ⟨fun p hp => absurd hp List.not_mem_nil, hempty⟩
  rcases Kept.keeps_run ops ⟨start, Ledger.empty L⟩ with ⟨hresults, hstate, hholds⟩
  exact ⟨hresults, hstate, hholds hstart⟩

/-- The reply to an APDU comes in one read with two I-frames, the second of which the
    session rejects. A third one is left in the queue when the stream is closed. -/
theorem conserved_together :
    let start := Reference.hdlcChannel Reference.sessionOptions
      [Reference.arrived (Reference.toClient Reference.ua []),
        Reference.arrived (Reference.receiveReady 1 ++
          Reference.toClient 0x30 [0xE6, 0xE7, 0x00, 0xC4] ++
          Reference.toClient 0x30 [0xE6, 0xE7, 0x00, 0xC5] ++
          Reference.toClient 0x32 [0xE6, 0xE7, 0x00, 0xC6])]
    let ops : List Operation := [.connectDataLink, .send (.of [0xC0]), .receive .vector,
      .receive .vector, .close, .receive .vector]
    (Kept.run ops ⟨start, Ledger.empty Reference.hdlcLib⟩).1 = (run ops start).1 ∧
      (Kept.run ops ⟨start, Ledger.empty Reference.hdlcLib⟩).2.state = (run ops start).2 ∧
      Balanced (Kept.run ops ⟨start, Ledger.empty Reference.hdlcLib⟩).2 :=
  conserved rfl _

end Hdlc

end DlmsProfile
