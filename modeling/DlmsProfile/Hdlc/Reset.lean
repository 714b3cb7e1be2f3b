import DlmsProfile.Hdlc.Handshake
import DlmsProfile.Hdlc.Laws
import DlmsProfile.Hdlc.Renewal
import DlmsProfile.Reference.Laws

/-!
# Closing and Opening Again

`Close` resets the decoder and the reassembler and empties both queues. It leaves
the session and the codec limits as they are, and nothing later looks after them
but `EnsureSession`, which makes the session anew only if it is disconnected. So
a channel that is closed on an established link finds the link established when
it is opened again, and sends I-frames without a handshake.

That this is all there is to it takes a comparison over every continuation. Two
channels are paired when they differ in the session and the limits only and the
two sessions are related. Each call keeps them so and answers the same, provided
the relation survives what the call does to a session.

That no I-frame is sent before a link call has succeeded is a matter of its own. A
link call that has failed may leave a session behind that the next UA connects, and a
server is connected once it has built its UA, be it written or not.

## Main definitions

* `Hdlc.outside`: The calls of the transport and the timer in a trace.
* `Hdlc.Paired`: Two channels that differ in the session and the limits only.
* `Hdlc.Simulates`: A relation of sessions that survives every call.
* `Hdlc.reopened`: The channel after `Close` and `Open`.
* `Hdlc.Unreported`: What makes a link come up that no call reports.
* `Hdlc.FullReset`: After these two it behaves as one just constructed.

## Theorems

* `Hdlc.exec_paired`, `Hdlc.run_paired`: Paired channels answer alike.
* `Hdlc.exec_apart`, `Hdlc.run_apart`: A link comes up reported.
* `Hdlc.full_reset`: `Close` is a full reset of a disconnected session.
* `Hdlc.full_reset_refuted`: It is not of a connected one.
-/

namespace DlmsProfile

namespace Hdlc

variable {L : HdlcLib}

/-- The event is a call of the transport or the timer. -/
def Event.isOutside : Event L → Bool
  | .transport _ => true
  | .sleepFor _ _ => true
  | _ => false

/-- The calls of the transport and the timer in a trace. -/
def outside (events : List (Event L)) : List (Event L) := events.filter Event.isOutside

theorem outside_append (a b : List (Event L)) : outside (a ++ b) = outside a ++ outside b :=
  List.filter_append _ _

/-- Two traces with the same calls, each with one more event. -/
theorem outside_snoc {a b : List (Event L)} {e f : Event L} (h : outside a = outside b)
    (he : outside [e] = outside [f]) : outside (a ++ [e]) = outside (b ++ [f]) := by
  rw [outside_append, outside_append, h, he]

/-- The second channel is the first with another session, other limits and other
    events on the inside. -/
def Paired (options : ApduChannelOptions) (S : L.Session → L.Session → Prop)
    (H : HdlcCodecLimits → HdlcCodecLimits → Prop) (s t : State L) : Prop :=
  s.options = options ∧ ∃ σ limits trace,
    t = { s with session := σ, hdlcLimits := limits, trace := trace } ∧
      S s.session σ ∧ H s.hdlcLimits limits ∧ outside s.trace = outside trace

section Paired

variable {options : ApduChannelOptions} {S S' : L.Session → L.Session → Prop}
  {H H' : HdlcCodecLimits → HdlcCodecLimits → Prop}

theorem Paired.mono {s t : State L} (h : Paired options S H s t)
    (hS : ∀ {σ τ}, S σ τ → S' σ τ) (hH : ∀ {a b}, H a b → H' a b) : Paired options S' H' s t := by
  rcases h with ⟨ho, σ, limits, trace, ht, hs, hl, htrace⟩
  exact ⟨ho, σ, limits, trace, ht, hS hs, hH hl, htrace⟩

/-- A check of a status both channels got. -/
theorem agree_check {status : ProfileStatus} {s t : State L} (h : Paired options S H s t) :
    (check status s).1 = (check status t).1 ∧
      Paired options S H (check status s).2 (check status t).2 := by
  rw [check_snd, check_snd]
  exact ⟨check_fst _ _ _, h⟩

theorem agree_openStream : Proc.Agree (Paired (L := L) options S H) openStream openStream := by
  rintro s _ ⟨ho, σ, limits, trace, rfl, hs, hl, htrace⟩
  exact agree_check ⟨ho, σ, limits, _, rfl, hs, hl, outside_snoc htrace rfl⟩

theorem agree_closeStream : Proc.Agree (Paired (L := L) options S H) closeStream closeStream := by
  rintro s _ ⟨ho, σ, limits, trace, rfl, hs, hl, htrace⟩
  exact agree_check ⟨ho, σ, limits, _, rfl, hs, hl, outside_snoc htrace rfl⟩

theorem agree_isOpen : Proc.Agree (Paired (L := L) options S H) isOpen isOpen := by
  rintro s _ ⟨ho, σ, limits, trace, rfl, hs, hl, htrace⟩
  exact ⟨rfl, ho, σ, limits, _, rfl, hs, hl, outside_snoc htrace rfl⟩

theorem agree_writeFrameBytes (bytes : List UInt8) :
    Proc.Agree (Paired (L := L) options S H) (writeFrameBytes bytes) (writeFrameBytes bytes) := by
  rintro s _ ⟨ho, σ, limits, trace, rfl, hs, hl, htrace⟩
  exact agree_check ⟨ho, σ, limits, _, rfl, hs, hl, outside_snoc htrace rfl⟩

theorem agree_sleepBeforeRetry :
    Proc.Agree (Paired (L := L) options S H) sleepBeforeRetry sleepBeforeRetry := by
  rintro s _ ⟨ho, σ, limits, trace, rfl, hs, hl, htrace⟩
  unfold sleepBeforeRetry
  -- No sleep is asked for where the options give no delay.
  split
  · exact ⟨rfl, ho, σ, limits, trace, rfl, hs, hl, htrace⟩
  · exact agree_check ⟨ho, σ, limits, _, rfl, hs, hl, outside_snoc htrace rfl⟩

/-- The stream and the decoder are the same. -/
theorem agree_receiveDecodedFrameLoop (reads : List ReadEvent) :
    Proc.Agree (Paired (L := L) options S H) (receiveDecodedFrameLoop reads)
      (receiveDecodedFrameLoop reads) := by
  -- Both are at the same place of one stream, so they take the same branch throughout.
  induction reads with
  | nil =>
      rintro s _ ⟨ho, σ, limits, trace, rfl, hs, hl, htrace⟩
      exact ⟨rfl, ho, σ, limits, trace, rfl, hs, hl, htrace⟩
  | cons e rest ih =>
      rintro s _ ⟨ho, σ, limits, trace, rfl, hs, hl, htrace⟩
      have hread := outside_snoc (e := .transport (.read e)) (f := .transport (.read e)) htrace rfl
      simp only [receiveDecodedFrameLoop]
      -- The read has failed.
      split
      · exact ⟨rfl, ho, σ, limits, _, rfl, hs, hl, hread⟩
      -- The read has brought nothing.
      split
      · exact ⟨rfl, ho, σ, limits, _, rfl, hs, hl, hread⟩
      -- The decoder is content. The first of its frames ends the call, none is a failure.
      split
      · split
        · exact ⟨rfl, ho, σ, limits, _, rfl, hs, hl, hread⟩
        · exact ⟨rfl, ho, σ, limits, _, rfl, hs, hl, hread⟩
      -- An error resets the decoder, and a frame that is not complete has it read on.
      split
      · exact ⟨rfl, ho, σ, limits, _, rfl, hs, hl, hread⟩
      · exact ih _ _ ⟨ho, σ, limits, _, rfl, hs, hl, hread⟩

theorem agree_receiveDecodedFrame :
    Proc.Agree (Paired (L := L) options S H) receiveDecodedFrame receiveDecodedFrame := by
  rintro s _ ⟨ho, σ, limits, trace, rfl, hs, hl, htrace⟩
  unfold receiveDecodedFrame
  simp only
  split
  · exact ⟨rfl, ho, σ, limits, trace, rfl, hs, hl, htrace⟩
  split
  · exact ⟨rfl, ho, σ, limits, trace, rfl, hs, hl, htrace⟩
  · exact agree_receiveDecodedFrameLoop _ _ _ ⟨ho, σ, limits, trace, rfl, hs, hl, htrace⟩

theorem agree_sessionReceive (hS : L.SameVerdict S) (frame : L.Frame) :
    Proc.Agree (Paired options S H) (sessionReceive frame) (sessionReceive frame) := by
  rintro s _ ⟨ho, σ, limits, trace, rfl, hs, hl, htrace⟩
  rcases hS frame hs with ⟨hstatus, hafter⟩
  simp only [sessionReceive]
  rw [← hstatus]
  exact agree_check ⟨ho, _, limits, _, rfl, hafter, hl, outside_snoc htrace rfl⟩

theorem agree_checked {α : Type} (result : HdlcStatus × α) :
    Proc.Agree (Paired (L := L) options S H) (checked result) (checked result) := by
  intro s t h
  unfold checked
  split
  · exact ⟨rfl, h⟩
  · exact ⟨rfl, h⟩

theorem agree_sessionBuild {build : L.Session → HdlcStatus × List UInt8 × L.Session}
    (hS : L.SameBuild S build) :
    Proc.Agree (Paired options S H) (sessionBuild build) (sessionBuild build) := by
  rintro s _ ⟨ho, σ, limits, trace, rfl, hs, hl, htrace⟩
  rcases hS hs with ⟨hstatus, hbytes, hafter⟩
  simp only [sessionBuild]
  rw [← hstatus, ← hbytes]
  exact agree_checked _ _ _ ⟨ho, _, limits, trace, rfl, hafter, hl, htrace⟩

theorem agree_control (hS : L.SameVerdict S) :
    Proc.Agree (Paired options S H) receiveSessionControlFrame receiveSessionControlFrame :=
  Proc.agree_bind agree_receiveDecodedFrame (agree_sessionReceive hS)

theorem agree_retryLoop (hS : L.SameVerdict S) (bytes : List UInt8) (left : Nat) :
    Proc.Agree (Paired options S H) (retryLoop bytes left) (retryLoop bytes left) := by
  -- On the retries left. The outcome of the wait decides what follows, on both sides.
  induction left with
  | zero => exact agree_control hS
  | succ left ih =>
      intro s t h
      rcases agree_control hS s t h with ⟨hout, hafter⟩
      rcases hs : receiveSessionControlFrame s with ⟨o, s1⟩
      rcases ht : receiveSessionControlFrame t with ⟨o', t1⟩
      rw [hs, ht] at hout hafter
      obtain rfl : o = o' := hout
      rcases o with ⟨⟩ | status | _
      · rw [retryLoop_of_done hs, retryLoop_of_done ht]
        exact ⟨rfl, hafter⟩
      -- A status that is retried: the same bytes are written again on both sides.
      · by_cases hagain : isRetriableReceiveStatus status = true
        · rw [retryLoop_of_retry hs hagain, retryLoop_of_retry ht hagain]
          exact Proc.agree_bind agree_sleepBeforeRetry (fun _ =>
            Proc.agree_bind (agree_writeFrameBytes bytes) fun _ => ih) s1 t1 hafter
        -- Any other failure ends the call at once.
        · have hlast := eq_false_of_ne_true hagain
          rw [retryLoop_of_fail hs (Or.inl hlast), retryLoop_of_fail ht (Or.inl hlast)]
          exact ⟨rfl, hafter⟩
      · rw [retryLoop_of_waiting hs, retryLoop_of_waiting ht]
        exact ⟨rfl, hafter⟩

theorem agree_controlWithRetry (hS : L.SameVerdict S) (bytes : List UInt8) :
    Proc.Agree (Paired options S H) (receiveSessionControlFrameWithRetry bytes)
      (receiveSessionControlFrameWithRetry bytes) := by
  intro s t h
  have hsame : t.options = s.options := by
    rcases h with ⟨-, σ, limits, trace, rfl, -⟩
    rfl
  rw [receiveSessionControlFrameWithRetry, receiveSessionControlFrameWithRetry, hsame]
  exact agree_retryLoop hS bytes _ s t h

theorem agree_require (condition : ApduChannelOptions → Bool) (status : ProfileStatus) :
    Proc.Agree (Paired (L := L) options S H) (require (fun s => condition s.options) status)
      (require (fun s => condition s.options) status) := by
  rintro s _ ⟨ho, σ, limits, trace, rfl, hs, hl, htrace⟩
  unfold require
  simp only
  split
  · exact ⟨rfl, ho, σ, limits, trace, rfl, hs, hl, htrace⟩
  · exact ⟨rfl, ho, σ, limits, trace, rfl, hs, hl, htrace⟩

theorem agree_requireOpen : Proc.Agree (Paired (L := L) options S H) requireOpen requireOpen := by
  refine Proc.agree_bind agree_isOpen fun opened => ?_
  cases opened with
  | true => exact Proc.agree_pure ()
  | false => exact Proc.agree_fail _

theorem agree_decodeComplete (frame : L.Frame) :
    Proc.Agree (Paired options S H) (decodeCompleteInformationToPendingApdu frame)
      (decodeCompleteInformationToPendingApdu frame) := by
  rintro s _ ⟨ho, σ, limits, trace, rfl, hs, hl, htrace⟩
  simp only [decodeCompleteInformationToPendingApdu]
  -- An LPDU that is no APDU, one over the limit, and one that is queued.
  split
  · exact ⟨rfl, ho, σ, limits, _, rfl, hs, hl, outside_snoc htrace rfl⟩
  split
  · exact ⟨rfl, ho, σ, limits, _, rfl, hs, hl, outside_snoc htrace rfl⟩
  · exact ⟨rfl, ho, σ, limits, _, rfl, hs, hl, outside_snoc htrace rfl⟩

theorem agree_buildSessionInformationFrame (hH : ∀ {a b}, H a b → a = b)
    (hS : ∀ info pollFinal, L.SameBuild S fun σ => L.buildInformationFrame σ info pollFinal)
    (information : List UInt8) (segmented pollFinal : Bool) :
    Proc.Agree (Paired options S H) (buildSessionInformationFrame information segmented pollFinal)
      (buildSessionInformationFrame information segmented pollFinal) := by
  refine Proc.agree_bind (agree_sessionBuild (hS information pollFinal)) fun bytes => ?_
  cases segmented with
  | false => exact Proc.agree_pure bytes
  | true =>
      -- The rewritten frame is made with the limits, so these have to be equal here.
      refine Proc.agree_bind (fun s t h => ⟨?_, h⟩) fun limits =>
        Proc.agree_bind (agree_checked _) fun decoded => agree_checked _
      rcases h with ⟨-, σ, limits, trace, rfl, -, hl, -⟩
      exact congrArg Outcome.done (hH hl)

theorem agree_buildFrame (hH : ∀ {a b}, H a b → a = b) (lpdu : List UInt8) :
    Proc.Agree (Paired (L := L) options S H) (buildFrame lpdu) (buildFrame lpdu) := by
  refine Proc.agree_bind (fun s t h => ⟨?_, h⟩) fun options => Proc.agree_bind
    (fun s t h => ⟨?_, h⟩) fun limits => Proc.agree_bind (agree_checked _) fun client =>
      Proc.agree_bind (agree_checked _) fun server => Proc.agree_bind (agree_checked _)
        fun control => agree_checked _
  · rcases h with ⟨-, σ, limits, trace, rfl, -⟩
    rfl
  · rcases h with ⟨-, σ, limits, trace, rfl, -, hl, -⟩
    exact congrArg Outcome.done (hH hl)

end Paired

/-- A relation of sessions that the calls of a channel in session mode keep which
    neither establish a link nor send on one. -/
structure Converses (L : HdlcLib) (S : L.Session → L.Session → Prop) : Prop where
  receive : L.SameVerdict S
  disconnectRequest : L.SameBuild S L.buildDisconnectRequest
  receiveReady : L.SameBuild S fun σ => L.buildReceiveReadyFrame σ true

/-- A relation of sessions, and of codec limits, that all calls of a channel in
    session mode keep. Connected sessions must not be told apart at all. -/
structure Simulates (L : HdlcLib) (options : ApduChannelOptions)
    (S : L.Session → L.Session → Prop) (H : HdlcCodecLimits → HdlcCodecLimits → Prop) :
    Prop extends Converses L S where
  state : ∀ {σ τ}, S σ τ → L.sessionState σ = L.sessionState τ
  new : (makeHdlcSessionOptions L options).1 = .ok →
    S (L.newSession (makeHdlcSessionOptions L options).2)
      (L.newSession (makeHdlcSessionOptions L options).2)
  newLimits : (makeHdlcSessionOptions L options).1 = .ok →
    H (makeHdlcSessionOptions L options).2.limits (makeHdlcSessionOptions L options).2.limits
  connectRequest : L.SameBuild S L.buildConnectRequest
  connectResponse : L.SameBuild S L.buildConnectResponse
  connected : ∀ {σ τ}, S σ τ → L.Connected σ → σ = τ
  information : ∀ {σ} (info pollFinal), S σ σ →
    S (L.buildInformationFrame σ info pollFinal).2.2 (L.buildInformationFrame σ info pollFinal).2.2
  limit : ∀ {a b : HdlcCodecLimits} (n), H a b →
    { a with maximumInformationFieldSize := n } = { b with maximumInformationFieldSize := n } ∧
      H { a with maximumInformationFieldSize := n } { b with maximumInformationFieldSize := n }

namespace Converses

variable {options : ApduChannelOptions} {S : L.Session → L.Session → Prop}
  {H : HdlcCodecLimits → HdlcCodecLimits → Prop}

theorem agree_disconnectDataLink (h : Converses L S) :
    Proc.Agree (Paired options S H) disconnectDataLink disconnectDataLink :=
  Proc.agree_bind (agree_require (·.hdlcUseSession) _) fun _ =>
    Proc.agree_bind agree_requireOpen fun _ =>
      Proc.agree_bind (agree_sessionBuild h.disconnectRequest) fun bytes =>
        Proc.agree_bind (agree_writeFrameBytes bytes) fun _ =>
          agree_controlWithRetry h.receive bytes

/-- What becomes of a frame in session mode. -/
theorem agree_acceptCompleted (h : Converses L S) (completed : L.Frame)
    (hasCompleted : Bool) : Proc.Agree (Paired options S H) (acceptCompleted completed hasCompleted)
      (acceptCompleted completed hasCompleted) := by
  refine Proc.agree_bind (agree_sessionReceive h.receive completed) fun _ => ?_
  split
  · exact Proc.agree_pure ()
  · exact Proc.agree_bind (agree_decodeComplete completed) fun _ =>
      Proc.agree_bind (agree_sessionBuild h.receiveReady) agree_writeFrameBytes

end Converses

namespace Simulates

variable {options : ApduChannelOptions} {S : L.Session → L.Session → Prop}
  {H : HdlcCodecLimits → HdlcCodecLimits → Prop}

/-- While I-frames are sent the sessions and the limits are the same. -/
abbrev Sending (options : ApduChannelOptions) (S : L.Session → L.Session → Prop)
    (H : HdlcCodecLimits → HdlcCodecLimits → Prop) : State L → State L → Prop :=
  Paired options (fun σ τ => σ = τ ∧ S σ τ) fun a b => a = b ∧ H a b

theorem sameVerdict_sending (h : Simulates L options S H) :
    L.SameVerdict fun σ τ => σ = τ ∧ S σ τ := by
  rintro σ _ frame ⟨rfl, hs⟩
  exact ⟨rfl, rfl, (h.receive frame hs).2⟩

theorem sameBuild_information (h : Simulates L options S H) (info : List UInt8)
    (pollFinal : Bool) : L.SameBuild (fun σ τ => σ = τ ∧ S σ τ)
      fun σ => L.buildInformationFrame σ info pollFinal := by
  rintro σ _ ⟨rfl, hs⟩
  exact ⟨rfl, rfl, rfl, h.information info pollFinal hs⟩

theorem agree_awaitWindow (h : Simulates L options S H) :
    Proc.Agree (Sending options S H) awaitWindow awaitWindow := by
  intro s t hst
  -- The window is a matter of the session, and the sessions are equal by now.
  have hsame : t.session = s.session := by
    rcases hst with ⟨-, σ, limits, trace, rfl, hs, -⟩
    exact hs.1.symm
  unfold awaitWindow
  rw [hsame]
  split
  · exact ⟨rfl, hst⟩
  · exact agree_control h.sameVerdict_sending s t hst

theorem agree_sendChunk (h : Simulates L options S H) (chunk : List UInt8) (finalFrame : Bool) :
    Proc.Agree (Sending options S H) (sendChunk chunk finalFrame) (sendChunk chunk finalFrame) := by
  refine Proc.agree_bind h.agree_awaitWindow fun _ => Proc.agree_bind (fun s t hst => ⟨?_, hst⟩)
    fun before => Proc.agree_bind (agree_buildSessionInformationFrame (fun hab => hab.1)
      h.sameBuild_information _ _ _) fun bytes => Proc.agree_bind ?_ fun _ =>
        Proc.agree_bind (agree_writeFrameBytes bytes) fun _ =>
          agree_controlWithRetry h.sameVerdict_sending bytes
  · rcases hst with ⟨-, σ, limits, trace, rfl, hs, -⟩
    exact congrArg Outcome.done hs.1
  · rintro s _ ⟨ho, σ, limits, trace, rfl, hs, hl, htrace⟩
    exact ⟨rfl, ho, σ, limits, _, rfl, hs, hl, outside_snoc htrace rfl⟩

theorem agree_sendChunks (h : Simulates L options S H) (chunkSize left : Nat)
    (remaining : List UInt8) : Proc.Agree (Sending options S H)
      (sendChunks chunkSize left remaining) (sendChunks chunkSize left remaining) := by
  -- On the chunks left. The remainder differs from one to the next.
  induction left generalizing remaining with
  | zero => exact Proc.agree_pure ()
  | succ left ih => exact Proc.agree_bind (h.agree_sendChunk _ _) fun _ => ih _

/-- Only a connected session is asked to send, and the limits are set first. -/
theorem agree_sendSessionInformation (h : Simulates L options S H) (lpdu : List UInt8) :
    Proc.Agree (Paired options S H) (sendSessionInformation lpdu)
      (sendSessionInformation lpdu) := by
  rintro s _ ⟨ho, σ, limits, trace, rfl, hs, hl, htrace⟩
  unfold sendSessionInformation
  simp only [← h.state hs]
  split
  · exact ⟨rfl, ho, σ, limits, trace, rfl, hs, hl, htrace⟩
  next hconnected =>
    -- Past the check both sessions are connected, hence one and the same.
    obtain rfl := h.connected hs (not_not.mp hconnected)
    rcases h.limit (L.negotiatedLimits s.session).maxInformationFieldLengthTransmit hl with
      ⟨hsame, hl'⟩
    let limit := (L.negotiatedLimits s.session).maxInformationFieldLengthTransmit
    have hready : Sending options S H
        { s with hdlcLimits := { s.hdlcLimits with maximumInformationFieldSize := limit } }
        { s with
          hdlcLimits := { limits with maximumInformationFieldSize := limit }
          trace := trace } :=
      ⟨ho, s.session, _, trace, rfl, ⟨rfl, hs⟩, ⟨hsame, hl'⟩, htrace⟩
    have hsent := h.agree_sendChunks (chunkSize limit lpdu.length)
      (frameCount lpdu.length (chunkSize limit lpdu.length)) lpdu _ _ hready
    exact ⟨hsent.1, hsent.2.mono (fun hs => hs.2) fun hl => hl.2⟩

/-- A disconnected session is made anew on both sides. -/
theorem agree_ensureSession (h : Simulates L options S H) :
    Proc.Agree (Paired options S H) ensureSession ensureSession := by
  rintro s _ ⟨rfl, σ, limits, trace, rfl, hs, hl, htrace⟩
  unfold ensureSession
  simp only [← h.state hs]
  split
  · exact ⟨rfl, rfl, σ, limits, trace, rfl, hs, hl, htrace⟩
  next hmade =>
    split
    · exact ⟨rfl, rfl, _, _, trace, rfl, h.new (not_not.mp hmade), h.newLimits (not_not.mp hmade),
        htrace⟩
    · exact ⟨rfl, rfl, σ, limits, trace, rfl, hs, hl, htrace⟩

theorem agree_connectDataLink (h : Simulates L options S H) :
    Proc.Agree (Paired options S H) connectDataLink connectDataLink :=
  Proc.agree_bind (agree_require (·.hdlcUseSession) _) fun _ =>
    Proc.agree_bind agree_requireOpen fun _ =>
      Proc.agree_bind (agree_require (·.hdlcRole == .client) _) fun _ =>
        Proc.agree_bind h.agree_ensureSession fun _ =>
          Proc.agree_bind (agree_sessionBuild h.connectRequest) fun bytes =>
            Proc.agree_bind (agree_writeFrameBytes bytes) fun _ =>
              agree_controlWithRetry h.receive bytes

theorem agree_acceptDataLink (h : Simulates L options S H) :
    Proc.Agree (Paired options S H) acceptDataLink acceptDataLink :=
  Proc.agree_bind (agree_require (·.hdlcUseSession) _) fun _ =>
    Proc.agree_bind agree_requireOpen fun _ =>
      Proc.agree_bind (agree_require (·.hdlcRole == .server) _) fun _ =>
        Proc.agree_bind h.agree_ensureSession fun _ =>
          Proc.agree_bind (agree_control h.receive) fun _ =>
            Proc.agree_bind (agree_sessionBuild h.connectResponse) agree_writeFrameBytes

end Simulates

section Calls

variable {options : ApduChannelOptions} {S : L.Session → L.Session → Prop}
  {H : HdlcCodecLimits → HdlcCodecLimits → Prop}

/-- What becomes of a frame. Without a session it is decoded or refused. -/
theorem agree_decodeFrameToPendingApdu
    (h : options.hdlcUseSession = true → Converses L S) (frame : L.Frame) :
    Proc.Agree (Paired options S H) (decodeFrameToPendingApdu frame)
      (decodeFrameToPendingApdu frame) := by
  intro s t hst
  have hframe := agree_decodeComplete frame s t hst
  rcases hst with ⟨rfl, σ, limits, trace, rfl, hs, hl, htrace⟩
  unfold decodeFrameToPendingApdu
  simp only
  -- Without a session a segment is refused, and any other frame decoded as it is.
  split
  · split
    · exact ⟨rfl, rfl, σ, limits, trace, rfl, hs, hl, htrace⟩
    · exact hframe
  next huse =>
    -- In session mode the reassembler decides, and it is the same on both sides.
    split
    · exact ⟨rfl, rfl, σ, limits, trace, rfl, hs, hl, htrace⟩
    split
    · exact ⟨rfl, rfl, σ, limits, trace, rfl, hs, hl, htrace⟩
    · exact (h (Bool.not_eq_false _ ▸ huse)).agree_acceptCompleted _ _ _ _
        ⟨rfl, σ, limits, trace, rfl, hs, hl, htrace⟩

theorem agree_handleFrame (h : options.hdlcUseSession = true → Converses L S)
    (frame : L.Frame) :
    Proc.Agree (Paired options S H) (handleFrame frame) (handleFrame frame) := by
  intro s t hst
  rcases agree_decodeFrameToPendingApdu h frame s t hst with ⟨hout, hafter⟩
  rcases hs : decodeFrameToPendingApdu frame s with ⟨o, s1⟩
  rcases ht : decodeFrameToPendingApdu frame t with ⟨o', t1⟩
  rw [hs, ht] at hout hafter
  obtain rfl : o = o' := hout
  rcases o with ⟨⟩ | status | _
  -- The frame is dealt with. What is returned depends on the queue, which is shared.
  · have hqueue : t1.pendingApdus = s1.pendingApdus := by
      rcases hafter with ⟨-, σ, limits, trace, rfl, -⟩
      rfl
    rw [handleFrame_of_done hs, handleFrame_of_done ht, hqueue]
    exact ⟨rfl, hafter⟩
  · by_cases hmore : status = .needMoreData
    · rw [handleFrame_of_more (hmore ▸ hs), handleFrame_of_more (hmore ▸ ht)]
      exact ⟨rfl, hafter⟩
    · rw [handleFrame_of_fail hs hmore, handleFrame_of_fail ht hmore]
      exact ⟨rfl, hafter⟩
  · rw [handleFrame_of_waiting hs, handleFrame_of_waiting ht]
    exact ⟨rfl, hafter⟩

theorem agree_receive (h : options.hdlcUseSession = true → Converses L S)
    (call : ReceiveCall) {s t : State L} (hst : Paired options S H s t) :
    ((channel L).call call s).1 = ((channel L).call call t).1 ∧
      Paired options S H ((channel L).call call s).2 ((channel L).call call t).2 := by
  have hturn : Proc.Agree (Paired options S H) receiveTurn receiveTurn :=
    Proc.agree_bind agree_receiveDecodedFrame (agree_handleFrame h)
  have hpending : ∀ s t : State L, Paired options S H s t →
      pending.apdus s = pending.apdus t := by
    rintro s _ ⟨-, σ, limits, trace, rfl, -⟩
    rfl
  -- A call is a look at the queue, the loop of turns and what is handed out.
  refine PendingQueue.agree_call hpending ?_
    (PendingQueue.agree_await hpending (Proc.agree_repeatUntil hturn)) call s t hst
  rintro s _ ⟨ho, σ, limits, trace, rfl, hs, hl, htrace⟩
  exact ⟨ho, σ, limits, trace, rfl, hs, hl, htrace⟩

/-- Without a session the limits must be the same, and the session is not asked. -/
theorem agree_sendApdu (h : options.hdlcUseSession = true → Simulates L options S H)
    (hplain : options.hdlcUseSession = false → ∀ {a b}, H a b → a = b) (apdu : ProfileByteView) :
    Proc.Agree (Paired options S H) (sendApdu apdu) (sendApdu apdu) := by
  intro s t hst
  have hpaired := hst
  rcases hst with ⟨rfl, σ, limits, trace, rfl, hs, hl, htrace⟩
  unfold sendApdu
  simp only
  -- Three checks that neither session has a part in.
  split
  · exact ⟨rfl, hpaired⟩
  split
  · exact ⟨rfl, hpaired⟩
  split
  · exact ⟨rfl, hpaired⟩
  split
  next huse => exact (h huse).agree_sendSessionInformation _ _ _ hpaired
  next huse =>
    exact Proc.agree_bind (agree_buildFrame (hplain (Bool.not_eq_true _ ▸ huse)) _)
      agree_writeFrameBytes _ _ hpaired

/-- Without a session the link calls refuse. -/
  -- Each link call asks for session mode first.
theorem agree_unsupported {x : Call L Unit} (huse : options.hdlcUseSession = false) :
    Proc.Agree (Paired options S H)
      (require (·.options.hdlcUseSession) .unsupportedFeature >>= fun _ => x)
      (require (·.options.hdlcUseSession) .unsupportedFeature >>= fun _ => x) := by
  intro s t hst
  have hrefuse : ∀ u : State L, u.options = options →
      (require (·.options.hdlcUseSession) .unsupportedFeature >>= fun _ => x) u =
        (.fail .unsupportedFeature, u) := by
    intro u hu
    have hoff : u.options.hdlcUseSession = false := hu ▸ huse
    exact Proc.bind_of_fail _ (if_neg fun hon => Bool.false_ne_true (hoff.symm.trans hon))
  have ht : t.options = options := by
    rcases hst with ⟨rfl, σ, limits, trace, rfl, -⟩
    rfl
  rw [hrefuse s hst.1, hrefuse t ht]
  exact ⟨rfl, hst⟩

/-- Paired channels answer a call alike and stay paired. -/
theorem exec_paired (h : options.hdlcUseSession = true → Simulates L options S H)
    (hplain : options.hdlcUseSession = false → ∀ {a b}, H a b → a = b) (op : Operation)
    {s t : State L} (hst : Paired options S H s t) :
    (exec op s).1 = (exec op t).1 ∧ Paired options S H (exec op s).2 (exec op t).2 := by
  have hstatus : ∀ {x : Call L Unit}, Proc.Agree (Paired options S H) x x →
      Result.status (x s).1 = .status (x t).1 ∧ Paired options S H (x s).2 (x t).2 :=
    fun hx => ⟨congrArg Result.status (hx s t hst).1, (hx s t hst).2⟩
  -- By the calls. Without a session those on the link never reach one.
  cases op with
  | «open» => exact hstatus agree_openStream
  | close => exact hstatus agree_closeStream
  | isOpen =>
      exact ⟨congrArg Result.flag (agree_isOpen s t hst).1, (agree_isOpen s t hst).2⟩
  | connectDataLink =>
      cases huse : options.hdlcUseSession with
      | true => exact hstatus (h huse).agree_connectDataLink
      | false => exact hstatus (agree_unsupported huse)
  | acceptDataLink =>
      cases huse : options.hdlcUseSession with
      | true => exact hstatus (h huse).agree_acceptDataLink
      | false => exact hstatus (agree_unsupported huse)
  | disconnectDataLink =>
      cases huse : options.hdlcUseSession with
      | true => exact hstatus (h huse).agree_disconnectDataLink
      | false => exact hstatus (agree_unsupported huse)
  | send apdu => exact hstatus (agree_sendApdu h hplain apdu)
  | receive call =>
      rcases agree_receive (fun huse => (h huse).toConverses) call hst with ⟨hout, hafter⟩
      exact ⟨congrArg Result.received hout, hafter⟩

/-- And so do runs. -/
theorem run_paired (h : options.hdlcUseSession = true → Simulates L options S H)
    (hplain : options.hdlcUseSession = false → ∀ {a b}, H a b → a = b) (ops : List Operation)
    {s t : State L} (hst : Paired options S H s t) :
    (run ops s).1 = (run ops t).1 ∧ Paired options S H (run ops s).2 (run ops t).2 := by
  -- On the calls. Paired channels wait at the same call, so the runs stop together.
  induction ops generalizing s t with
  | nil => exact ⟨rfl, hst⟩
  | cons op ops ih =>
      rcases exec_paired h hplain op hst with ⟨hout, hafter⟩
      cases hw : (exec op s).1.isWaiting with
      | true =>
          rw [run_of_waiting hw, run_of_waiting (hout ▸ hw), hout]
          exact ⟨rfl, hafter⟩
      | false =>
          rw [run_of_returned hw, run_of_returned (hout ▸ hw), hout]
          exact ⟨congrArg (List.cons _) (ih hafter).1, (ih hafter).2⟩

end Calls

/-- What holds of every reachable channel: its decoder and its reassembler were made
    with the limits of the constructor. -/
structure Made (law : HdlcResetLaw L) (options : ApduChannelOptions) (s : State L) : Prop where
  decoder : law.decoderMade s.decoder (decoderLimits L options)
  reassembler : law.reassemblerMade s.reassembler (decoderLimits L options)
  options : s.options = options

section Made

variable {law : HdlcResetLaw L} {options : ApduChannelOptions}

/-- What changes neither of them. -/
theorem Made.kept {s s' : State L} (h : Made law options s) (ho : s'.options = s.options)
    (hd : s'.decoder = s.decoder) (hr : s'.reassembler = s.reassembler) : Made law options s' :=
  ⟨hd ▸ h.decoder, hr ▸ h.reassembler, ho.trans h.options⟩

/-- A decoder that was reset is one made anew. -/
theorem decoderMade_reset {d : L.Decoder} {limits : HdlcCodecLimits}
    (h : law.decoderMade d limits) : law.decoderMade (L.resetDecoder d) limits := by
  rw [law.resetDecoder h]
  exact law.newDecoder limits

theorem reassemblerMade_reset {r : L.Reassembler} {limits : HdlcCodecLimits}
    (h : law.reassemblerMade r limits) : law.reassemblerMade (L.resetReassembler r) limits := by
  rw [law.resetReassembler h]
  exact law.newReassembler limits

theorem receiveDecodedFrameLoop_made (reads : List ReadEvent) {s : State L}
    (h : Made law options s) : Made law options (receiveDecodedFrameLoop reads s).2 := by
  -- On the reads. Each pushes its bytes, and an error resets the decoder on top of that.
  induction reads generalizing s with
  | nil => exact h.kept rfl rfl rfl
  | cons e rest ih =>
      have hpush := law.push e.bytes h.decoder
      simp only [receiveDecodedFrameLoop]
      split
      · exact h.kept rfl rfl rfl
      split
      · exact h.kept rfl rfl rfl
      split
      · split
        · exact ⟨hpush, h.reassembler, h.options⟩
        · exact ⟨hpush, h.reassembler, h.options⟩
      split
      · exact ⟨decoderMade_reset hpush, h.reassembler, h.options⟩
      · exact ih ⟨hpush, h.reassembler, h.options⟩

theorem receiveDecodedFrame_made : Proc.Preserves (Made law options) receiveDecodedFrame := by
  intro s h
  unfold receiveDecodedFrame
  split
  · exact h.kept rfl rfl rfl
  split
  · exact h
  · exact receiveDecodedFrameLoop_made s.reads h

theorem ensureSession_made : Proc.Preserves (Made law options) ensureSession := by
  intro s h
  simp only [ensureSession, h.options]
  split
  · exact h
  next hmade =>
    split
    · rw [← newChannel_limits_of_made (not_not.mp hmade)]
      exact ⟨law.newDecoder _, law.newReassembler _, rfl⟩
    · exact h

theorem made_primitives :
    LinkPrimitives (fun s s' : State L => Made law options s → Made law options s') where
  refl _ h := h
  trans _ _ _ h h' hs := h' (h hs)
  isOpen s h := h.kept rfl rfl rfl
  ensureSession := ensureSession_made
  sessionBuild build s h := by
    rw [sessionBuild_snd]
    exact h.kept rfl rfl rfl
  sessionReceive frame s h := by
    rw [sessionReceive_snd]
    exact h.kept rfl rfl rfl
  writeFrameBytes bytes s h := by
    rw [writeFrameBytes_snd]
    exact h.kept rfl rfl rfl
  sleepBeforeRetry s h := by
    rw [sleepBeforeRetry]
    split
    · exact h
    · rw [check_snd]
      exact h.kept rfl rfl rfl
  receiveDecodedFrame := receiveDecodedFrame_made
  emit before bytes s h := h.kept rfl rfl rfl
  limit s n h := h.kept rfl rfl rfl

theorem decodeComplete_made (frame : L.Frame) :
    Proc.Preserves (Made law options) (decodeCompleteInformationToPendingApdu frame) := by
  intro s h
  simp only [decodeCompleteInformationToPendingApdu]
  split
  · exact h.kept rfl rfl rfl
  split
  · exact h.kept rfl rfl rfl
  · exact h.kept rfl rfl rfl

theorem decodeFrame_made (frame : L.Frame) :
    Proc.Preserves (Made law options) (decodeFrameToPendingApdu frame) := by
  intro s h
  have hpush := law.pushFrame frame h.reassembler
  unfold decodeFrameToPendingApdu
  -- Without a session the reassembler is not asked.
  split
  · split
    · exact h
    · exact decodeComplete_made frame s h
  simp only
  -- A segment to wait with is kept, and an error resets the reassembler.
  split
  · exact ⟨h.decoder, hpush, h.options⟩
  split
  · exact ⟨h.decoder, reassemblerMade_reset hpush, h.options⟩
  -- What is complete is shown to the session and decoded.
  · refine Proc.preserves_bind (made_primitives.sessionReceive _) (fun _ => ?_) _
      ⟨h.decoder, hpush, h.options⟩
    split
    · exact Proc.preserves_pure ()
    · exact Proc.preserves_bind (decodeComplete_made _) fun _ =>
        Proc.preserves_bind (made_primitives.sessionBuild _) made_primitives.writeFrameBytes

theorem exec_made (op : Operation) {s : State L} (h : Made law options s) :
    Made law options (exec op s).2 := by
  -- `Close` resets both, `ReceiveApdu` pushes to both, and no other call does either.
  cases op with
  | «open» =>
      simp only [exec, openStream, check_snd]
      exact h.kept rfl rfl rfl
  | close =>
      simp only [exec, closeStream, check_snd]
      exact ⟨decoderMade_reset h.decoder, reassemblerMade_reset h.reassembler, h.options⟩
  | isOpen => exact h.kept rfl rfl rfl
  | connectDataLink => exact made_primitives.within_connectDataLink s h
  | acceptDataLink => exact made_primitives.within_acceptDataLink s h
  | disconnectDataLink => exact made_primitives.within_disconnectDataLink s h
  | send apdu => exact made_primitives.within_sendApdu apdu s h
  | receive call =>
      have hturn : Proc.Preserves (Made law options) receiveTurn := by
        refine Proc.preserves_bind receiveDecodedFrame_made fun frame s h => ?_
        rw [handleFrame_snd]
        exact decodeFrame_made frame s h
      exact PendingQueue.preserves_call
        (PendingQueue.preserves_await (Proc.preserves_repeatUntil hturn))
        (fun s h => h.kept rfl rfl rfl) call s h

theorem made_of_reachable {s : State L} (h : Reachable L options s) : Made law options s := by
  -- A channel just constructed has both new.
  refine h.preserves (fun start hnew => ?_) fun op _ => exec_made op
  have hdecoder : start.decoder = L.newDecoder (decoderLimits L options) := by
    rw [hnew]
    rfl
  have hreassembler : start.reassembler = L.newReassembler (decoderLimits L options) := by
    rw [hnew]
    rfl
  refine ⟨?_, ?_, ?_⟩
  · rw [hdecoder]
    exact law.newDecoder _
  · rw [hreassembler]
    exact law.newReassembler _
  · rw [hnew]
    rfl

end Made

/-- The options the constructor makes its session with. -/
def constructedWith (L : HdlcLib) (options : ApduChannelOptions) : L.SessionOptions :=
  if (makeHdlcSessionOptions L options).1 = .ok then (makeHdlcSessionOptions L options).2
  else makeDefaultSessionOptions L

/-- The limits are those of the constructor, but for the size of an information
    field in session mode. -/
def Limited (options : ApduChannelOptions) (made limits : HdlcCodecLimits) : Prop :=
  limits.maximumReassembledInformationSize = made.maximumReassembledInformationSize ∧
    (options.hdlcUseSession = false → limits = made)

/-- The session of a reachable channel was made with the options of the constructor,
    and the limits are its limits. A channel paired with itself shows it. -/
theorem session_of_reachable (law : HdlcRestLaw L) {options : ApduChannelOptions} {s : State L}
    (h : Reachable L options s) :
    law.made s.session (constructedWith L options) ∧
      Limited options (decoderLimits L options) s.hdlcLimits := by
  -- The relation is equality, so that pairing carries what moves of the session keep.
  have hmoves : ∀ {σ σ'}, law.made σ (constructedWith L options) → L.Moves σ σ' →
      law.made σ' (constructedWith L options) := law.moves
  have hsim : options.hdlcUseSession = true → Simulates L options
      (fun σ τ => σ = τ ∧ law.made σ (constructedWith L options))
      (fun a b => a = b ∧ Limited options (decoderLimits L options) a) := fun huse =>
    { receive := by
        rintro σ _ frame ⟨rfl, hmade⟩
        exact ⟨rfl, rfl, hmoves hmade (.receive frame)⟩
      disconnectRequest := by
        rintro σ _ ⟨rfl, hmade⟩
        exact ⟨rfl, rfl, rfl, hmoves hmade .disconnectRequest⟩
      receiveReady := by
        rintro σ _ ⟨rfl, hmade⟩
        exact ⟨rfl, rfl, rfl, hmoves hmade (.receiveReady true)⟩
      state := fun hs => hs.1 ▸ rfl
      new := fun hmade => ⟨rfl, by
        rw [constructedWith, if_pos hmade]
        exact law.new _⟩
      newLimits := fun hmade => ⟨rfl, by
        rw [newChannel_limits_of_made hmade]
        exact ⟨rfl, fun _ => rfl⟩⟩
      connectRequest := by
        rintro σ _ ⟨rfl, hmade⟩
        exact ⟨rfl, rfl, rfl, hmoves hmade .connectRequest⟩
      connectResponse := by
        rintro σ _ ⟨rfl, hmade⟩
        exact ⟨rfl, rfl, rfl, hmoves hmade .connectResponse⟩
      connected := fun hs _ => hs.1
      information := fun info pollFinal hs => ⟨rfl, hmoves hs.2 (.information info pollFinal)⟩
      limit := by
        rintro a _ n ⟨rfl, hlimited⟩
        exact ⟨rfl, rfl, hlimited.1, fun hoff => absurd (huse.symm.trans hoff) (by simp)⟩ }
  -- The run of the channel beside itself.
  rcases h with ⟨start, ops, hnew, -, rfl⟩
  have hstart : Paired options (fun σ τ => σ = τ ∧ law.made σ (constructedWith L options))
      (fun a b => a = b ∧ Limited options (decoderLimits L options) a) start start := by
    have hsession : start.session = L.newSession (constructedWith L options) := by
      rw [hnew]
      rfl
    have hlimits : start.hdlcLimits = decoderLimits L options := by
      rw [hnew]
      rfl
    refine ⟨by rw [hnew]; rfl, start.session, start.hdlcLimits, start.trace, rfl, ⟨rfl, ?_⟩,
      ⟨rfl, ?_⟩, rfl⟩
    · rw [hsession]
      exact law.new _
    · rw [hlimits]
      exact ⟨rfl, fun _ => rfl⟩
  rcases (run_paired hsim (fun _ _ _ hab => hab.1) ops hstart).2 with
    ⟨-, σ, limits, trace, -, hs, hl, -⟩
  exact ⟨hs.2, hl.2⟩

/-- The channel after `Close` and `Open`. -/
def reopened (s : State L) : State L := (openStream (closeStream s).2).2

/-- `SendApdu` gets as far as to look at the session. -/
def Encodes (s : State L) (apdu : ProfileByteView) : Prop :=
  isValidByteView apdu = true ∧
    ¬ (s.options.maximumApduSize ≠ 0 ∧ s.options.maximumApduSize < apdu.size) ∧
    mapLlcStatus (encodeApdu L s.options apdu.data).1 = .ok

/-- The session takes the UA it awaits. -/
def Event.connects (law : HdlcConnectLaw L) : Event L → Prop
  | .receive σ frame status => status = .ok ∧ L.sessionState σ = .connecting ∧ law.ua frame.control
  | _ => False

/-- A write the stream refuses. -/
def Event.failsToWrite : Event L → Prop
  | .transport (.write _ status) => status ≠ .ok
  | _ => False

/-- What makes a link come up that no call reports: the UA a `ConnectDataLink` has given
    up waiting for is taken by another call, or the UA of an `AcceptDataLink` cannot be
    written. -/
def Unreported (law : HdlcConnectLaw L) (op : Operation) (e : Event L) : Prop :=
  op ≠ .connectDataLink ∧ e.connects law ∨ op = .acceptDataLink ∧ e.failsToWrite

/-- The call, if it is one to establish a link, does not succeed. -/
def LinksNone (s : State L) (op : Operation) : Prop :=
  op.establishes = true → (exec op s).1 ≠ .status (.done ())

/-- After `Close` and `Open` the channel does, call for call, what a channel just
    constructed does in the same surroundings. In session mode, until a link call has
    succeeded, no `SendApdu` writes anything, and each that gets so far says `NotOpen`,
    unless a link has come up unreported. -/
structure FullReset (law : HdlcConnectLaw L) (s : State L) : Prop where
  same : ∀ ops, (run ops (reopened s)).1 = (run ops (renewed (reopened s))).1 ∧
    outside (run ops (reopened s)).2.trace = outside (run ops (renewed (reopened s))).2.trace
  unlinked : s.options.hdlcUseSession = true → ∀ ops, AtEachCall LinksNone ops (reopened s) →
    EachCall (fun op events => ∀ e ∈ events, ¬ Unreported law op e) ops (reopened s) → ∀ apdu,
      let t := (run ops (reopened s)).2
      (sendApdu apdu t).2 = t ∧ (Encodes t apdu → (sendApdu apdu t).1 = .fail .notOpen)

/-- A session that is not connected keeps `SendApdu` from sending. -/
theorem sendApdu_unlinked {s : State L} (huse : s.options.hdlcUseSession = true)
    (hapart : ¬ L.Connected s.session) (apdu : ProfileByteView) :
    (sendApdu apdu s).2 = s ∧ (Encodes s apdu → (sendApdu apdu s).1 = .fail .notOpen) := by
  have hnot : sendSessionInformation (encodeApdu L s.options apdu.data).2 s = (.fail .notOpen, s) :=
    if_pos hapart
  unfold sendApdu
  -- The three checks come before the session is looked at, and leave the state alone.
  by_cases hvalid : isValidByteView apdu = false
  · rw [if_pos hvalid]
    exact ⟨rfl, fun h => absurd (h.1.symm.trans hvalid) Bool.true_eq_false.mp⟩
  rw [if_neg hvalid]
  by_cases hlarge : s.options.maximumApduSize ≠ 0 ∧ s.options.maximumApduSize < apdu.size
  · rw [if_pos hlarge]
    exact ⟨rfl, fun h => absurd hlarge h.2.1⟩
  rw [if_neg hlarge]
  by_cases hllc : mapLlcStatus (encodeApdu L s.options apdu.data).1 = .ok
  · simp only [ne_eq, hllc, not_true_eq_false, if_false, huse, if_true, hnot, implies_true,
      and_self]
  · simp only [ne_eq, hllc, not_false_eq_true, if_true, true_and]
    exact fun h => absurd h.2.2 hllc

section Unlinked

variable {law : HdlcConnectLaw L} {B : Event L → Prop}

/-- A session that is not connected is not connected after the step, if nothing recorded
    of it is among the given events. -/
def StaysApart (B : Event L → Prop) (s s' : State L) : Prop :=
  ∃ events, s'.trace = s.trace ++ events ∧
    (¬ L.Connected s.session → (∀ e ∈ events, ¬ B e) → ¬ L.Connected s'.session)

theorem staysApart_of_same {s s' : State L} {events : List (Event L)}
    (htrace : s'.trace = s.trace ++ events) (hsession : s'.session = s.session) :
    StaysApart B s s' :=
  ⟨events, htrace, fun h _ => hsession ▸ h⟩

theorem staysApart_refl (s : State L) : StaysApart B s s :=
  staysApart_of_same (List.append_nil _).symm rfl

theorem staysApart_trans {a b c : State L} (h : StaysApart B a b) (h' : StaysApart B b c) :
    StaysApart B a c := by
  rcases h with ⟨events, htrace, hapart⟩
  rcases h' with ⟨events', htrace', hapart'⟩
  -- The events of both steps together. None of either is among the given ones.
  refine ⟨events ++ events', by rw [htrace', htrace, List.append_assoc], fun ha hall => ?_⟩
  rw [List.forall_mem_append] at hall
  exact hapart' (hapart ha hall.1) hall.2

/-- A call of the session that builds a frame and leaves one apart that is apart. -/
theorem staysApart_build {build : L.Session → HdlcStatus × List UInt8 × L.Session}
    (h : ∀ {σ}, ¬ L.Connected σ → ¬ L.Connected (build σ).2.2) :
    Proc.Within (StaysApart B) (sessionBuild (L := L) build) := by
  intro s
  rw [sessionBuild_snd]
  exact ⟨[], (List.append_nil _).symm, fun ha _ => h ha⟩

theorem staysApart_wait (hB : ∀ e : Event L, e.connects law → B e) :
    WaitPrimitives (StaysApart B) where
  refl := staysApart_refl
  trans _ _ _ := staysApart_trans
  sessionReceive frame s := by
    rw [sessionReceive_snd]
    refine ⟨_, rfl, fun ha hall hafter => ?_⟩
    -- Only the UA it awaits connects a session, and that is an event of the first kind.
    exact hall _ (List.mem_singleton.mpr rfl) (hB _ (law.receive ha hafter))
  writeFrameBytes bytes s := by
    rw [writeFrameBytes_snd]
    exact staysApart_of_same rfl rfl
  sleepBeforeRetry s := by
    rcases (sleepBeforeRetry_aside s).events with ⟨events, htrace, -⟩
    exact staysApart_of_same htrace (sleepBeforeRetry_aside s).session
  receiveDecodedFrame s := by
    rcases (receiveDecodedFrame_aside s).events with ⟨events, htrace, -⟩
    exact staysApart_of_same htrace (receiveDecodedFrame_aside s).session

theorem staysApart_intake (hB : ∀ e : Event L, e.connects law → B e) :
    IntakePrimitives (StaysApart B) where
  toWaitPrimitives := staysApart_wait hB
  receiveReady pollFinal := staysApart_build (law.receiveReady pollFinal)
  decodeComplete frame s := by
    simp only [decodeCompleteInformationToPendingApdu]
    split
    · exact staysApart_of_same rfl rfl
    split <;> exact staysApart_of_same rfl rfl
  reassembler s r := staysApart_of_same (List.append_nil _).symm rfl

/-- The same of a call that does not succeed. -/
def FailsApart (B : Event L → Prop) (x : Call L Unit) : Prop :=
  ∀ s, (x s).1 ≠ .done () → StaysApart B s (x s).2

theorem failsApart_bind {α : Type} {x : Call L α} {k : α → Call L Unit}
    (hx : Proc.Within (StaysApart B) x) (hk : ∀ a, FailsApart B (k a)) :
    FailsApart B (x >>= k) := by
  intro s hnot
  -- The first call may return, fail or wait. Only in the first case does the second start.
  have h1 := hx s
  rcases hr : x s with ⟨a | status | _, s1⟩ <;> rw [hr] at h1
  · rw [Proc.bind_of_done _ hr] at hnot ⊢
    exact staysApart_trans h1 (hk a s1 hnot)
  · rw [Proc.bind_of_fail _ hr]
    exact h1
  · rw [Proc.bind_of_waiting _ hr]
    exact h1

/-- A wait that does not end well was shown no frame that connects the session. -/
theorem control_failsApart (law : HdlcConnectLaw L) :
    FailsApart B (receiveSessionControlFrame (L := L)) := by
  refine failsApart_bind (fun s => ?_) fun frame s hnot => ?_
  · rcases (receiveDecodedFrame_aside s).events with ⟨events, htrace, -⟩
    exact staysApart_of_same htrace (receiveDecodedFrame_aside s).session
  · rw [sessionReceive_snd]
    refine ⟨_, rfl, fun ha _ hafter => hnot ?_⟩
    -- A session connected by the frame has accepted it, and then the call succeeds.
    have hok := mapHdlcStatus_eq_ok.mpr (law.receive ha hafter).1
    rw [sessionReceive_eq, hok]
    rfl

theorem retryLoop_failsApart (law : HdlcConnectLaw L) (bytes : List UInt8) (left : Nat) :
    FailsApart B (retryLoop (L := L) bytes left) := by
  -- On the retries left. A wait that succeeds is excluded, as the call then does.
  induction left with
  | zero => exact control_failsApart law
  | succ left ih =>
      intro s hnot
      have h1 := control_failsApart (B := B) law s
      rcases hr : receiveSessionControlFrame s with ⟨⟨⟩ | status | _, s1⟩ <;> rw [hr] at h1
      · rw [retryLoop_of_done hr] at hnot
        exact absurd rfl hnot
      · have h1 := h1 (fun hc => by cases hc)
        cases hagain : isRetriableReceiveStatus status with
        | false =>
            rw [retryLoop_of_fail hr (Or.inl hagain)]
            exact h1
        | true =>
            rw [retryLoop_of_retry hr hagain] at hnot ⊢
            refine staysApart_trans h1 (failsApart_bind (fun s => ?_) (fun _ =>
              failsApart_bind (fun s => ?_) fun _ => ih) s1 hnot)
            · rcases (sleepBeforeRetry_aside s).events with ⟨events, htrace, -⟩
              exact staysApart_of_same htrace (sleepBeforeRetry_aside s).session
            · rw [writeFrameBytes_snd]
              exact staysApart_of_same rfl rfl
      · rw [retryLoop_of_waiting hr]
        exact h1 (fun hc => by cases hc)

theorem require_staysApart (condition : State L → Bool) (status : ProfileStatus) :
    Proc.Within (StaysApart B) (require condition status) := by
  intro s
  rw [require]
  split <;> exact staysApart_refl s

theorem requireOpen_staysApart : Proc.Within (StaysApart B) (requireOpen (L := L)) := by
  have hasked : Proc.Within (StaysApart B) (isOpen (L := L)) := fun s =>
    staysApart_of_same rfl rfl
  refine Proc.within_bind (fun _ _ _ => staysApart_trans) hasked fun opened => ?_
  cases opened with
  | true => exact fun s => staysApart_refl s
  | false => exact fun s => staysApart_refl s

/-- A link call looks after the session before anything else. -/
theorem establishing_failsApart (law : HdlcConnectLaw L) (role : HdlcProfileRole)
    (rest : Call L Unit) (hrest : FailsApart B rest) : FailsApart B (establishing role rest) := by
  have hensure : Proc.Within (StaysApart B) (ensureSession (L := L)) := fun s => by
    -- A session made anew is disconnected, and an old one was not connected before.
    refine ⟨[], (ensureSession_trace s).trans (List.append_nil _).symm, fun ha _ => ?_⟩
    simp only [ensureSession]
    split
    · exact ha
    split
    · exact law.new _
    · exact ha
  refine failsApart_bind (require_staysApart _ _) fun _ => ?_
  refine failsApart_bind requireOpen_staysApart fun _ => ?_
  refine failsApart_bind (require_staysApart _ _) fun _ => ?_
  exact failsApart_bind hensure fun _ => hrest

/-- Until a link call has succeeded, each call leaves the session apart. -/
theorem exec_apart (law : HdlcConnectLaw L) {op : Operation} {s : State L}
    (huse : s.options.hdlcUseSession = true) (hnone : LinksNone s op) :
    ∃ events, (exec op s).2.trace = s.trace ++ events ∧
      (¬ L.Connected s.session → (∀ e ∈ events, ¬ Unreported law op e) →
        ¬ L.Connected (exec op s).2.session) := by
  have hB : op ≠ .connectDataLink → ∀ e : Event L, e.connects law → Unreported law op e :=
    fun hop e he => Or.inl ⟨hop, he⟩
  -- By the calls. The two that establish a link are the ones that may fail on the way.
  cases op with
  | «open» =>
      simp only [exec, openStream, check_snd]
      exact ⟨_, rfl, fun ha _ => ha⟩
  | close =>
      simp only [exec, closeStream, check_snd]
      exact ⟨_, rfl, fun ha _ => ha⟩
  | isOpen => exact staysApart_of_same rfl rfl
  | connectDataLink =>
      -- Every way to fail leaves before a UA is accepted.
      have hnot : (connectDataLink s).1 ≠ .done () := fun hc =>
        hnone rfl (congrArg Result.status hc)
      refine establishing_failsApart law .client requestConnection ?_ s hnot
      refine failsApart_bind (staysApart_build law.connectRequest) fun bytes => ?_
      refine failsApart_bind (fun s => ?_) fun _ s => retryLoop_failsApart law bytes _ s
      rw [writeFrameBytes_snd]
      exact staysApart_of_same rfl rfl
  | acceptDataLink =>
      -- Waiting for the SNRM changes nothing. The UA is what connects a server.
      have hnot : (acceptDataLink s).1 ≠ .done () := fun hc =>
        hnone rfl (congrArg Result.status hc)
      refine establishing_failsApart law .server (receiveSessionControlFrame >>= fun _ =>
        sessionBuild L.buildConnectResponse >>= writeFrameBytes) ?_ s hnot
      refine failsApart_bind (staysApart_wait (hB Operation.noConfusion)).within_control ?_
      intro _ s hnot
      rcases hbuild : L.buildConnectResponse s.session with ⟨status, bytes, σ⟩
      by_cases hok : status = .ok
      · -- The UA is built, and does not get out.
        obtain rfl := hok
        have hb : sessionBuild L.buildConnectResponse s =
            (.done bytes, { s with session := σ }) := by
          rw [sessionBuild, hbuild]
          rfl
        rw [Proc.bind_of_done _ hb] at hnot ⊢
        rw [writeFrameBytes_snd]
        refine ⟨_, rfl, fun _ hall _ => ?_⟩
        refine hall _ (List.mem_singleton.mpr rfl) (Or.inr ⟨rfl, fun hwrite => hnot ?_⟩)
        rw [writeFrameBytes, mapTransportStatus_eq_ok.mpr hwrite]
        rfl
      -- No UA is built, and the session stays as it was.
      · have hb : sessionBuild L.buildConnectResponse s =
            (.fail (mapHdlcStatus status), { s with session := σ }) := by
          rw [sessionBuild, hbuild, checked, if_neg fun hc => hok (mapHdlcStatus_eq_ok.mp hc)]
        rw [Proc.bind_of_fail _ hb]
        refine ⟨[], (List.append_nil _).symm, fun ha _ hafter => hok ?_⟩
        have hresponse := law.connectResponse (σ := s.session) ha
        rw [hbuild] at hresponse
        exact hresponse hafter
  | disconnectDataLink =>
      have hwait := staysApart_wait (hB Operation.noConfusion)
      refine Proc.within_bind hwait.trans (require_staysApart _ _) (fun _ => ?_) s
      refine Proc.within_bind hwait.trans requireOpen_staysApart fun _ => ?_
      refine Proc.within_bind hwait.trans (staysApart_build law.disconnectRequest) fun bytes => ?_
      exact Proc.within_bind hwait.trans (hwait.writeFrameBytes bytes) fun _ =>
        hwait.within_controlWithRetry bytes
  | send apdu =>
      -- On an established link there is nothing to show, and off it nothing is sent.
      by_cases ha : L.Connected s.session
      · have hclose : Operation.send apdu ≠ .close := fun hc => by cases hc
        rcases exec_delivers hclose s with ⟨events, htrace, -⟩
        exact ⟨events, htrace, fun hn => absurd ha hn⟩
      · have hsame := (sendApdu_unlinked huse ha apdu).1
        refine ⟨[], ?_, fun _ _ => ?_⟩
        · simp only [exec, hsame, List.append_nil]
        · simp only [exec, hsame]
          exact ha
  | receive call =>
      have hintake := staysApart_intake (hB Operation.noConfusion)
      exact PendingQueue.within_call hintake.refl hintake.trans hintake.within_awaitApdu
        (fun s => staysApart_of_same (List.append_nil _).symm rfl) call s

/-- And so does a run. -/
theorem run_apart {ops : List Operation} {s : State L}
    (huse : s.options.hdlcUseSession = true) (ha : ¬ L.Connected s.session)
    (hnone : AtEachCall LinksNone ops s)
    (hall : EachCall (fun op events => ∀ e ∈ events, ¬ Unreported law op e) ops s) :
    ¬ L.Connected (run ops s).2.session := by
  -- On the calls, with the session apart at the start of each.
  induction ops generalizing s with
  | nil => exact ha
  | cons op ops ih =>
      rcases exec_apart law huse hnone.1 with ⟨events, htrace, hapart⟩
      have hevents := hall.1
      rw [htrace, List.drop_left] at hevents
      have hfirst := hapart ha hevents
      cases hw : (exec op s).1.isWaiting with
      | true =>
          rw [run_of_waiting hw]
          exact hfirst
      | false =>
          rw [run_of_returned hw]
          refine ih ?_ hfirst (hnone.2 hw) (hall.2 hw)
          rw [(sameMake_primitives.exec op s).1]
          exact huse

end Unlinked

section Reset

variable {options : ApduChannelOptions}

/-- Two disconnected sessions of one making, and limits that differ in what is set
    before it is used. -/
theorem simulates_alike (law : HdlcRestLaw L) (huse : options.hdlcUseSession = true) :
    Simulates L options law.alike fun a b =>
      a.maximumReassembledInformationSize = b.maximumReassembledInformationSize ∧
        (options.hdlcUseSession = false → a = b) where
  receive := law.receive
  disconnectRequest := law.disconnectRequest
  receiveReady := law.receiveReady true
  state := law.state
  new _ := law.refl _
  newLimits _ := ⟨rfl, fun _ => rfl⟩
  connectRequest := law.connectRequest
  connectResponse := law.connectResponse
  connected := law.connected
  information _ _ _ := law.refl _
  limit n h :=
    ⟨by rw [h.1], h.1, fun hoff => absurd (huse.symm.trans hoff) Bool.true_eq_false.mp⟩

/-- After `Close` and `Open` the channel is one just constructed, but for the session
    and the limits. -/
theorem renewed_reopened (reset : HdlcResetLaw L) {s : State L} (hs : Reachable L options s) :
    (reopened s).options = options ∧ (reopened s).session = s.session ∧
      (reopened s).hdlcLimits = s.hdlcLimits ∧
      renewed (reopened s) = { reopened s with
        session := L.newSession (constructedWith L options)
        hdlcLimits := decoderLimits L options } := by
  have hmade : Made reset options s := made_of_reachable hs
  have hbuffer := (make_of_reachable hs).2
  have hoptions := hmade.options
  subst hoptions
  simp only [reopened, renewed, openStream, closeStream, check_snd, true_and,
    reset.resetDecoder hmade.decoder, reset.resetReassembler hmade.reassembler, hbuffer]
  rfl

/-- `Close` is a full reset of a channel without a session, and of one whose session
    is disconnected. -/
theorem full_reset (law : HdlcRestLaw L) (reset : HdlcResetLaw L) (connect : HdlcConnectLaw L)
    {s : State L} (hs : Reachable L options s)
    (hrest : options.hdlcUseSession = true → L.sessionState s.session = .disconnected) :
    FullReset connect s := by
  rcases renewed_reopened reset hs with ⟨hoptions, hsession, hlimits, hrenewed⟩
  rcases session_of_reachable law hs with ⟨hmade, hlimited⟩
  constructor
  · intro ops
    -- The two differ in the session and the limits, whatever the sessions have in common.
    have hpaired : ∀ S : L.Session → L.Session → Prop,
        S s.session (L.newSession (constructedWith L options)) →
        Paired options S (fun a b =>
          a.maximumReassembledInformationSize = b.maximumReassembledInformationSize ∧
            (options.hdlcUseSession = false → a = b)) (reopened s) (renewed (reopened s)) := by
      intro S hS
      rw [hrenewed]
      exact ⟨hoptions, _, _, _, rfl, hsession ▸ hS, hlimits ▸ hlimited, rfl⟩
    have hsame : (run ops (reopened s)).1 = (run ops (renewed (reopened s))).1 ∧
        ∃ S, Paired options S (fun a b =>
          a.maximumReassembledInformationSize = b.maximumReassembledInformationSize ∧
            (options.hdlcUseSession = false → a = b))
          (run ops (reopened s)).2 (run ops (renewed (reopened s))).2 := by
      cases huse : options.hdlcUseSession with
      | true =>
          -- A disconnected session is like one never used.
          have hrun := run_paired (fun _ => simulates_alike law huse)
            (fun hoff => absurd (huse.symm.trans hoff) Bool.true_eq_false.mp) ops
            (hpaired law.alike (law.rest hmade (hrest huse)))
          exact ⟨hrun.1, _, huse ▸ hrun.2⟩
      | false =>
          -- Without a session any two will do, and the limits have never been changed.
          have hrun := run_paired
            (fun hon => absurd (huse.symm.trans hon) Bool.false_eq_true.mp)
            (fun hoff a b hab => hab.2 hoff) ops (hpaired (fun _ _ => True) trivial)
          exact ⟨hrun.1, _, huse ▸ hrun.2⟩
    rcases hsame with ⟨hout, S, -, σ, limits, trace, ht, -, -, htrace⟩
    refine ⟨hout, ?_⟩
    rw [ht]
    exact htrace
  · intro huse ops hnone hall apdu
    -- `Close` and `Open` leave the session apart, and the run keeps it so.
    have huse' : (reopened s).options.hdlcUseSession = true := by
      rw [hoptions, ← (make_of_reachable hs).1]
      exact huse
    have hapart : ¬ L.Connected (reopened s).session := by
      rw [hsession]
      intro hc
      have hdisc := hrest ((make_of_reachable hs).1 ▸ huse)
      cases hdisc.symm.trans hc
    refine sendApdu_unlinked ?_ (run_apart huse' hapart hnone hall) apdu
    rw [(sameMake_primitives.run ops (reopened s)).1]
    exact huse'

end Reset

/-- A client that has connected and disconnected again is closed and opened. Its next
    `ConnectDataLink` gets no answer, and after that its `SendApdu` says `NotOpen`. -/
theorem full_reset_disconnected :
    let start := Reference.hdlcChannel Reference.sessionOptions
      (Reference.arrived (Reference.toClient Reference.ua []) ::
        Reference.arrived (Reference.toClient Reference.ua []) ::
        List.replicate 4 ⟨.timeout, []⟩)
    let s := (run [.connectDataLink, .disconnectDataLink] start).2
    FullReset Reference.connectLaw s ∧
      (run [.connectDataLink] (reopened s)).1 = [.status (.fail .timeout)] ∧
      (sendApdu (.of [1]) (run [.connectDataLink] (reopened s)).2).1 = .fail .notOpen := by
  intro start s
  have hreset : FullReset Reference.connectLaw s :=
    full_reset Reference.restLaw Reference.resetLaw Reference.connectLaw ⟨_, _, rfl, rfl, rfl⟩
      fun _ => by decide +kernel
  refine ⟨hreset, by decide +kernel, ?_⟩
  refine (hreset.unlinked (by decide +kernel) [.connectDataLink] ?_ ?_ (.of [1])).2 ?_
  · exact ⟨fun _ => by decide +kernel, fun _ => trivial⟩
  · refine ⟨fun e _ h => ?_, fun _ => trivial⟩
    rcases h with ⟨hop, -⟩ | ⟨hop, -⟩
    · exact hop rfl
    · cases hop
  · exact ⟨by decide +kernel, by decide +kernel, by decide +kernel⟩

/-- A client that has connected is closed, and opened again. Its `SendApdu` writes an
    I-frame and waits, where a channel just constructed says `NotOpen`. -/
theorem full_reset_refuted :
    let start := Reference.hdlcChannel Reference.sessionOptions
      [Reference.arrived (Reference.toClient Reference.ua [])]
    let s := (run [.connectDataLink] start).2
    Reachable Reference.hdlcLib Reference.sessionOptions s ∧
      (run [.send (.of [1])] (reopened s)).1 = [.status .waiting] ∧
      (run [.send (.of [1])] (renewed (reopened s))).1 = [.status (.fail .notOpen)] ∧
      ¬ FullReset Reference.connectLaw s := by
  refine ⟨⟨_, _, rfl, rfl, rfl⟩, by decide +kernel, by decide +kernel, fun h => ?_⟩
  have hsame := (h.same [.send (.of [1])]).1
  revert hsame
  decide +kernel

end Hdlc

end DlmsProfile
