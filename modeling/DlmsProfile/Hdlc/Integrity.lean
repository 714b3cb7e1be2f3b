import DlmsProfile.Hdlc.Content
import DlmsProfile.Hdlc.Ordered
import DlmsProfile.Hdlc.Sequence

/-!
# Content across Lost and Repeated Frames

What a channel hands over is the content of completed runs of I-frames, and a run is what
lies between two I-frames that are no segments. Neither end knows where a call of
`SendApdu` begins, so a run is the APDU of one call only if no call is cut in two on its
way: of an LPDU that takes several I-frames either nothing arrives, or each I-frame does
and no copy of it. An LPDU that fits one I-frame is a run by itself, and may be lost or
repeated at will. After the last run segments alone may still arrive.

Both ends may send and receive as they like. What arrives is what the receive calls of a
channel take: a frame that the line drops and one that a wait of the channel's own
`SendApdu` takes are both lost.

## Main definitions

* `Hdlc.recordOf`: What a call recorded.
* `Hdlc.Lossy`: What arrives of the calls made.
* `Hdlc.ArrivesWhole`: Each I-frame of a call arrives, and no copy.
* `Hdlc.Uncut`, `Hdlc.Undivided`: No call is cut in two.

## Theorems

* `Hdlc.sendApdu_writesOnly`: Whatever becomes of a call, it writes I-frames of its LPDU.
* `Hdlc.receive_writes`: A receive call writes RRs.
* `Hdlc.call_runs`: The runs of what arrives of one call.
* `Hdlc.received_whole`: What is handed over is the APDU of one call.
-/

namespace DlmsProfile

namespace Hdlc

variable {L : HdlcLib} {law : HdlcSessionLaw L}

/-- The completed runs of I-frames. -/
def runsOf (frames : List L.Frame) : List (List L.Frame) :=
  Runs.completed (·.segmented) [] frames

section Writes

variable {apdu : ProfileByteView} {s : State L}

theorem WritesOnly.mono {P Q : List UInt8 → Prop} {s s' : State L} (h : WritesOnly P s s')
    (hPQ : ∀ bytes, P bytes → Q bytes) : WritesOnly Q s s' := by
  rcases h with ⟨events, htrace, hall⟩
  exact ⟨events, htrace, fun w hw => hPQ w.1 (hall w hw)⟩

/-- One turn of the sending loop writes copies of one I-frame, or nothing. -/
theorem sendChunk_writesOnly (law : HdlcSessionLaw L) (unnumbered : HdlcUnnumberedLaw L)
    (chunk : List UInt8) (last : Bool) (hσ : L.Connected s.session) :
    WritesOnly (fun bytes => ∃ k, BuiltFrom law k chunk (!last) bytes) s
      (sendChunk chunk last s).2 := by
  have hkeeps := keepsNumber_awaitWindow law s (orderly_of_law unnumbered s) hσ
  have hwindow := writesOnly_awaitWindow
    (P := fun bytes => ∃ k, BuiltFrom law k chunk (!last) bytes) s
  rcases sendChunk_cases chunk last s with ⟨o, s1, hw, -, h⟩ | ⟨s1, hw, hrest⟩ <;>
    rw [hw] at hkeeps hwindow
  · rw [h]
    exact hwindow
  rcases hrest with ⟨status, -, h⟩ | ⟨built, σ, hbuild, ⟨status, -, h⟩ | ⟨bytes, hbytes, h⟩⟩ <;>
    rw [h]
  · exact hwindow
  · exact hwindow
  · -- From here on copies of the I-frame are all there is to write.
    have hbuilt : ∃ k, BuiltFrom law k chunk (!last) bytes :=
      ⟨_, builtFrom_of_recoded hkeeps.2.1 hbuild hbytes⟩
    have hwrite : Proc.Within (WritesOnly fun bytes => ∃ k, BuiltFrom law k chunk (!last) bytes)
        (writeAndWait (L := L) bytes) := writeAndWait_writesOnly hbuilt
    have hemit : WritesOnly (fun bytes => ∃ k, BuiltFrom law k chunk (!last) bytes) s1
        (emitted bytes σ s1) := writesOnly_of_none rfl rfl
    exact writesOnly_trans _ _ _ hwindow (writesOnly_trans _ _ _ hemit (hwrite _))

/-- The bytes are an I-frame of one of the pieces. -/
def OfPieces (law : HdlcSessionLaw L) (all : List Piece) (bytes : List UInt8) : Prop :=
  ∃ k, ∃ piece ∈ all, BuiltFrom law k piece.information piece.segmented bytes

/-- The loop writes I-frames of its pieces, however it ends. -/
theorem sendChunks_writesOnly (law : HdlcSessionLaw L) (unnumbered : HdlcUnnumberedLaw L)
    (size left : Nat) (remaining : List UInt8) (hσ : L.Connected s.session) :
    WritesOnly (OfPieces law (pieces size left remaining)) s
      (sendChunks size left remaining s).2 := by
  -- By induction on the chunks left; what a chunk writes spells one of the pieces.
  induction left generalizing s remaining with
  | zero => exact writesOnly_refl s
  | succ left ih =>
      have hchunk : WritesOnly (OfPieces law (pieces size (left + 1) remaining)) s
          (sendChunk (remaining.take size) (left == 0) s).2 := by
        refine (sendChunk_writesOnly law unnumbered (remaining.take size) (left == 0) hσ).mono ?_
        rintro bytes ⟨k, hbuilt⟩
        exact ⟨k, _, List.mem_cons_self, hbuilt⟩
      -- The loop ends with the chunk that failed, else the rest are pieces of the rest.
      rcases sendChunks_cases size left remaining s with ⟨s1, hc, hloop⟩ | ⟨-, hloop⟩ <;>
        rw [hloop]
      · rw [hc] at hchunk
        rcases sendChunk_done law unnumbered hσ hc with ⟨taken, frame, hsends, -⟩
        refine writesOnly_trans _ _ _ hchunk ((ih (remaining.drop size) hsends.connected).mono ?_)
        rintro bytes ⟨k, piece, hpiece, hbuilt⟩
        exact ⟨k, piece, List.mem_cons_of_mem _ hpiece, hbuilt⟩
      · exact hchunk

/-- Whatever becomes of a call, it writes I-frames of its LPDU. -/
theorem sendApdu_writesOnly (law : HdlcSessionLaw L) (unnumbered : HdlcUnnumberedLaw L)
    (huse : s.options.hdlcUseSession = true) :
    WritesOnly (fun bytes => encodeApdu L s.options apdu.data = (.ok, lpduOf s apdu) ∧
      OfPieces law (pieces (chunkSizeOf s apdu) (framesToSend s apdu) (lpduOf s apdu)) bytes) s
      (sendApdu apdu s).2 := by
  -- A refused call writes nothing at all.
  by_cases hrefused : Refused s apdu
  · rcases sendApdu_of_refused huse hrefused with ⟨status, h⟩
    rw [h]
    exact writesOnly_refl s
  · rw [sendApdu_of_unrefused huse hrefused]
    simp only [Refused, not_or, not_not] at hrefused
    rcases hrefused with ⟨-, -, hllc, hσ⟩
    have hlimited : L.Connected (limited s).session := hσ
    rcases sendChunks_writesOnly law unnumbered (chunkSizeOf s apdu) (framesToSend s apdu)
      (lpduOf s apdu) hlimited with ⟨events, htrace, hall⟩
    exact ⟨events, htrace, fun w hw => ⟨Prod.ext hllc rfl, hall w hw⟩⟩

end Writes

section Connected

variable {s : State L}

/-- A turn of the sending loop leaves a connected session connected. -/
theorem sendChunk_connected (law : HdlcSessionLaw L) (unnumbered : HdlcUnnumberedLaw L)
    (refuses : HdlcRefusalLaw L) (chunk : List UInt8) (last : Bool) (hσ : L.Connected s.session) :
    L.Connected (sendChunk chunk last s).2.session := by
  have hkeeps := keepsNumber_awaitWindow law s (orderly_of_law unnumbered s) hσ
  rcases sendChunk_cases chunk last s with ⟨o, s1, hw, -, h⟩ | ⟨s1, hw, hrest⟩ <;>
    rw [hw] at hkeeps
  · rw [h]
    exact hkeeps.2.1
  rcases hrest with ⟨status, hne, h⟩ | ⟨built, σ, hbuild, ⟨status, -, h⟩ | ⟨bytes, -, h⟩⟩ <;>
    rw [h]
  · -- A session that builds nothing stays as it is.
    rw [refuses.information hkeeps.2.1 hne]
    exact hkeeps.2.1
  · exact (law.information hkeeps.2.1 hbuild).1
  · have hemitted : L.Connected (emitted bytes σ s1).session :=
      (law.information hkeeps.2.1 hbuild).1
    exact (keepsNumber_writeAndWait law bytes _ (orderly_of_law unnumbered _) hemitted).2.1

theorem sendChunks_connected (law : HdlcSessionLaw L) (unnumbered : HdlcUnnumberedLaw L)
    (refuses : HdlcRefusalLaw L) (size left : Nat) (remaining : List UInt8)
    (hσ : L.Connected s.session) :
    L.Connected (sendChunks size left remaining s).2.session := by
  -- No chunk disconnects the session, whether it succeeds or not.
  induction left generalizing s remaining with
  | zero => exact hσ
  | succ left ih =>
      have hchunk := sendChunk_connected law unnumbered refuses (remaining.take size) (left == 0) hσ
      rcases sendChunks_cases size left remaining s with ⟨s1, hc, hloop⟩ | ⟨-, hloop⟩ <;>
        rw [hloop]
      · rw [hc] at hchunk
        exact ih (remaining.drop size) hchunk
      · exact hchunk

/-- So does the whole call. -/
theorem sendApdu_connected (law : HdlcSessionLaw L) (unnumbered : HdlcUnnumberedLaw L)
    (refuses : HdlcRefusalLaw L) {apdu : ProfileByteView} (huse : s.options.hdlcUseSession = true)
    (hσ : L.Connected s.session) : L.Connected (sendApdu apdu s).2.session := by
  by_cases hrefused : Refused s apdu
  · rcases sendApdu_of_refused huse hrefused with ⟨status, h⟩
    rw [h]
    exact hσ
  · have hlimited : L.Connected (limited s).session := hσ
    rw [sendApdu_of_unrefused huse hrefused]
    exact sendChunks_connected law unnumbered refuses _ _ _ hlimited

/-- The bytes of an RR. -/
def IsReceiveReady (wire : HdlcWireLaw L law) (bytes : List UInt8) : Prop :=
  ∃ next, SpellsReceiveReady wire next bytes

/-- Behind the reassembler only RRs are written. -/
theorem acceptCompleted_writes (unnumbered : HdlcUnnumberedLaw L) (wire : HdlcWireLaw L law)
    (completed : L.Frame) (hasCompleted : Bool) (hσ : L.Connected s.session) :
    L.Connected (acceptCompleted completed hasCompleted s).2.session ∧
      WritesOnly (IsReceiveReady wire) s (acceptCompleted completed hasCompleted s).2 := by
  have haccepted : (L.receiveFrame s.session completed).1 = .ok →
      L.Connected (judged completed s).session := fun hok =>
    (unnumbered.accepted law hσ (Prod.ext hok rfl)).1
  rcases acceptCompleted_cases completed hasCompleted s with
    ⟨hne, h⟩ | ⟨hok, -, h⟩ | ⟨hok, -, -, status, -, h⟩ | ⟨hok, -, -, apdu, -, h⟩ <;> rw [h]
  -- Rejected: the session is left as it was and nothing is written.
  · have hsame : (judged completed s).session = s.session := law.rejected hσ (Prod.ext rfl rfl) hne
    exact ⟨hsame ▸ hσ, writesOnly_of_none rfl rfl⟩
  · exact ⟨haccepted hok, writesOnly_of_none rfl rfl⟩
  · exact ⟨haccepted hok, writesOnly_of_none (List.append_assoc _ _ _) rfl⟩
  -- Accepted with an APDU: the one branch that writes, and what it writes is an RR.
  · have hqueued : L.Connected (queueing completed.information apdu (judged completed s)).session :=
      haccepted hok
    rcases sendSessionReceiveReady_connected wire hqueued with
      ⟨bytes, status, htrace, hbytes, -, hσ'⟩
    have hjudged : WritesOnly (IsReceiveReady wire) s
        (queueing completed.information apdu (judged completed s)) :=
      writesOnly_of_none (List.append_assoc _ _ _) rfl
    refine ⟨hσ', writesOnly_trans _ _ _ hjudged ⟨_, htrace, fun w hw => ?_⟩⟩
    rw [List.mem_singleton.mp hw]
    exact ⟨_, hbytes⟩

/-- A connected channel in session mode stays so and writes RRs. -/
def WritesReplies (wire : HdlcWireLaw L law) (s s' : State L) : Prop :=
  s.options.hdlcUseSession = true → L.Connected s.session →
    s'.options.hdlcUseSession = true ∧ L.Connected s'.session ∧
      WritesOnly (IsReceiveReady wire) s s'

theorem writesReplies_refl {wire : HdlcWireLaw L law} (s : State L) : WritesReplies wire s s :=
  fun huse hσ => ⟨huse, hσ, writesOnly_refl s⟩

theorem writesReplies_trans {wire : HdlcWireLaw L law} (a b c : State L)
    (h : WritesReplies wire a b) (h' : WritesReplies wire b c) : WritesReplies wire a c := by
  intro huse hσ
  rcases h huse hσ with ⟨huse', hσ', hwrites⟩
  rcases h' huse' hσ' with ⟨huse'', hσ'', hwrites'⟩
  exact ⟨huse'', hσ'', writesOnly_trans _ _ _ hwrites hwrites'⟩

/-- One turn of the receive loop. -/
theorem receiveTurn_writes (unnumbered : HdlcUnnumberedLaw L) (wire : HdlcWireLaw L law) :
    Proc.Within (WritesReplies wire) (receiveTurn (L := L)) := by
  refine Proc.within_bind writesReplies_trans (fun s huse hσ => ?_) fun frame s huse hσ => ?_
  · have haside := receiveDecodedFrame_aside s
    rcases receiveDecodedFrame_readsOnly s with ⟨taken, -, htrace⟩
    exact ⟨haside.options ▸ huse, haside.session ▸ hσ,
      writesOnly_of_none htrace (written_reads taken)⟩
  · rw [handleFrame_snd]
    refine ⟨(decodeFrame_sameIntake frame s).options ▸ huse, ?_⟩
    -- Only the frame that completes an information field reaches the session.
    rcases decodeFrame_cases frame huse with ⟨-, h⟩ | ⟨-, -, h⟩ | ⟨-, h⟩ <;> rw [h]
    · exact ⟨hσ, writesOnly_of_none (List.append_nil _).symm rfl⟩
    · exact ⟨hσ, writesOnly_of_none (List.append_nil _).symm rfl⟩
    · exact acceptCompleted_writes unnumbered wire _ _
        (s := reassembling (L.pushFrame s.reassembler frame).2.2 s) hσ

/-- A receive call writes RRs. -/
theorem receive_writes (unnumbered : HdlcUnnumberedLaw L) (wire : HdlcWireLaw L law)
    (call : ReceiveCall) (s : State L) :
    WritesReplies wire s (exec (.receive call) s).2 :=
  PendingQueue.within_call writesReplies_refl writesReplies_trans
    (PendingQueue.within_await writesReplies_refl writesReplies_trans
      (Proc.within_repeatUntil writesReplies_trans (receiveTurn_writes unnumbered wire)))
    (fun _ huse hσ => ⟨huse, hσ, writesOnly_of_none (List.append_nil _).symm rfl⟩) call s

/-- A call that sends or receives leaves a connected channel connected. -/
theorem exec_connected (unnumbered : HdlcUnnumberedLaw L) (wire : HdlcWireLaw L law)
    (refuses : HdlcRefusalLaw L) {op : Operation} (hop : op.isTransfer = true)
    (huse : s.options.hdlcUseSession = true) (hσ : L.Connected s.session) :
    (exec op s).2.options.hdlcUseSession = true ∧ L.Connected (exec op s).2.session := by
  cases op with
  | send apdu =>
      have hsame : SameMake s (sendApdu apdu s).2 := sameMake_primitives.within_sendApdu apdu s
      exact ⟨hsame.1 ▸ huse, sendApdu_connected law unnumbered refuses huse hσ⟩
  | receive call =>
      rcases receive_writes unnumbered wire call s huse hσ with ⟨huse', hσ', -⟩
      exact ⟨huse', hσ'⟩
  | _ => cases hop

end Connected

/-- What a call of `SendApdu` recorded. -/
def sentBy (apdu : ProfileByteView) (s : State L) : List (Event L) :=
  (sendApdu apdu s).2.trace.drop s.trace.length

/-- What a call of any kind recorded. -/
def recordOf (op : Operation) (s : State L) : List (Event L) :=
  (exec op s).2.trace.drop s.trace.length

/-- What arrives of the calls made: some of the I-frames written, in order, however often
    they were written and whatever became of the call. -/
def Lossy (limits : HdlcCodecLimits) : List (Operation × List L.Frame) → State L → Prop
  | [], _ => True
  | (op, frames) :: calls, s =>
    frames.Sublist (informationFrames L (onLine L limits (recordOf op s))) ∧
      ((exec op s).1.isWaiting = true → calls = []) ∧ Lossy limits calls (exec op s).2

/-- All I-frames of a call were built, and each of them arrives, and no copy. -/
structure ArrivesWhole (limits : HdlcCodecLimits) (s : State L) (apdu : ProfileByteView)
    (frames : List L.Frame) : Prop where
  built : (emittedBytes (sentBy apdu s)).length = framesToSend s apdu
  decodes : ∀ bytes ∈ emittedBytes (sentBy apdu s), (L.decodeFrame bytes limits).1 = .ok
  once : frames = emittedFrames L limits (sentBy apdu s)

/-- A call is not cut in two: the LPDU it sends fits one I-frame, or nothing of it
    arrives, or it arrives whole. -/
def Uncut (limits : HdlcCodecLimits) (s : State L) : Operation → List L.Frame → Prop
  | .send apdu, frames => Fits s apdu ∨ frames = [] ∨ ArrivesWhole limits s apdu frames
  | _, _ => True

/-- No call is cut in two, up to the last completed run. -/
def Undivided (limits : HdlcCodecLimits) : List (Operation × List L.Frame) → State L → Prop
  | [], _ => True
  | (op, frames) :: calls, s =>
    (Uncut limits s op frames ∧ Undivided limits calls (exec op s).2) ∨
      ∀ call ∈ (op, frames) :: calls, ∀ frame ∈ call.2, frame.segmented = true

section Calls

variable {apdu : ProfileByteView} {s : State L} {limits : HdlcCodecLimits}
  {frames : List L.Frame}

/-- What a call recorded is found behind what was there before. -/
theorem sendApdu_trace (law : HdlcSessionLaw L) (unnumbered : HdlcUnnumberedLaw L)
    (huse : s.options.hdlcUseSession = true) :
    (sendApdu apdu s).2.trace = s.trace ++ sentBy apdu s ∧
      ∀ w ∈ written (sentBy apdu s), encodeApdu L s.options apdu.data = (.ok, lpduOf s apdu) ∧
        OfPieces law (pieces (chunkSizeOf s apdu) (framesToSend s apdu) (lpduOf s apdu)) w.1 := by
  have hwrites : WritesOnly (fun bytes =>
      encodeApdu L s.options apdu.data = (.ok, lpduOf s apdu) ∧
        OfPieces law (pieces (chunkSizeOf s apdu) (framesToSend s apdu) (lpduOf s apdu)) bytes) s
      (sendApdu apdu s).2 := sendApdu_writesOnly law unnumbered huse
  rcases hwrites with ⟨events, htrace, hall⟩
  -- The record of the call is what it appended to the trace.
  rw [sentBy, htrace, List.drop_left]
  exact ⟨rfl, hall⟩

/-- A frame of a call on the line carries one of its pieces. -/
theorem onLine_pieces (unnumbered : HdlcUnnumberedLaw L) (wire : HdlcWireLaw L law)
    (huse : s.options.hdlcUseSession = true) {frame : L.Frame}
    (h : frame ∈ onLine L limits (sentBy apdu s)) :
    encodeApdu L s.options apdu.data = (.ok, lpduOf s apdu) ∧
      ∃ piece ∈ pieces (chunkSizeOf s apdu) (framesToSend s apdu) (lpduOf s apdu),
        frame.segmented = piece.segmented ∧ frame.information = piece.information := by
  rcases List.mem_filterMap.mp h with ⟨w, hw, hframe⟩
  -- A frame on the line was decoded from a write, and a write spells a piece.
  rcases (sendApdu_trace law unnumbered huse).2 w hw with ⟨henc, k, piece, hpiece, hbuilt⟩
  rw [frameOf] at hframe
  split at hframe
  swap
  · cases hframe
  next hok =>
    rcases built_frame wire hbuilt hok with ⟨-, hseg, hinfo, -⟩
    obtain rfl := Option.some.inj hframe
    exact ⟨henc, piece, hpiece, hseg, hinfo⟩

/-- The one piece of an LPDU that fits. -/
theorem Fits.piece (h : Fits s apdu) {piece : Piece}
    (hpiece : piece ∈ pieces (chunkSizeOf s apdu) (framesToSend s apdu) (lpduOf s apdu)) :
    piece.segmented = false ∧ piece.information = lpduOf s apdu := by
  have hle := h.frames_le
  -- An LPDU that fits makes no frame or one, which carries all of it.
  have hcount : framesToSend s apdu = 0 ∨ framesToSend s apdu = 1 := by omega
  rcases hcount with hcount | hcount <;> rw [hcount] at hpiece
  · exact absurd hpiece List.not_mem_nil
  · rw [List.mem_singleton.mp hpiece]
    exact ⟨rfl, List.take_of_length_le h.length_le⟩

/-- The runs of what arrives of one call: each has the content of its APDU, and nothing is
    left open. -/
theorem call_runs (unnumbered : HdlcUnnumberedLaw L) (wire : HdlcWireLaw L law) (llc : LlcLaw L)
    (huse : s.options.hdlcUseSession = true) (hsized : Sized s (.send apdu))
    (hline : frames.Sublist (informationFrames L (onLine L limits (sentBy apdu s))))
    (h : Fits s apdu ∨ frames = [] ∨ ArrivesWhole limits s apdu frames) :
    (∀ run ∈ runsOf frames, apduOf L (run.flatMap (·.information)) = apdu.data) ∧
      Runs.remainder (·.segmented) [] frames = [] := by
  by_cases hnone : frames = []
  · rw [hnone]
    exact ⟨fun run h => absurd h List.not_mem_nil, rfl⟩
  have hsub : frames ⊆ onLine L limits (sentBy apdu s) := fun frame hframe =>
    (List.mem_filter.mp (hline.subset hframe)).1
  -- Some frame arrives, so the LPDU is that of the APDU.
  rcases List.exists_mem_of_ne_nil frames hnone with ⟨some, hsome⟩
  have henc := (onLine_pieces unnumbered wire huse (hsub hsome)).1
  have hdata : apduOf L (lpduOf s apdu) = apdu.data := by
    rw [apduOf, llc.decode henc]
  rcases h with hfits | hnil | hwhole
  · -- Every frame is the LPDU.
    have hall : ∀ frame ∈ frames, frame.segmented = false ∧
        frame.information = lpduOf s apdu := by
      intro frame hframe
      rcases onLine_pieces unnumbered wire huse (hsub hframe) with ⟨-, piece, hpiece, hseg, hinfo⟩
      rcases hfits.piece hpiece with ⟨hsingle, hlpdu⟩
      exact ⟨hseg.trans hsingle, hinfo.trans hlpdu⟩
    rcases Runs.completed_ending fun f hf => (hall f hf).1 with ⟨hruns, hrest⟩
    refine ⟨fun run hrun => ?_, hrest⟩
    rw [runsOf, hruns] at hrun
    rcases List.mem_map.mp hrun with ⟨frame, hframe, rfl⟩
    rw [List.flatMap_singleton, (hall frame hframe).2, hdata]
  · exact absurd hnil hnone
  · -- The frames are the LPDU, piece by piece.
    rcases hwhole with ⟨hbuilt, hdecodes, rfl⟩
    rcases sendApdu_bears unnumbered wire huse (sendApdu_trace law unnumbered huse).1 hsized hbuilt
      hdecodes with
      ⟨-, hnil⟩ | ⟨segments, last, hframes, -, hbears, hinfo⟩
    · rw [hnil]
      exact ⟨fun run h => absurd h List.not_mem_nil, rfl⟩
    rcases Runs.completed_run hbears.segmented hbears.whole with ⟨hruns, hrest⟩
    rw [hframes]
    refine ⟨fun run hrun => ?_, hrest⟩
    rw [runsOf, hruns] at hrun
    rw [List.mem_singleton.mp hrun, hinfo, hdata]

/-- Of a receive call no I-frame is on the line. -/
theorem receive_runs (unnumbered : HdlcUnnumberedLaw L) (wire : HdlcWireLaw L law)
    (call : ReceiveCall) (huse : s.options.hdlcUseSession = true) (hσ : L.Connected s.session) :
    informationFrames L (onLine L limits (recordOf (.receive call) s)) = [] := by
  -- Everything a ReceiveApdu writes is an RR, and an RR is no information frame.
  rcases receive_writes unnumbered wire call s huse hσ with ⟨-, -, events, htrace, hall⟩
  refine List.filter_eq_nil_iff.mpr fun frame hmem hkind => ?_
  rw [recordOf, htrace, List.drop_left] at hmem
  rcases List.mem_filterMap.mp hmem with ⟨w, hw, hframe⟩
  rcases hall w hw with ⟨next, reply, hspells, hreply, -⟩
  rw [frameOf] at hframe
  split at hframe
  · next hok =>
      have hsame : frame = reply :=
        (Option.some.inj hframe).symm.trans (wire.decode hspells (Prod.ext hok rfl))
      rw [← hsame, of_decide_eq_true hkind] at hreply
      cases hreply
  · cases hframe

end Calls

section Run

variable {limits : HdlcCodecLimits} {calls : List (Operation × List L.Frame)} {s : State L}

/-- The calls behind the first are made where it ended, unless it did not end. -/
theorem sized_rest {op : Operation} {frames : List L.Frame}
    (hsizes : AtEachCall Sized (((op, frames) :: calls).map (·.1)) s)
    (hwaits : (exec op s).1.isWaiting = true → calls = []) :
    AtEachCall Sized (calls.map (·.1)) (exec op s).2 := by
  -- A call that waits is the last one, so there is no rest to bound.
  cases hw : (exec op s).1.isWaiting with
  | true =>
      rw [hwaits hw]
      trivial
  | false => exact hsizes.2 hw

/-- The runs of what arrives of one call, be it of either kind: each is one APDU sent, and
    nothing is left open. -/
theorem transfer_runs (unnumbered : HdlcUnnumberedLaw L) (wire : HdlcWireLaw L law)
    (llc : LlcLaw L) {op : Operation} {frames : List L.Frame} (hop : op.isTransfer = true)
    (huse : s.options.hdlcUseSession = true) (hσ : L.Connected s.session) (hsized : Sized s op)
    (hline : frames.Sublist (informationFrames L (onLine L limits (recordOf op s))))
    (huncut : Uncut limits s op frames) :
    (∀ run ∈ runsOf frames, ∃ apdu : ProfileByteView, op = .send apdu ∧
        apduOf L (run.flatMap (·.information)) = apdu.data) ∧
      Runs.remainder (·.segmented) [] frames = [] := by
  cases op with
  | send apdu =>
      rcases call_runs unnumbered wire llc huse hsized hline huncut with ⟨hruns, hopen⟩
      exact ⟨fun run hrun => ⟨apdu, rfl, hruns run hrun⟩, hopen⟩
  | receive call =>
      -- Nothing the line could keep of a ReceiveApdu is an information frame.
      rw [receive_runs unnumbered wire call huse hσ, List.sublist_nil] at hline
      rw [hline]
      exact ⟨fun run h => absurd h List.not_mem_nil, rfl⟩
  | _ => cases hop

/-- The runs of all that arrives: each has the content of one call. -/
theorem calls_runs (unnumbered : HdlcUnnumberedLaw L) (wire : HdlcWireLaw L law) (llc : LlcLaw L)
    (refuses : HdlcRefusalLaw L) (hcalls : ∀ call ∈ calls, call.1.isTransfer = true)
    (huse : s.options.hdlcUseSession = true) (hσ : L.Connected s.session)
    (hsizes : AtEachCall Sized (calls.map (·.1)) s) (hline : Lossy limits calls s)
    (hundivided : Undivided limits calls s) :
    ∀ run ∈ runsOf (calls.flatMap (·.2)), ∃ apdu : ProfileByteView,
      .send apdu ∈ calls.map (·.1) ∧ apduOf L (run.flatMap (·.information)) = apdu.data := by
  induction calls generalizing s with
  | nil => exact fun run h => absurd h List.not_mem_nil
  | cons call calls ih =>
      rcases call with ⟨op, frames⟩
      rcases hline with ⟨hhere, hwaits, hrest⟩
      have hop : op.isTransfer = true := hcalls _ List.mem_cons_self
      rcases hundivided with ⟨hcall, hlater⟩ | hsegments
      swap
      · -- Segments alone complete nothing.
        intro run hrun
        rw [runsOf, Runs.completed_continuing] at hrun
        · exact absurd hrun List.not_mem_nil
        · intro frame hframe
          rcases List.mem_flatMap.mp hframe with ⟨call, hmem, hframe⟩
          exact hsegments call hmem frame hframe
      rcases transfer_runs unnumbered wire llc hop huse hσ hsizes.1 hhere hcall with ⟨hruns, hopen⟩
      rcases exec_connected unnumbered wire refuses hop huse hσ with ⟨huse', hσ'⟩
      have hcompleted := ih (fun call h => hcalls call (List.mem_cons_of_mem _ h)) huse' hσ'
        (sized_rest hsizes hwaits) hrest hlater
      intro run hrun
      rw [runsOf, List.flatMap_cons, Runs.completed_append, hopen] at hrun
      rcases List.mem_append.mp hrun with hrun | hrun
      · rcases hruns run hrun with ⟨apdu, rfl, hdata⟩
        exact ⟨apdu, List.mem_cons_self, hdata⟩
      · rcases hcompleted run hrun with ⟨apdu, hmem, hdata⟩
        exact ⟨apdu, List.mem_cons_of_mem _ hmem, hdata⟩

end Run

/-- Two connected channels send and receive as they like, whatever becomes of their calls,
    over a line that keeps the order of frames and may lose any of them. As long as no call
    is cut in two on its way to the receive calls of the other end, every APDU handed over
    there is the APDU of one call. -/
theorem received_whole (unnumbered : HdlcUnnumberedLaw L) (wire : HdlcWireLaw L law)
    (collects : HdlcReassemblerLaw L) (llc : LlcLaw L) (refuses : HdlcRefusalLaw L)
    {limits : HdlcCodecLimits} {calls : List (Operation × List L.Frame)} {ops : List Operation}
    {sender receiver : State L} (hcalls : ∀ call ∈ calls, call.1.isTransfer = true)
    (hops : ∀ op ∈ ops, op.isTransfer = true) (hsession : sender.options.hdlcUseSession = true)
    (hsender : L.Connected sender.session) (hsizes : AtEachCall Sized (calls.map (·.1)) sender)
    (hline : Lossy limits calls sender) (hundivided : Undivided limits calls sender)
    (hsession' : receiver.options.hdlcUseSession = true)
    (hcollected : collects.collected receiver.reassembler = [])
    (hpending : receiver.pendingApdus = [])
    (harrives : heardBy L ops receiver = calls.flatMap (·.2)) :
    ∀ data ∈ (run ops receiver).1.filterMap Result.delivered, ∃ apdu : ProfileByteView,
      .send apdu ∈ calls.map (·.1) ∧ data = apdu.data := by
  have hno : Operation.close ∉ ops := fun h => by cases hops _ h
  -- Without Close, every delivered APDU was in the queue or was queued by the run.
  rcases run_delivers hno receiver with ⟨events, htrace, hqueue⟩
  -- What is queued is a whole run of segments heard, the reassembler being empty at the start.
  rcases (run_content collects hops hsession').content with ⟨events', htrace', hcontent⟩
  obtain rfl := List.append_cancel_left (htrace'.symm.trans htrace)
  rw [hpending, List.nil_append] at hqueue
  rw [hcollected, harrives] at hcontent
  intro data hdata
  have hqueued : data ∈ queued events' := hqueue ▸ List.mem_append_left _ hdata
  rcases hcontent data hqueued with ⟨run, hrun, rfl⟩
  exact calls_runs unnumbered wire llc refuses hcalls hsession hsender hsizes hline hundivided run
    hrun

/-- Three APDUs and a receive call in between: an LPDU that fits and is written twice, one
    of two I-frames, each of which arrives once, and one of which the first I-frame arrives
    twice and no more. The other end sends as well, and the wait takes the copy of the
    first. -/
theorem received_whole_cut :
    let sender := (run [.connectDataLink] (Reference.hdlcChannel
      { Reference.sessionOptions with hdlcMaxInformationFieldLengthTransmit := 4 }
      [Reference.arrived (Reference.toClient Reference.ua []), ⟨.timeout, []⟩,
        Reference.arrived (Reference.receiveReady 1),
        Reference.arrived (Reference.toClient 0x30 [0xE6, 0xE7, 0x00, 0xD0]),
        Reference.arrived (Reference.receiveReady 2), Reference.arrived (Reference.receiveReady 3),
        ⟨.timeout, []⟩])).2
    -- The first call retransmits and the last never returns; the peer's APDU comes in between.
    let made : List Operation := [.send (.of [0xC0]), .receive .vector, .send (.of [0xC1, 0xC2]),
      .send (.of [0xC3, 0xC4])]
    let receiver := (run [.acceptDataLink] (Reference.hdlcChannel Reference.serverOptions
      [Reference.arrived ((written (run made sender).2.trace).flatMap (·.1))])).2
    let ops : List Operation :=
      [.receive .vector, .send (.of [0xD0]), .receive .vector, .receive .vector]
    ∀ data ∈ (run ops receiver).1.filterMap Result.delivered, ∃ apdu : ProfileByteView,
      .send apdu ∈ made ∧ data = apdu.data := by
  intro sender made receiver ops
  let L := Reference.hdlcLib
  let limits := L.defaultCodecLimits
  let second := (exec (.send (.of [0xC0])) sender).2
  let third := (exec (.receive .vector) second).2
  let fourth := (exec (.send (.of [0xC1, 0xC2])) third).2
  let onIt (op : Operation) (s : State L) : List L.Frame :=
    informationFrames L (onLine L limits (recordOf op s))
  let calls : List (Operation × List L.Frame) :=
    [(.send (.of [0xC0]), (onIt (.send (.of [0xC0])) sender).take 1),
      (.receive .vector, []),
      (.send (.of [0xC1, 0xC2]), onIt (.send (.of [0xC1, 0xC2])) third),
      (.send (.of [0xC3, 0xC4]), onIt (.send (.of [0xC3, 0xC4])) fourth)]
  have hcalls : ∀ call ∈ calls, call.1.isTransfer = true := by decide +kernel
  have hsizes : AtEachCall Sized (calls.map (·.1)) sender := by
    refine ⟨fun apdu h => ?_, fun _ => ⟨fun apdu h => ?_, fun _ => ⟨fun apdu h => ?_,
      fun _ => ⟨fun apdu h => ?_, fun _ => trivial⟩⟩⟩⟩
    · obtain rfl := Operation.send.inj h
      decide +kernel
    · cases h
    · obtain rfl := Operation.send.inj h
      decide +kernel
    · obtain rfl := Operation.send.inj h
      decide +kernel
  -- The line keeps one of the two copies that the first call wrote, and all the rest.
  have hline : Lossy limits calls sender := by
    refine ⟨List.take_sublist _ _, ?_, List.nil_sublist _, ?_, List.Sublist.refl _, ?_,
      List.Sublist.refl _, fun _ => rfl, trivial⟩
    · decide +kernel
    · decide +kernel
    · decide +kernel
  have hundivided : Undivided limits calls sender := by
    refine Or.inl ⟨Or.inl ?_, Or.inl ⟨trivial, Or.inl ⟨Or.inr (Or.inr ⟨?_, ?_, ?_⟩),
      Or.inr ?_⟩⟩⟩
    · decide +kernel
    · decide +kernel
    · decide +kernel
    · decide +kernel
    · decide +kernel
  have harrives : heardBy L ops receiver = calls.flatMap (·.2) := by decide +kernel
  exact received_whole Reference.unnumberedLaw Reference.wireLaw Reference.reassemblerLaw
    Reference.llcLaw Reference.refusalLaw hcalls (by decide +kernel) (by decide +kernel)
    (by decide +kernel) hsizes hline hundivided (by decide +kernel) (by decide +kernel)
    (by decide +kernel) harrives

/-- The first call writes its first I-frame twice, both times without a reply, and is given
    up. Both copies arrive, and the I-frame of the next call completes them: what the peer
    hands over is made of two calls, with one segment twice and another missing. -/
theorem received_whole_refuted :
    let sender := run [.connectDataLink, .send (.of [0xC0, 0xC1]), .send (.of [0xC2])]
      (Reference.hdlcChannel
        { Reference.sessionOptions with
          hdlcMaxInformationFieldLengthTransmit := 4
          hdlcWindowSizeTransmit := 2
          hdlcRetryCount := 1 }
        [Reference.arrived (Reference.toClient Reference.ua []), ⟨.timeout, []⟩, ⟨.timeout, []⟩,
          Reference.arrived (Reference.receiveReady 1)])
    let receiver := run [.acceptDataLink, .receive .vector]
      (Reference.hdlcChannel Reference.serverOptions
        ((written sender.2.trace).map fun w => Reference.arrived w.1))
    sender.1 = [.status (.done ()), .status (.fail .timeout), .status (.done ())] ∧
      (written receiver.2.trace).map (·.1) =
        [Reference.toClient Reference.ua [], Reference.receiveReady 1] ∧
      receiver.1 = [.status (.done ()), .received (.vector (.done
        [0xC0, 0xE6, 0xE6, 0x00, 0xC0, 0xE6, 0xE6, 0x00, 0xC2]))] := by
  decide +kernel

end Hdlc

end DlmsProfile
